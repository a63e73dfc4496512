import Bedrock.Coverage
import Bedrock.History

/-!
# Accounting for interrupts

An interrupt is requested by a bit of the IRR and stays requested until it is injected,
when the bit moves to the ISR.  Timers, the I/O channel and the serial port set bits of
the IRR; only an injection clears one, and it clears the bit of the vector it injects.
-/

namespace Bedrock

open Support Program VmContext Part ApicState Framed VmcsTable

/-! ## Interrupt registers as sets of vectors -/

namespace ApicState

/-- The bit of `v` in a 256-bit interrupt register. -/
def vectorBit (reg : Vector UInt32 8) (v : Nat) : Bool :=
  (reg.getD (v / 32) 0).toBitVec.getLsbD (v % 32)

theorem getD_eq_getElem? (reg : Vector UInt32 8) (j : Nat) : reg.getD j 0 = (reg[j]?).getD 0 := by
  unfold Vector.getD Array.getD
  by_cases h : j < 8
  · rw [dif_pos (by simpa using h), Vector.getElem?_eq_getElem h]
    rfl
  · rw [dif_neg (by simpa using h), Vector.getElem?_eq_none (Nat.le_of_not_lt h)]
    rfl

theorem getD_of_le (reg : Vector UInt32 8) {j : Nat} (h : 8 ≤ j) : reg.getD j 0 = 0 := by
  rw [getD_eq_getElem?, Vector.getElem?_eq_none h]
  rfl

theorem getD_setIfInBounds (reg : Vector UInt32 8) {i : Nat} (hi : i < 8) (w : UInt32) (j : Nat) :
    (reg.setIfInBounds i w).getD j 0 = if j = i then w else reg.getD j 0 := by
  rw [getD_eq_getElem?, getD_eq_getElem?, Vector.getElem?_setIfInBounds]
  by_cases hij : i = j
  · rw [if_pos hij, if_pos hi, if_pos hij.symm]
    rfl
  · rw [if_neg hij, if_neg (Ne.symm hij)]

theorem getLsbD_one_shiftLeft (vector : UInt32) {i : Nat} (hi : i < 32) :
    ((1 : UInt32) <<< (vector % 32)).toBitVec.getLsbD i = decide (i = vector.toNat % 32) := by
  have hbit : ((1 : UInt32) <<< (vector % 32)).toBitVec.getLsbD i = (decide (i < 32) &&
      !decide (i < vector.toNat % 32) && decide (i - vector.toNat % 32 = 0)) := by simp
  rw [hbit]
  by_cases h : i = vector.toNat % 32
  all_goals
    simp [h]
    omega

variable {reg : Vector UInt32 8} {vector : UInt32}

theorem vectorBit_setVectorBit (h : vector.toNat < 256) (v : Nat) :
    vectorBit (setVectorBit reg vector) v = (decide (v = vector.toNat) || vectorBit reg v) := by
  have hword : (vector / 32).toNat = vector.toNat / 32 := by simp
  unfold vectorBit setVectorBit
  dsimp only
  rw [hword, getD_setIfInBounds _ (by omega)]
  by_cases hsame : v / 32 = vector.toNat / 32
  · rw [if_pos hsame, UInt32.toBitVec_or, BitVec.getLsbD_or, getLsbD_one_shiftLeft _ (by omega),
      ← hsame, Bool.or_comm]
    congr 1
    rw [decide_eq_decide]
    omega
  · have hne : v ≠ vector.toNat := fun heq => hsame (by rw [heq])
    simp [hsame, hne]

theorem vectorBit_clearVectorBit (h : vector.toNat < 256) (v : Nat) :
    vectorBit (clearVectorBit reg vector) v = (!decide (v = vector.toNat) && vectorBit reg v) := by
  have hword : (vector / 32).toNat = vector.toNat / 32 := by simp
  unfold vectorBit clearVectorBit
  dsimp only
  rw [hword, getD_setIfInBounds _ (by omega)]
  by_cases hsame : v / 32 = vector.toNat / 32
  · rw [if_pos hsame, UInt32.toBitVec_and, BitVec.getLsbD_and, UInt32.toBitVec_not,
      BitVec.getLsbD_not, getLsbD_one_shiftLeft _ (by omega),
      decide_eq_true (show v % 32 < 32 by omega), Bool.true_and, ← hsame, Bool.and_comm]
    congr 2
    rw [decide_eq_decide]
    omega
  · have hne : v ≠ vector.toNat := fun heq => hsame (by rw [heq])
    simp [hsame, hne]

theorem highestVector_split (h : highestVector reg = some vector) :
    ∃ i < 8, reg.getD i 0 ≠ 0 ∧ vector.toNat = i * 32 + (reg.getD i 0).toNat.log2 ∧
      ∀ j, i < j → reg.getD j 0 = 0 := by
  obtain ⟨higher, i, lower, hsplit, hword, hnone⟩ := List.findSome?_eq_some_iff.mp h
  dsimp only at hword
  have hbound : ∀ j ∈ higher ++ i :: lower, j < 8 := by
    rw [← hsplit]
    decide
  have hall : ∀ j < 8, j ∈ higher ++ i :: lower := by
    rw [← hsplit]
    decide
  have hsorted : (higher ++ i :: lower).Pairwise (· > ·) := by
    rw [← hsplit]
    decide
  have hi : i < 8 := hbound i (by simp)
  split at hword
  · cases hword
  rename_i hne
  cases hword
  have hne' : (reg.getD i 0).toNat ≠ 0 := fun hcon => hne (UInt32.toNat.inj hcon)
  have hlog : (reg.getD i 0).toNat.log2 < 32 := (Nat.log2_lt hne').mpr (reg.getD i 0).toNat_lt
  refine ⟨i, hi, hne, ?_, fun j hij => ?_⟩
  · rw [UInt32.toNat_ofNat']
    omega
  by_cases hj : j < 8
  · have hhigher : j ∈ higher := by
      rcases List.mem_append.mp (hall j hj) with hin | hin
      · exact hin
      exfalso
      rcases List.mem_cons.mp hin with rfl | hin
      · omega
      · have := (List.pairwise_cons.mp (List.pairwise_append.mp hsorted).2.1).1 j hin
        omega
    have hskipped := hnone j hhigher
    dsimp only at hskipped
    by_contra hword
    rw [if_neg hword] at hskipped
    cases hskipped
  · exact getD_of_le reg (Nat.le_of_not_lt hj)

theorem highestVector_spec (h : highestVector reg = some vector) :
    IsGreatest {v | vectorBit reg v} vector.toNat ∧ vector.toNat < 256 := by
  obtain ⟨i, hi, hne, hvector, hhigher⟩ := highestVector_split h
  have hne' : (reg.getD i 0).toNat ≠ 0 := fun hcon => hne (UInt32.toNat.inj hcon)
  have hlog : (reg.getD i 0).toNat.log2 < 32 := (Nat.log2_lt hne').mpr (reg.getD i 0).toNat_lt
  rw [hvector]
  refine ⟨⟨?_, fun v hv => ?_⟩, by omega⟩
  · show (reg.getD _ 0).toNat.testBit _
    rw [show (i * 32 + (reg.getD i 0).toNat.log2) / 32 = i by omega,
      show (i * 32 + (reg.getD i 0).toNat.log2) % 32 = (reg.getD i 0).toNat.log2 by omega]
    exact Nat.testBit_log2 hne'
  have hbit : (reg.getD (v / 32) 0).toNat.testBit (v % 32) := hv
  by_contra hgreater
  rcases Nat.lt_trichotomy (v / 32) i with hlt | heq | hlt
  · omega
  · rw [heq] at hbit
    have := (Nat.le_log2 hne').mpr (Nat.ge_two_pow_of_testBit hbit)
    omega
  · rw [hhigher _ hlt] at hbit
    simp at hbit

end ApicState

open ApicState

/-! ## What is requested -/

def VmContext.requests (ctx : VmContext) (v : Nat) : Bool :=
  vectorBit ctx.state.guest.devices.apic.irr v

def VmContext.serves (ctx : VmContext) (v : Nat) : Bool :=
  vectorBit ctx.state.guest.devices.apic.isr v

def KeepsRequested (before after : VmContext) : Prop :=
  ∀ v, before.requests v = true → after.requests v = true

namespace KeepsRequested

theorem refl (ctx : VmContext) : KeepsRequested ctx ctx :=
  fun _ h => h

theorem trans {a b c : VmContext} (hab : KeepsRequested a b) (hbc : KeepsRequested b c) :
    KeepsRequested a c :=
  fun v h => hbc v (hab v h)

theorem of_irr {a b : VmContext} (h : requested.get b = requested.get a) :
    KeepsRequested a b := by
  have hirr : b.state.guest.devices.apic.irr = a.state.guest.devices.apic.irr := h
  intro v hv
  rw [requests, hirr]
  exact hv

theorem of_guest {a b : VmContext} (h : b.state.guest = a.state.guest) : KeepsRequested a b :=
  of_irr (congrArg (fun g => g.devices.apic.irr) h)

theorem of_built {ε α : Type} {m : Program ε VmContext α} (h : Obeys KeepsRequested m)
    (ctx : VmContext) : KeepsRequested ctx (m ctx).2 :=
  Built.keeping (R := KeepsRequested) .refl .trans h ctx

theorem frames : Frames KeepsRequested where
  refl := .refl
  trans := .trans
  events h := .of_guest h.guest
  interceptPf _ := .of_guest rfl
  trapFlag ctx := .of_guest ctx.updateMtfState_untouched.guest
  begin _ _ := .of_guest rfl

end KeepsRequested

theorem toNat_and_255_lt (w : UInt32) : (w &&& 0xFF).toNat < 256 := by
  rw [UInt32.toNat_and]
  exact Nat.lt_succ_of_le Nat.and_le_right

theorem toNat_and_255_toUInt32 (w : UInt64) :
    (w &&& 0xFF).toUInt32.toNat = (w &&& 0xFF).toNat ∧ (w &&& 0xFF).toNat < 256 := by
  have hle : (w &&& 0xFF).toNat ≤ 0xFF := by
    rw [UInt64.toNat_and]
    exact Nat.and_le_right
  rw [UInt64.toNat_toUInt32]
  omega

def DeviceStates.KeepsIrr (before after : DeviceStates) : Prop :=
  ∀ v, vectorBit before.apic.irr v = true → vectorBit after.apic.irr v = true

theorem DeviceStates.ioapicDeliverIrq_keeps (dev : DeviceStates) (irq : Nat) :
    dev.KeepsIrr (dev.ioapicDeliverIrq irq) := by
  intro v hv
  unfold ioapicDeliverIrq
  split
  · exact hv
  split
  · exact hv
  · obtain ⟨hsame, hlt⟩ := toNat_and_255_toUInt32 (dev.ioapic.entry irq)
    rw [vectorBit_setVectorBit (hsame ▸ hlt), hv, Bool.or_true]

theorem writePort_keeps (dev : DeviceStates) (port : Nat) (byte : UInt8) :
    dev.KeepsIrr (writePort dev port byte) := by
  unfold writePort
  dsimp only
  split
  · split <;> exact fun v hv => hv
  · split
    · exact fun v hv => hv
    split
    · exact fun v hv => DeviceStates.ioapicDeliverIrq_keeps _ 4 v hv
    · exact fun v hv => hv
  all_goals exact fun v hv => hv

/-- What leaves the IRR alone keeps it. -/
instance (priority := low) {ε α : Type} {m : Program ε VmContext α}
    [h : Built (Framed .requested EntryAction) m] : Obeys KeepsRequested m :=
  h.mono fun _ hf ctx => .of_irr (hf.2 ctx)

theorem handleIo_keeps (qual : IoQualification) (ctx : VmContext) :
    KeepsRequested ctx (handleIo qual ctx).2 := by
  refine KeepsRequested.of_built ?_ ctx
  have hport : ∀ byte, Obeys KeepsRequested (modifyDevices fun dev =>
      writePort dev qual.port byte : Handler Unit) :=
    fun byte => .act fun c => writePort_keeps c.state.guest.devices qual.port byte
  unfold handleIo
  cases qual.direction <;> infer_instance

theorem dispatch_keeps (reason : ExitReason) (qual : UInt64) (ctx : VmContext) :
    KeepsRequested ctx (dispatch reason qual ctx).2 := by
  by_cases hport : reason = .ioInstruction
  · subst hport
    have hcall : (dispatch .ioInstruction qual ctx).2 = (handleIo (.ofRaw qual) ctx).2 :=
      call_state _ ctx
    rw [hcall]
    exact handleIo_keeps _ ctx
  · exact .of_irr (get_dispatch (p := .requested) hport qual ctx)

theorem VmContext.leave_keeps (ctx : VmContext) : KeepsRequested ctx ctx.leave.2 :=
  KeepsRequested.frames.leave dispatch_keeps ctx

variable {v : Nat} {vector : UInt32} {ctx ctx' : VmContext}

theorem ApicState.fireTimer_keeps (apic : ApicState) (tsc : Nat)
    (hv : vectorBit apic.irr v) : vectorBit (apic.fireTimer tsc).irr v := by
  rw [fireTimer, vectorBit_setVectorBit (toNat_and_255_lt _), hv, Bool.or_true]

theorem GuestState.raise_keeps (g : GuestState) (tsc : Nat) :
    g.devices.KeepsIrr (g.raise tsc).devices := by
  intro v hv
  have htimer : vectorBit (g.raiseTimer tsc).devices.apic.irr v := by
    unfold raiseTimer
    split
    · exact g.devices.apic.fireTimer_keeps tsc hv
    · exact hv
  unfold raise raiseRequest
  split
  · exact DeviceStates.ioapicDeliverIrq_keeps _ _ v htimer
  · exact htimer

theorem injectEligible_keeps (ctx : VmContext) : KeepsRequested ctx (injectEligible ctx).2 := by
  have htimer : Obeys KeepsRequested checkApicTimer := by
    have hfire : ∀ tsc, Obeys KeepsRequested (modifyGuest fun g => { g with
        devices := { g.devices with apic := g.devices.apic.fireTimer tsc } } : Fallible Unit) :=
      fun tsc => .act fun c _ hv => c.state.guest.devices.apic.fireTimer_keeps tsc hv
    unfold checkApicTimer
    infer_instance
  have hchannel : Obeys KeepsRequested checkIoChannel := by
    have hdeliver : Obeys KeepsRequested (modifyGuest fun g => { g with
        devices := g.devices.ioapicDeliverIrq IO_CHANNEL_IRQ
        ioChannel := { g.ioChannel with requestDelivered := true } } : Fallible Unit) :=
      .act fun c => c.state.guest.devices.ioapicDeliverIrq_keeps IO_CHANNEL_IRQ
    unfold checkIoChannel
    infer_instance
  refine KeepsRequested.of_built ?_ ctx
  unfold injectEligible raiseDue
  infer_instance

/-! ## The injection -/

def VmContext.entryEvent (ctx : VmContext) : UInt64 :=
  ctx.state.vmcs.fields.value .vmEntryInterruptionInfo

def VmContext.Queues (ctx : VmContext) (vector : UInt32) : Prop :=
  ctx.entryEvent = (InterruptionInfo.externalInterrupt vector.toUInt64).encode

/-- The interrupt of a vector has been injected: it is queued for the entry, and its bit
has moved from the IRR to the ISR. -/
structure Moved (vector : UInt32) (before after : VmContext) : Prop where
  highest : IsGreatest {v | before.requests v = true} vector.toNat
  queued : after.Queues vector
  irr : ∀ v, after.requests v = true ↔ before.requests v = true ∧ v ≠ vector.toNat
  isr : ∀ v, after.serves v = true ↔ before.serves v = true ∨ v = vector.toNat

theorem pendingVector_eq_some {apic : ApicState} (h : apic.pendingVector = some vector) :
    apic.enabled ∧ highestVector apic.irr = some vector := by
  unfold pendingVector at h
  split at h
  · cases h
  · rename_i henabled
    exact ⟨by simpa using henabled, h⟩

theorem Moved.of_acknowledged {after : VmContext}
    (hpending : ctx.state.guest.devices.apic.pendingVector = some vector)
    (hguest : after.state.guest.devices.apic = ctx.state.guest.devices.apic.acknowledge vector)
    (hqueued : after.Queues vector) : Moved vector ctx after := by
  obtain ⟨hhighest, hlt⟩ := highestVector_spec (pendingVector_eq_some hpending).2
  refine ⟨hhighest, hqueued, fun v => ?_, fun v => ?_⟩
  · rw [requests, hguest, acknowledge, vectorBit_clearVectorBit hlt,
      requests]
    simp [and_comm]
  · rw [serves, hguest, acknowledge, vectorBit_setVectorBit hlt,
      serves]
    simp [or_comm]

theorem disableInterruptWindowExiting_untouched {α : Type} (a : α) (ctx : VmContext) :
    GuestUntouched ctx ((do disableInterruptWindowExiting; pure a : Fallible α) ctx).2 := by
  have hset := ctx.setInterruptWindowExiting_untouched false
  unfold disableInterruptWindowExiting setInterruptWindowExiting
  rcases hrun : ctx.setInterruptWindowExiting false with ⟨e | u, ctx'⟩
  · rw [hrun] at hset
    rw [bind_error]
    · exact hset
    · rw [act_bind, hrun]
      rfl
  · rw [hrun] at hset
    rw [bind_ok]
    · exact hset
    · rw [act_bind, hrun]
      rfl

theorem injectVector_requested
    (hpending : ctx.state.guest.devices.apic.pendingVector = some vector) :
    let m : Fallible (Option UInt32) := do
      injectException (.externalInterrupt vector.toUInt64) none
      modifyGuest fun g => { g with
        devices := { g.devices with apic := g.devices.apic.acknowledge vector } }
      disableInterruptWindowExiting
      pure (some vector)
    requested.get (m ctx).2 = requested.get ctx ∨ Moved vector ctx (m ctx).2 := by
  dsimp only
  rcases hinject : injectException (.externalInterrupt vector.toUInt64) none ctx with ⟨e | u, ctx₁⟩
  · left
    rw [bind_error hinject]
    have hkept : requested.get (injectException (.externalInterrupt vector.toUInt64) none ctx).2 =
        requested.get ctx := get (A := GuestAction) inferInstance ctx
    rw [hinject] at hkept
    exact hkept
  right
  obtain rfl := injectException_none_ok hinject
  rw [bind_ok hinject]
  unfold modifyGuest
  rw [act_bind]
  dsimp only
  generalize hacked : setGuest _ _ = acked
  have hrest := disableInterruptWindowExiting_untouched (some vector) acked
  refine .of_acknowledged hpending ?_ ?_
  · rw [hrest.guest, ← hacked]
    rfl
  · rw [Queues, entryEvent, hrest.fields, ← hacked]
    exact setValue_value_self _ _ _

/-- What `inject_pending_interrupt` does with the highest pending vector, whether or not all
its VMCS accesses succeed: nothing to the IRR, or it has injected the vector. -/
theorem injectPendingVector_requested (ctx : VmContext) :
    requested.get (injectPendingVector ctx).2 = requested.get ctx ∨
      ∃ vector, Moved vector ctx (injectPendingVector ctx).2 := by
  have hread : ∀ field, requested.get (readField field ctx).2 = requested.get ctx :=
    fun field => get (A := GuestAction) inferInstance ctx
  have hwindow : requested.get
      ((do enableInterruptWindowExiting; pure none : Fallible (Option UInt32)) ctx).2 =
        requested.get ctx := get (A := GuestAction) inferInstance ctx
  unfold injectPendingVector getGuest
  rw [act_bind]
  dsimp only
  cases hpending : ctx.state.guest.devices.apic.pendingVector with
  | none => exact .inl rfl
  | some vector =>
    dsimp only
    have hflags := hread .guestRflags
    rcases hrun : readField .guestRflags ctx with ⟨e | rflags, ctx₁⟩
    · rw [bind_error hrun]
      rw [hrun] at hflags
      exact .inl hflags
    obtain ⟨-, rfl⟩ := readField_eq_ok_iff.mp hrun
    rw [bind_ok hrun]
    split
    · exact .inl hwindow
    have hblocking := hread .guestInterruptibilityState
    rcases hrun' : readField .guestInterruptibilityState ctx₁ with ⟨e | blocking, ctx₂⟩
    · rw [bind_error hrun']
      rw [hrun'] at hblocking
      exact .inl hblocking
    obtain ⟨-, rfl⟩ := readField_eq_ok_iff.mp hrun'
    rw [bind_ok hrun']
    split
    · exact .inl hwindow
    rcases injectVector_requested hpending with hkept | hmoved
    · exact .inl hkept
    · exact .inr ⟨vector, hmoved⟩

/-- The vector has been injected for the next entry: it is queued, in service and no longer
requested. -/
structure VmContext.Injects (ctx : VmContext) (v : Nat) : Prop where
  queued : ∃ vector : UInt32, vector.toNat = v ∧ ctx.Queues vector
  served : ctx.serves v = true
  withdrawn : ctx.requests v = false

theorem Moved.injects {before after : VmContext} (h : Moved vector before after) :
    after.Injects vector.toNat where
  queued := ⟨vector, rfl, h.queued⟩
  served := (h.isr _).mpr (.inr rfl)
  withdrawn := by
    rw [← Bool.not_eq_true, h.irr]
    exact fun hkept => hkept.2 rfl

/-- `inject_pending_interrupt` withdraws only the request it injects, whether or not it
succeeds. -/
theorem injectPendingInterrupt_requested (hv : ctx.requests v) :
    (injectPendingInterrupt ctx).2.requests v ∨ (injectPendingInterrupt ctx).2.Injects v := by
  have heligible := injectEligible_keeps ctx v hv
  unfold injectPendingInterrupt
  rcases hrun : injectEligible ctx with ⟨e | eligible, ctx₁⟩
  · rw [bind_error hrun]
    rw [hrun] at heligible
    exact .inl heligible
  rw [hrun] at heligible
  have harmed := KeepsRequested.of_guest ctx₁.armForNextIteration_untouched.guest v heligible
  unfold armForNextIteration
  rw [bind_ok hrun, act_bind]
  dsimp only
  split
  · exact .inl harmed
  rcases injectPendingVector_requested ctx₁.armForNextIteration with hkept | ⟨vector, hmoved⟩
  · exact .inl (KeepsRequested.of_irr hkept v harmed)
  by_cases hvector : v = vector.toNat
  · exact .inr (hvector ▸ hmoved.injects)
  · exact .inl ((hmoved.irr v).mpr ⟨harmed, hvector⟩)

/-! ## A successful call -/

/-- The context with what is due raised: the timer and the request of the I/O channel. -/
def VmContext.raised (ctx : VmContext) : VmContext :=
  ctx.setGuest (ctx.state.guest.raise ctx.state.clock.emulatedTsc)

/-- What has to hold for a new interrupt to be injected.  The event already queued is the one
a read of the field reports: a read that is refused counts as zero there. -/
structure VmContext.Admits (ctx : VmContext) : Prop where
  enabled : ctx.state.guest.devices.apic.enabled = true
  deterministic : ctx.state.lastExitDeterministic = true
  vectoring : bitSet (ctx.state.vmcs.fields.value .idtVectoringInfo) 31 = false
  queued : ctx.queued = false
  interruptFlag : ctx.state.vmcs.fields.value .guestRflags &&& 0x200 ≠ 0
  blocking : ctx.state.vmcs.fields.value .guestInterruptibilityState &&& 0x3 = 0

/-- A successful `inject_pending_interrupt` queues one event at most: the new interrupt, or
the event whose delivery was cut short. -/
structure InjectionAccounted (ctx : VmContext) (injected : Option UInt32) (ctx' : VmContext) :
    Prop where
  event : ctx'.entryEvent =
    match injected with
    | some vector => (InterruptionInfo.externalInterrupt vector.toUInt64).encode
    | none =>
      if bitSet (ctx.state.vmcs.fields.value .idtVectoringInfo) 31 = true then
        ctx.state.vmcs.fields.value .idtVectoringInfo
      else ctx.entryEvent
  admitted : ∀ vector ∈ injected, ctx.Admits
  moved : ∀ vector ∈ injected, Moved vector ctx.raised ctx'
  kept : ∀ v, ctx.requests v = true → injected.map UInt32.toNat ≠ some v →
    ctx'.requests v = true
  served : injected = none → ∀ v, ctx'.serves v = ctx.serves v

theorem VmContext.raised_requests (ctx : VmContext) : KeepsRequested ctx ctx.raised :=
  ctx.state.guest.raise_keeps ctx.state.clock.emulatedTsc

theorem VmContext.raised_serves (ctx : VmContext) (v : Nat) :
    ctx.raised.serves v = ctx.serves v := by
  obtain ⟨irr, hapic⟩ := ctx.state.guest.raise_apic ctx.state.clock.emulatedTsc
  simp only [serves, raised, setGuest, hapic]

theorem VmContext.raised_enabled (ctx : VmContext) :
    ctx.raised.state.guest.devices.apic.enabled = ctx.state.guest.devices.apic.enabled := by
  obtain ⟨irr, hapic⟩ := ctx.state.guest.raise_apic ctx.state.clock.emulatedTsc
  simp only [raised, setGuest, hapic, enabled]

theorem injectPendingInterrupt_cases {injected : Option UInt32}
    (h : injectPendingInterrupt ctx = (.ok injected, ctx')) :
    ctx.considers = false ∧ injected = none ∨
      ctx.considers ∧ ∃ armed, GuestUntouched ctx.raised armed ∧
        injectPendingVector armed = (.ok injected, ctx') := by
  unfold injectPendingInterrupt armForNextIteration at h
  rw [bind_eq_ok_iff] at h
  obtain ⟨eligible, ctx₁, heligible, h⟩ := h
  rw [act_bind] at h
  dsimp only at h
  cases injectEligible_ok heligible with
  | reinjected hyes =>
    cases h
    exact .inl ⟨by simp [considers, hyes], rfl⟩
  | deferred _ hno =>
    cases h
    exact .inl ⟨hno, rfl⟩
  | raised hconsiders hevents =>
    have harmed := hevents.untouched.trans ctx₁.armForNextIteration_untouched
    exact .inr ⟨hconsiders, _, harmed, h⟩

section

variable (h : injectPendingInterrupt ctx = (.ok (some vector), ctx'))
include h

theorem VmContext.Admits.of_injected : ctx.Admits := by
  obtain ⟨info, hvectoring⟩ := injectPendingInterrupt_reads h
  obtain ⟨-, hnone⟩ | ⟨hconsiders, armed, harmed, hinject⟩ := injectPendingInterrupt_cases h
  · cases hnone
  obtain ⟨hdelivery, hreads⟩ := injectPendingVector_spec hinject
  obtain ⟨hrflags, hblocking⟩ := hreads rfl
  have hfields : armed.state.vmcs.fields = ctx.state.vmcs.fields := harmed.fields
  rw [hfields] at hrflags hblocking
  cases hdelivery with
  | injected hpending hopen _ =>
    rw [interruptible, hfields, readOrZero_of_readable hrflags,
      readOrZero_of_readable hblocking] at hopen
    simp only [ne_eq, Bool.and_eq_true, decide_eq_true_eq] at hopen
    simp only [considers, Bool.and_eq_true, Bool.not_eq_true'] at hconsiders
    obtain ⟨⟨hinterrupted, hdeterministic⟩, hqueued⟩ := hconsiders
    rw [interrupted, readOrZero_of_readable (readable_of_read hvectoring)] at hinterrupted
    refine ⟨?_, hdeterministic, hinterrupted, hqueued, hopen.1, hopen.2⟩
    rw [← ctx.raised_enabled, ← harmed.guest]
    exact (pendingVector_eq_some hpending).1

theorem Moved.of_injected : Moved vector ctx.raised ctx' := by
  obtain ⟨-, hnone⟩ | ⟨-, armed, harmed, hinject⟩ := injectPendingInterrupt_cases h
  · cases hnone
  cases (injectPendingVector_spec hinject).1 with
  | injected hpending _ hwindow =>
    obtain ⟨controls, hstate⟩ := setInterruptWindowExiting_state _ false
    rw [hwindow] at hstate
    obtain rfl := hstate
    rw [harmed.guest] at hpending
    refine .of_acknowledged hpending ?_ ?_
    · rw [← harmed.guest]
      rfl
    · exact setValue_value_self _ _ _

end

theorem injectPendingInterrupt_none (h : injectPendingInterrupt ctx = (.ok none, ctx')) :
    (ctx'.entryEvent =
      if bitSet (ctx.state.vmcs.fields.value .idtVectoringInfo) 31 then
        ctx.state.vmcs.fields.value .idtVectoringInfo
      else ctx.entryEvent) ∧
    (ctx'.state.guest = ctx.state.guest ∨ ctx'.state.guest = ctx.raised.state.guest) := by
  obtain ⟨info, hvectoring⟩ := injectPendingInterrupt_reads h
  have hinterrupted : ctx.interrupted =
      bitSet (ctx.state.vmcs.fields.value .idtVectoringInfo) 31 := by
    rw [VmContext.interrupted, readOrZero_of_readable (readable_of_read hvectoring)]
  rw [← hinterrupted]
  obtain ⟨eligible, ctx₁, heligible, hrest⟩ := injectPendingInterrupt_ok h
  have harmed := ctx₁.armForNextIteration_untouched
  -- the fields and the guest at the end are those the eligibility check left
  have hafter : GuestUntouched ctx₁ ctx' := by
    rcases hrest with ⟨-, -, rfl⟩ | ⟨-, hdelivery⟩
    · exact harmed
    cases hdelivery with
    | nothing _ => exact harmed
    | window _ _ hwindow =>
      have hset := ctx₁.armForNextIteration.setInterruptWindowExiting_untouched true
      rw [hwindow] at hset
      exact harmed.trans hset
  rw [entryEvent, hafter.fields, hafter.guest]
  cases heligible with
  | reinjected hyes =>
    rw [if_pos hyes]
    refine ⟨?_, .inl rfl⟩
    simp only [setVmcs, reinject]
    split
    · rw [setValue_value_of_ne _ _ (by decide)]
      exact setValue_value_self _ _ _
    · exact setValue_value_self _ _ _
  | deferred hno _ =>
    rw [if_neg (by simp [hno])]
    exact ⟨rfl, .inl rfl⟩
  | raised hconsiders hevents =>
    have hno : ctx.interrupted = false := by
      simp only [considers, Bool.and_eq_true, Bool.not_eq_true'] at hconsiders
      exact hconsiders.1.1
    rw [if_neg (by simp [hno]), hevents.untouched.fields]
    exact ⟨rfl, .inr hevents.guest⟩

theorem InjectionAccounted.of_ok {injected : Option UInt32}
    (h : injectPendingInterrupt ctx = (.ok injected, ctx')) :
    InjectionAccounted ctx injected ctx' := by
  cases injected with
  | some vector =>
    have hmoved := Moved.of_injected h
    refine ⟨hmoved.queued, ?_, ?_, ?_, nofun⟩
    · rintro _ ⟨⟩
      exact .of_injected h
    · rintro _ ⟨⟩
      exact hmoved
    · intro v hv hother
      refine (hmoved.irr v).mpr ⟨ctx.raised_requests v hv, ?_⟩
      rintro rfl
      exact hother rfl
  | none =>
    obtain ⟨hevent, hguest⟩ := injectPendingInterrupt_none h
    refine ⟨hevent, nofun, nofun, ?_, ?_⟩
    · intro v hv _
      rcases hguest with hsame | hraised
      · exact KeepsRequested.of_guest hsame v hv
      · exact KeepsRequested.of_guest hraised v (ctx.raised_requests v hv)
    · intro _ v
      rcases hguest with hsame | hraised
      · rw [serves, hsame, serves]
      · rw [← ctx.raised_serves, serves, hraised, serves]

theorem VmContext.enter_requested (how : Resume) (hv : ctx.requests v) :
    (ctx.enter how).2.requests v ∨ (ctx.enter how).2.Injects v := by
  have hresume := KeepsRequested.frames.resume ctx how v hv
  unfold enter
  rcases hrun : ctx.resume how with ⟨e | u, ctx'⟩
  · rw [hrun] at hresume
    exact .inl hresume
  · rw [hrun] at hresume
    exact injectPendingInterrupt_requested hresume

/-- The context a step prepares for the entry into the guest, if it comes that far. -/
def VmStep.prepared (t : VmStep) : Option VmContext :=
  match t.label with
  | .iterate it => some it.entered
  | .abort _ .entry => some t.post
  | _ => none

def VmStep.Injects (t : VmStep) (v : Nat) : Prop :=
  ∃ entered, t.prepared = some entered ∧ entered.Injects v

theorem VmStep.Valid.requested {t : VmStep} (h : t.Valid)
    (hv : t.pre.requests v) : t.post.requests v ∨ t.Injects v := by
  cases h with
  | iterate hvalid =>
    rename_i it
    have henter := enter_requested it.how hv
    rw [hvalid.enter] at henter
    rcases henter with hkept | hinjects
    · left
      have hran := KeepsRequested.of_irr
        (get_of_ran (p := .requested) hvalid.ran (by decide)) v hkept
      have hleave := it.exited.leave_keeps v hran
      rw [hvalid.leave] at hleave
      exact hleave
    · exact .inr ⟨_, rfl, hinjects⟩
  | abort ctx how point =>
    cases point with
    | load =>
      left
      rw [VmContext.abort]
      split
      all_goals exact hv
    | start => exact .inl (KeepsRequested.frames.resume ctx how v hv)
    | entry =>
      rcases enter_requested how hv with hkept | hinjects
      · exact .inl hkept
      · exact .inr ⟨_, rfl, hinjects⟩
  | ioctl ctx call =>
    exact .inl (KeepsRequested.of_irr (get_ioctl (p := .requested) (fun h => h) ctx) v hv)
  | store hstores => exact .inl hv
  | fork hfork =>
    have : Part.requested.Other .signal := ⟨by decide⟩
    exact .inl (KeepsRequested.of_irr (get_fork (p := .requested) hfork (by decide)) v hv)

/-- A request stays until it is injected. -/
theorem History.requested {ts : List VmStep} (h : History ctx ts ctx')
    (hv : ctx.requests v) (hnone : ∀ t ∈ ts, ¬t.Injects v) :
    (∀ t ∈ ts, t.post.requests v) ∧ ctx'.requests v := by
  have hstep : ∀ t ∈ ts, t.pre.requests v → t.post.requests v := by
    intro t ht hpre
    rcases (h.valid t ht).requested hpre with hkept | hinjects
    · exact hkept
    · exact absurd hinjects (hnone t ht)
  obtain ⟨hall, hend⟩ := h.walk.invariant (I := fun c => c.requests v) hstep hv
  exact ⟨fun t ht => (hall t ht).2, hend⟩

def requestingVm : VmContext :=
  { newVm with
    state := { newVm.state with
      lastExitDeterministic := true
      vmcs := { newVm.state.vmcs with
        fields := newVm.state.vmcs.fields.setValue .guestRflags 0x202 }
      guest := { newVm.state.guest with
        devices := { newVm.state.guest.devices with
          apic := { newVm.state.guest.devices.apic with
            svr := 0x1FF
            irr := setVectorBit (setVectorBit
              newVm.state.guest.devices.apic.irr 0x30) 0x31 } } } } }

def unreadableVm : VmContext :=
  { requestingVm with
    state := { requestingVm.state with
      vmcs := { requestingVm.state.vmcs with
        fields := { requestingVm.state.vmcs.fields.setValue .vmEntryInterruptionInfo 0x80000B0E with
          readFault := fun field =>
            if field = .vmEntryInterruptionInfo then some .invalidField else none } } } }

end Bedrock
