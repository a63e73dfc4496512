import Bedrock.Accounting

/-!
# What is queued at an entry

`inject_pending_interrupt` chooses at most one event for the entry.  An interrupt it does
not choose has to wait, and interrupt-window exiting is to bring the guest back for it.  An
exception that the handler of the exit has queued should be the event of the entry.
-/

namespace Bedrock

open Support ApicState GuestState VmcsTable VmContext Controls

def VmContext.Due (ctx : VmContext) (v : Nat) : Prop :=
  let g := ctx.state.guest
  ctx.requests v = true ∨
    g.devices.apic.timerDue ctx.state.clock.emulatedTsc = true ∧
      v = (g.devices.apic.lvtTimer &&& 0xFF).toNat ∨
    g.ioChannelDue ctx.state.clock.emulatedTsc = true ∧
      v = (g.devices.ioapic.entry IO_CHANNEL_IRQ &&& 0xFF).toNat

theorem GuestState.raiseTimer_irr (g : GuestState) (tsc v : Nat) :
    vectorBit (g.raiseTimer tsc).devices.apic.irr v ↔
      vectorBit g.devices.apic.irr v ∨
        g.devices.apic.timerDue tsc ∧ v = (g.devices.apic.lvtTimer &&& 0xFF).toNat := by
  unfold raiseTimer
  split
  · rename_i hdue
    simp [fireTimer, vectorBit_setVectorBit (toNat_and_255_lt _), hdue, or_comm]
  · rename_i hdue
    simp [hdue]

theorem GuestState.raiseRequest_irr (g : GuestState) (tsc v : Nat) :
    vectorBit (g.raiseRequest tsc).devices.apic.irr v ↔
      vectorBit g.devices.apic.irr v ∨ g.ioChannelDue tsc ∧
        v = (g.devices.ioapic.entry IO_CHANNEL_IRQ &&& 0xFF).toNat := by
  unfold raiseRequest
  split
  · rename_i hdue
    have hroutable : IoApicState.routable (g.devices.ioapic.entry IO_CHANNEL_IRQ) := by
      unfold ioChannelDue at hdue
      simp only [Bool.and_eq_true] at hdue
      exact hdue.2
    obtain ⟨hvector, hlt⟩ := toNat_and_255_toUInt32 (g.devices.ioapic.entry IO_CHANNEL_IRQ)
    have hpin : ¬IOAPIC_NUM_PINS ≤ IO_CHANNEL_IRQ := by decide
    rw [DeviceStates.ioapicDeliverIrq, if_neg hpin, if_neg (by simp [hroutable])]
    dsimp only
    rw [vectorBit_setVectorBit (hvector ▸ hlt), hvector]
    simp [hdue, or_comm]
  · rename_i hdue
    simp [hdue]

theorem VmContext.raised_requests_iff (ctx : VmContext) (v : Nat) :
    ctx.raised.requests v ↔ ctx.Due v := by
  have hdue : (ctx.state.guest.raiseTimer ctx.state.clock.emulatedTsc).ioChannelDue
      ctx.state.clock.emulatedTsc = ctx.state.guest.ioChannelDue ctx.state.clock.emulatedTsc ∧
      (ctx.state.guest.raiseTimer ctx.state.clock.emulatedTsc).devices.ioapic =
        ctx.state.guest.devices.ioapic := by
    unfold raiseTimer
    split <;> exact ⟨rfl, rfl⟩
  have hrequest := raiseRequest_irr
    (ctx.state.guest.raiseTimer ctx.state.clock.emulatedTsc) ctx.state.clock.emulatedTsc v
  rw [raiseTimer_irr, hdue.1, hdue.2, or_assoc] at hrequest
  exact hrequest

theorem vectorBit_lt {reg : Vector UInt32 8} {v : Nat} (h : vectorBit reg v) : v < 256 := by
  by_contra hge
  rw [vectorBit, getD_of_le reg (by omega)] at h
  simp at h

theorem highestVector_eq_none {reg : Vector UInt32 8} (h : highestVector reg = none) (v : Nat) :
    vectorBit reg v = false := by
  have hzero : reg.getD (v / 32) 0 = 0 := by
    by_cases hv : v / 32 < 8
    · have hword := List.findSome?_eq_none_iff.mp h (v / 32) (by simp; omega)
      dsimp only at hword
      by_contra hne
      rw [if_neg hne] at hword
      cases hword
    · exact getD_of_le reg (Nat.le_of_not_lt hv)
  rw [vectorBit, hzero]
  simp

/-! ## The interrupts that wait -/

/-- A new interrupt is injected at the entry: nothing else is delivered, and the guest can
take one of those that are due. -/
def VmContext.takes (ctx : VmContext) : Bool :=
  ctx.considers && ctx.interruptible && ctx.raised.state.guest.devices.apic.pendingVector.isSome

theorem injected_isSome {ctx ctx' : VmContext} {injected : Option UInt32}
    (h : injectPendingInterrupt ctx = (.ok injected, ctx')) : injected.isSome = ctx.takes := by
  obtain ⟨hno, rfl⟩ | ⟨hconsiders, armed, harmed, hvector⟩ := injectPendingInterrupt_cases h
  · simp [takes, hno]
  have hopen : armed.interruptible = ctx.interruptible := by
    rw [interruptible, harmed.fields]
    rfl
  rw [takes, hconsiders, ← hopen, ← harmed.guest]
  cases (injectPendingVector_spec hvector).1 with
  | nothing hnone => simp [hnone]
  | window _ hblocked _ => simp [hblocked]
  | injected hsome hopen _ => simp [hsome, hopen]

def VmContext.windowExiting (ctx : VmContext) : Bool :=
  ctx.state.vmcs.controls.value .primaryProcBasedVmExecControls &&& intrWindowExiting != 0

theorem window_set (controls : UInt64) :
    (controls ||| intrWindowExiting) &&& intrWindowExiting ≠ 0 := by
  intro h
  have hnat := congrArg UInt64.toNat h
  simp [intrWindowExiting, Nat.and_or_distrib_right] at hnat

theorem window_cleared (controls : UInt64) :
    (controls &&& ~~~intrWindowExiting) &&& intrWindowExiting = 0 := by
  have hnone : ~~~intrWindowExiting &&& intrWindowExiting = 0 := by decide
  rw [UInt64.and_assoc, hnone, UInt64.and_zero]

theorem VmContext.setInterruptWindowExiting_ok {ctx ctx' : VmContext} {on : Bool}
    (h : ctx.setInterruptWindowExiting on = (.ok (), ctx')) : ctx'.windowExiting = on := by
  unfold setInterruptWindowExiting at h
  cases hread : ctx.state.vmcs.controls.read .primaryProcBasedVmExecControls with
  | error e =>
    rw [hread] at h
    cases h
  | ok controls =>
    rw [hread] at h
    dsimp only at h
    have hvalue := value_of_read hread
    split at h
    · rename_i hsame
      cases h
      rw [windowExiting, hvalue]
      exact hsame
    unfold writeControl at h
    rcases hwrite : ctx.state.vmcs.controls.write .primaryProcBasedVmExecControls
      (if on then controls ||| intrWindowExiting
        else controls &&& ~~~intrWindowExiting) with ⟨e | u, table⟩
    · simp [hwrite] at h
    have htable := write_eq_ok (congrArg Prod.fst hwrite)
    rw [hwrite] at htable
    simp only [hwrite, Prod.mk.injEq, true_and] at h
    subst h htable
    rw [windowExiting, setVmcs]
    dsimp only
    rw [setValue_value_self]
    cases on with
    | true => exact bne_iff_ne.mpr (window_set controls)
    | false => exact bne_eq_false_iff_eq.mpr (window_cleared controls)

/-- After the entry an interrupt is still requested, and the window is closed. -/
def VmContext.Strands (entered : VmContext) : Prop :=
  entered.state.guest.devices.apic.enabled = true ∧ (∃ v, entered.requests v = true) ∧
    entered.windowExiting = false

theorem pendingVector_eq_none {apic : ApicState} (h : apic.pendingVector = none)
    (henabled : apic.enabled) (v : Nat) : vectorBit apic.irr v = false := by
  rw [pendingVector, henabled] at h
  exact highestVector_eq_none h v

theorem VmContext.enter_eq_ok {ctx entered : VmContext} {how : Resume} {injected : Option UInt32}
    (h : ctx.enter how = (.ok injected, entered)) :
    injectPendingInterrupt (ctx.resume how).2 = (.ok injected, entered) := by
  unfold enter at h
  split at h
  · cases h
  rename_i heq
  rw [heq]
  exact h

/-- At an entry where new interrupts are considered, none is left behind exactly if the guest
takes none of them or only one is due. -/
theorem pending_interrupt_not_stranded_iff {ctx entered : VmContext} {how : Resume}
    {injected : Option UInt32} (h : ctx.enter how = (.ok injected, entered))
    (hconsiders : (ctx.resume how).2.considers = true) :
    ¬entered.Strands ↔
      ((ctx.resume how).2.takes = true →
        ∀ v w, (ctx.resume how).2.Due v → (ctx.resume how).2.Due w → v = w) := by
  have hinject := VmContext.enter_eq_ok h
  generalize (ctx.resume how).2 = resumed at hconsiders hinject ⊢
  have htakes := injected_isSome hinject
  obtain ⟨hno, -⟩ | ⟨-, armed, -, hvector⟩ := injectPendingInterrupt_cases hinject
  · simp [hno] at hconsiders
  cases (injectPendingVector_spec hvector).1 with
  | nothing hnone =>
    rw [← htakes]
    refine iff_of_true ?_ nofun
    rintro ⟨henabled, ⟨v, hv⟩, -⟩
    rw [VmContext.requests, pendingVector_eq_none hnone henabled] at hv
    cases hv
  | window _ _ hwindow =>
    rw [← htakes]
    refine iff_of_true ?_ nofun
    rintro ⟨-, -, hclosed⟩
    rw [VmContext.setInterruptWindowExiting_ok hwindow] at hclosed
    cases hclosed
  | @injected vector _ hpending _ hwindow =>
    -- the window is closed, and what is due and not injected is left
    have hmoved := Moved.of_injected hinject
    have hclosed := VmContext.setInterruptWindowExiting_ok hwindow
    have henabled : entered.state.guest.devices.apic.enabled = true := by
      obtain ⟨controls, hstate⟩ := setInterruptWindowExiting_state _ false
      rw [hwindow] at hstate
      rw [show entered = _ from hstate]
      exact (pendingVector_eq_some hpending).1
    have hleft : ∀ v, entered.requests v = true ↔ resumed.Due v ∧ v ≠ vector.toNat := by
      intro v
      rw [hmoved.irr, VmContext.raised_requests_iff]
    have hvector : resumed.Due vector.toNat :=
      (resumed.raised_requests_iff _).mp hmoved.highest.1
    rw [← htakes]
    constructor
    · intro hnone _ v w hv hw
      have hsame : ∀ u, resumed.Due u → u = vector.toNat := by
        intro u hu
        by_contra hne
        exact hnone ⟨henabled, ⟨u, (hleft u).mpr ⟨hu, hne⟩⟩, hclosed⟩
      rw [hsame v hv, hsame w hw]
    · rintro hone ⟨-, ⟨v, hv⟩, -⟩
      obtain ⟨hdue, hne⟩ := (hleft v).mp hv
      exact hne (hone rfl v _ hdue hvector)

/-- The guest has interrupts disabled: both interrupts wait for the window. -/
theorem pending_interrupt_not_stranded_blocked :
    ∃ entered, (requestingVm.setField .guestRflags 0x2).enter .loop = (.ok none, entered) ∧
      entered.requests 0x31 = true ∧ ¬entered.Strands := by
  have hnone : ((requestingVm.setField .guestRflags 0x2).enter .loop).1 = .ok none := by
    decide +kernel
  have hrequested : ((requestingVm.setField .guestRflags 0x2).enter .loop).2.requests 0x31 = true := by
    decide +kernel
  have hrun : (requestingVm.setField .guestRflags 0x2).enter .loop = (.ok none, _) :=
    Prod.ext hnone rfl
  refine ⟨_, hrun, hrequested, (pending_interrupt_not_stranded_iff hrun (by decide +kernel)).mpr ?_⟩
  intro htakes
  exact absurd htakes (by decide +kernel)

/-- Of two interrupts one is injected, and the window is closed on the other. -/
theorem second_interrupt_stranded :
    (requestingVm.enter .loop).1 = .ok (some 0x31) ∧
      requestingVm.considers = true ∧ (requestingVm.enter .loop).2.Strands := by
  refine ⟨by decide +kernel, by decide +kernel, by decide +kernel, ⟨0x30, by decide +kernel⟩, ?_⟩
  decide +kernel

/-! ## The exception that a handler has queued -/

def IsException (event : UInt64) : Prop :=
  bitSet event 31 = true ∧ (event >>> 8) &&& 7 ≠ 0

/-- Divide errors and the faults of segments and protection. -/
def isContributory (event : UInt64) : Bool :=
  event &&& 0x7FF ∈ [0x300, 0x30A, 0x30B, 0x30C, 0x30D]

def isPageFault (event : UInt64) : Bool :=
  event &&& 0x7FF = 0x30E

/-- The second exception, raised while the first is delivered, is a double fault. -/
def doubleFaults (first second : UInt64) : Bool :=
  isContributory first && isContributory second ||
    isPageFault first && (isContributory second || isPageFault second)

def DOUBLE_FAULT : UInt64 := 0x80000B08

/-- The event of the entry is the exception, or the double fault that it makes together with
the event that was cut short. -/
def DeliversException (vectoring queued event : UInt64) : Prop :=
  event = queued ∨ bitSet vectoring 31 = true ∧ doubleFaults vectoring queued = true ∧
    event = DOUBLE_FAULT

theorem not_doubleFaults {vectoring : UInt64} (h : vectoring = DOUBLE_FAULT) (queued : UInt64) :
    ¬doubleFaults vectoring queued := by
  have hcontributory : isContributory DOUBLE_FAULT = false := by decide
  have hfault : isPageFault DOUBLE_FAULT = false := by decide
  simp [doubleFaults, h, hcontributory, hfault]

example : doubleFaults 0x80000B0E 0x80000B0D = true := by
  decide +kernel

theorem externalInterrupt_not_exception {vector : UInt32} (h : vector.toNat < 256) :
    ¬IsException (InterruptionInfo.externalInterrupt vector.toUInt64).encode := by
  have hall : ∀ n : Fin 256, ((InterruptionInfo.externalInterrupt
      (UInt32.ofNat n).toUInt64).encode >>> 8) &&& 7 = 0 := by decide +kernel
  have hzero := hall ⟨vector.toNat, h⟩
  rw [UInt32.ofNat_toNat] at hzero
  exact fun hexception => hexception.2 hzero

def VmContext.vectoringEvent (ctx : VmContext) : UInt64 :=
  ctx.state.vmcs.fields.value .idtVectoringInfo

def SameEvents (before after : VmContext) : Prop :=
  after.entryEvent = before.entryEvent ∧ after.vectoringEvent = before.vectoringEvent

theorem SameEvents.of_fields {before after : VmContext}
    (h : after.state.vmcs.fields = before.state.vmcs.fields) : SameEvents before after := by
  simp [SameEvents, entryEvent, vectoringEvent, h]

theorem SameEvents.frames : Frames SameEvents where
  refl _ := ⟨rfl, rfl⟩
  trans hab hbc := ⟨hbc.1.trans hab.1, hbc.2.trans hab.2⟩
  events h := .of_fields h.untouched.fields
  interceptPf _ := .of_fields rfl
  trapFlag ctx := .of_fields ctx.updateMtfState_untouched.fields
  begin _ _ := .of_fields rfl

theorem VmContext.ioctl_sameEvents (ctx : VmContext) (call : Ioctl) :
    SameEvents ctx (ctx.ioctl call).2 := by
  by_cases hset : ∃ regs host, call = .setRegs regs host
  · obtain ⟨regs, host, rfl⟩ := hset
    have hentry : VmcsField.vmEntryInterruptionInfo ∉
        (registerWrites ctx.machine regs ++ resetWrites).map Prod.fst := by
      simp [registerWrites, resetWrites, Segment.inWriteOrder, VmcsField.guestBase]
    have hvectoring : VmcsField.idtVectoringInfo ∉
        (registerWrites ctx.machine regs ++ resetWrites).map Prod.fst := by
      simp [registerWrites, resetWrites, Segment.inWriteOrder, VmcsField.guestBase]
    have hregisters : SameEvents ctx (ctx.setRegisters regs).2 :=
      ⟨ctx.state.vmcs.fields.writeAll_value_of_notMem hentry,
        ctx.state.vmcs.fields.writeAll_value_of_notMem hvectoring⟩
    show SameEvents ctx (ctx.handleSetRegs regs host).2
    unfold handleSetRegs
    split
    · exact .of_fields rfl
    split
    · exact .of_fields rfl
    split
    all_goals
      rename_i heq
      rwa [heq] at hregisters
  · have heffect := ctx.ioctl_effect call
    generalize (ctx.ioctl call).2 = after at heffect ⊢
    cases heffect with
    | registers regs host _ _ => exact absurd ⟨regs, host, rfl⟩ hset
    | _ => exact .of_fields rfl

/-- Other ioctls of userspace between two RUNs. -/
def OtherCalls (before : VmContext) (ts : List VmStep) (after : VmContext) : Prop :=
  History before ts after ∧ ∀ t ∈ ts, ∃ call, t.label = .ioctl call

theorem OtherCalls.sameEvents {before after : VmContext} {ts : List VmStep}
    (h : OtherCalls before ts after) : SameEvents before after := by
  refine (h.1.walk.invariant (I := fun c => SameEvents before c) (fun t ht hpre => ?_) ⟨rfl, rfl⟩).2
  obtain ⟨call, hlabel⟩ := h.2 t ht
  have hstep : SameEvents t.pre t.post := by
    cases h.1.valid t ht with
    | ioctl ctx call => exact ctx.ioctl_sameEvents call
    | _ => cases hlabel
  exact SameEvents.frames.trans hpre hstep

/-- An exception that the handler of an exit has queued is the event of the following entry
exactly if the exit did not cut another event short, and no interrupt takes its place. -/
theorem queued_exception_delivered_iff {exited ctx entered : VmContext} {ts : List VmStep}
    {how : Resume} {injected : Option UInt32} (hexception : IsException exited.leave.2.entryEvent)
    (hcalls : OtherCalls exited.leave.2 ts ctx) (h : ctx.enter how = (.ok injected, entered)) :
    DeliversException exited.leave.2.vectoringEvent exited.leave.2.entryEvent entered.entryEvent ↔
      (bitSet exited.leave.2.vectoringEvent 31 = true →
        exited.leave.2.vectoringEvent = exited.leave.2.entryEvent) ∧
      (ctx.resume how).2.takes = false := by
  have hinject := VmContext.enter_eq_ok h
  obtain ⟨hentry, hvectoring⟩ := hcalls.sameEvents
  have hresumed := SameEvents.frames.resume ctx how
  rw [← hentry, ← hvectoring, ← hresumed.1, ← hresumed.2]
  rw [← hentry, ← hresumed.1] at hexception
  generalize (ctx.resume how).2 = resumed at hexception hinject ⊢
  rw [← injected_isSome hinject]
  have hevent := (InjectionAccounted.of_ok hinject).event
  cases injected with
  | some vector =>
    have hvalid : bitSet resumed.vectoringEvent 31 = false :=
      (VmContext.Admits.of_injected hinject).vectoring
    have hlt := vectorBit_lt (Moved.of_injected hinject).highest.1
    refine iff_of_false ?_ fun hcon => Bool.noConfusion hcon.2
    rintro (hsame | ⟨hcut, -⟩)
    · rw [← hsame, hevent] at hexception
      exact externalInterrupt_not_exception hlt hexception
    · rw [hvalid] at hcut
      cases hcut
  | none =>
    have hnone : (none : Option UInt32).isSome = false := rfl
    have hevent : entered.entryEvent = if bitSet resumed.vectoringEvent 31 = true then
        resumed.vectoringEvent else resumed.entryEvent := hevent
    rw [and_iff_left hnone, hevent]
    by_cases hcut : bitSet resumed.vectoringEvent 31 = true
    · rw [if_pos hcut, forall_prop_of_true hcut]
      refine ⟨fun hdelivers => ?_, .inl⟩
      rcases hdelivers with hsame | ⟨-, hdouble, hfault⟩
      · exact hsame
      · exact absurd hdouble (not_doubleFaults hfault _)
    · rw [if_neg hcut]
      exact iff_of_true (.inl rfl) fun hcon => absurd hcon hcut

/-- An intercepted page fault of the guest during the delivery of `vectoring`, if that is
valid. -/
def faultingVm (vectoring : UInt64) : VmContext :=
  (((requestingVm.setConfig { requestingVm.state.config with interceptPf := true }).setField
    .vmExitReason 0).setField .vmExitInterruptionInfo 0x80000B0E).setField .idtVectoringInfo
      vectoring

theorem queued_exception_delivered_fault :
    ∃ entered, (faultingVm 0).leave.2.enter .loop = (.ok none, entered) ∧
      entered.entryEvent = 0x80000B0E := by
  have hrun : ((faultingVm 0).leave.2.enter .loop).1 = .ok none := by decide +kernel
  have hqueued : (faultingVm 0).leave.2.entryEvent = 0x80000B0E := by decide +kernel
  have hexception : IsException (faultingVm 0).leave.2.entryEvent := by
    rw [hqueued]
    exact ⟨by decide, by decide⟩
  have hvalid : ¬bitSet (faultingVm 0).leave.2.vectoringEvent 31 = true := by decide +kernel
  have hcalls : OtherCalls (faultingVm 0).leave.2 [] (faultingVm 0).leave.2 :=
    ⟨⟨rfl, List.forall_mem_nil _⟩, List.forall_mem_nil _⟩
  have hdelivers := (queued_exception_delivered_iff hexception hcalls (Prod.ext hrun rfl)).mpr
    ⟨fun hcut => absurd hcut hvalid, by decide +kernel⟩
  rcases hdelivers with hsame | ⟨hcut, -⟩
  · exact ⟨_, Prod.ext hrun rfl, hsame.trans hqueued⟩
  · exact absurd hcut hvalid

/-- The page fault is raised during the delivery of an interrupt.  The interrupt is delivered
again, and the page fault is gone. -/
theorem page_fault_replaced_by_interrupt :
    (faultingVm 0x80000030).leave.2.entryEvent = 0x80000B0E ∧
      ((faultingVm 0x80000030).leave.2.enter .loop).1 = .ok none ∧
      ((faultingVm 0x80000030).leave.2.enter .loop).2.entryEvent = 0x80000030 := by
  decide +kernel

end Bedrock
