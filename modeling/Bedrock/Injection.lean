import Bedrock.Frame

/-!
# What an entry does before the guest runs

`inject_pending_interrupt` as an outcome: which of its ways it took and what the context
is afterwards, in terms of the context it started from.
-/

namespace Bedrock

open Support Program Emission VmcsTable GuestState VmContext

namespace GuestState

def raiseTimer (g : GuestState) (tsc : Nat) : GuestState :=
  if g.devices.apic.timerDue tsc = true then
    { g with devices := { g.devices with apic := g.devices.apic.fireTimer tsc } }
  else g

def raiseRequest (g : GuestState) (tsc : Nat) : GuestState :=
  if g.ioChannelDue tsc = true then
    { g with
      devices := g.devices.ioapicDeliverIrq IO_CHANNEL_IRQ
      ioChannel := { g.ioChannel with requestDelivered := true } }
  else g

def raise (g : GuestState) (tsc : Nat) : GuestState :=
  (g.raiseTimer tsc).raiseRequest tsc

end GuestState

theorem checkApicTimer_spec (ctx : VmContext) :
    ∃ ctx', checkApicTimer ctx = (.ok (), ctx') ∧
      EventsOnly (ctx.setGuest (ctx.state.guest.raiseTimer ctx.state.clock.emulatedTsc)) ctx' := by
  unfold checkApicTimer getGuest getClock modifyGuest emit
  rw [act_bind, act_bind]
  cases hdue : ctx.state.guest.devices.apic.timerDue ctx.state.clock.emulatedTsc with
  | false =>
    rw [if_pos rfl]
    refine ⟨ctx, rfl, ?_⟩
    rw [raiseTimer, if_neg (by simp [hdue])]
    exact .refl ctx
  | true =>
    rw [if_neg (by simp), act_bind]
    refine ⟨_, rfl, ?_⟩
    rw [raiseTimer, if_pos hdue]
    dsimp only
    exact run_events _ _

theorem checkIoChannel_spec (ctx : VmContext) :
    ∃ ctx', checkIoChannel ctx = (.ok (), ctx') ∧
      EventsOnly (ctx.setGuest (ctx.state.guest.raiseRequest ctx.state.clock.emulatedTsc)) ctx' := by
  unfold checkIoChannel getGuest getClock modifyGuest emit
  rw [act_bind, act_bind]
  cases hdue : ctx.state.guest.ioChannelDue ctx.state.clock.emulatedTsc with
  | false =>
    rw [if_pos rfl]
    refine ⟨ctx, rfl, ?_⟩
    rw [raiseRequest, if_neg (by simp [hdue])]
    exact .refl ctx
  | true =>
    rw [if_neg (by simp), act_bind]
    refine ⟨_, rfl, ?_⟩
    rw [raiseRequest, if_pos hdue]
    dsimp only
    exact run_events _ _

theorem EventsOnly.setGuest {before after : VmContext} (h : EventsOnly before after)
    (g : GuestState) : EventsOnly (before.setGuest g) (after.setGuest g) := by
  obtain ⟨_, _, _, _, hpebs, hmtf, rfl⟩ := h
  exact ⟨_, _, _, _, hpebs, hmtf, rfl⟩

theorem checkDue_spec (ctx : VmContext) :
    ∃ ctx', (do checkApicTimer; checkIoChannel; pure true : Fallible Bool) ctx = (.ok true, ctx') ∧
      EventsOnly (ctx.setGuest (ctx.state.guest.raise ctx.state.clock.emulatedTsc)) ctx' := by
  obtain ⟨ctx₁, htimer, hevents₁⟩ := checkApicTimer_spec ctx
  obtain ⟨ctx₂, hrequest, hevents₂⟩ := checkIoChannel_spec ctx₁
  rw [bind_ok htimer, bind_ok hrequest]
  refine ⟨ctx₂, rfl, ?_⟩
  rw [hevents₁.guest, hevents₁.kept.clock] at hevents₂
  exact (hevents₁.setGuest _).trans hevents₂

/-! ## The ways to an injection -/

def VmcsTable.reinject (fields : VmcsTable VmcsField) : VmcsTable VmcsField :=
  let idtInfo := fields.value .idtVectoringInfo
  let fields' := fields.setValue .vmEntryInterruptionInfo idtInfo
  if bitSet idtInfo 11 = true then
    fields'.setValue .vmEntryExceptionErrorCode (fields.value .idtVectoringErrorCode)
  else fields'

def VmContext.interrupted (ctx : VmContext) : Bool :=
  bitSet (ctx.state.vmcs.fields.readOrZero .idtVectoringInfo) 31

def VmContext.queued (ctx : VmContext) : Bool :=
  bitSet (ctx.state.vmcs.fields.readOrZero .vmEntryInterruptionInfo) 31

/-- New interrupts are considered: nothing else is to be delivered and the last exit was
deterministic. -/
def VmContext.considers (ctx : VmContext) : Bool :=
  !ctx.interrupted && ctx.state.lastExitDeterministic && !ctx.queued

/-- What precedes the choice of an interrupt. -/
inductive Eligibility (ctx : VmContext) : Bool → VmContext → Prop
  | reinjected (h : ctx.interrupted = true) :
      Eligibility ctx false
        (ctx.setVmcs { ctx.state.vmcs with fields := ctx.state.vmcs.fields.reinject })
  | deferred (h : ctx.interrupted = false) (hconsiders : ctx.considers = false) :
      Eligibility ctx false ctx
  | raised {ctx' : VmContext} (h : ctx.considers = true)
      (hevents : EventsOnly
        (ctx.setGuest (ctx.state.guest.raise ctx.state.clock.emulatedTsc)) ctx') :
      Eligibility ctx true ctx'

variable {ctx ctx' : VmContext} {injected : Option UInt32}

theorem reinjectVectoredEvent_ok {reinjected : Bool}
    (h : reinjectVectoredEvent ctx = (.ok reinjected, ctx')) :
    reinjected = ctx.interrupted ∧ ctx' = if ctx.interrupted then
          ctx.setVmcs { ctx.state.vmcs with fields := ctx.state.vmcs.fields.reinject }
        else ctx := by
  unfold reinjectVectoredEvent at h
  rw [bind_eq_ok_iff] at h
  obtain ⟨idtInfo, ctx₁, hread, h⟩ := h
  obtain ⟨hinfo, rfl⟩ := readField_eq_ok_iff.mp hread
  have hinterrupted : ctx₁.interrupted = bitSet idtInfo 31 := by
    rw [interrupted, readOrZero_of_read hinfo]
  have hvalue := value_of_read hinfo
  rw [hinterrupted]
  cases hvalid : bitSet idtInfo 31 with
  | false =>
    rw [if_pos hvalid] at h
    cases h
    exact ⟨rfl, by simp⟩
  | true =>
    rw [if_neg (by simp [hvalid])] at h
    have hrest := checkedWrite_bind h
    rw [if_pos rfl]
    by_cases hcode : bitSet idtInfo 11
    · rw [if_pos hcode, bind_eq_ok_iff] at hrest
      obtain ⟨errorCode, ctx₂, hread', hwrite⟩ := hrest
      obtain ⟨herror, rfl⟩ := readField_eq_ok_iff.mp hread'
      have hdone := checkedWrite_bind hwrite
      cases hdone
      have herror := value_of_read herror
      simp only [setField, setVmcs] at herror
      rw [setValue_value_of_ne _ _ (by decide)] at herror
      refine ⟨rfl, ?_⟩
      simp only [setField, reinject, hvalue, if_pos hcode, herror]
      rfl
    · rw [if_neg hcode] at hrest
      cases hrest
      refine ⟨rfl, ?_⟩
      simp only [setField, reinject, hvalue, if_neg hcode]

theorem raiseDue_spec (ctx : VmContext) :
    (ctx.queued ∧ raiseDue ctx = (.ok false, ctx)) ∨
      ∃ ctx', ctx.queued = false ∧ raiseDue ctx = (.ok true, ctx') ∧
        EventsOnly (ctx.setGuest (ctx.state.guest.raise ctx.state.clock.emulatedTsc)) ctx' := by
  unfold raiseDue
  rw [bind_ok (readFieldOrZero_apply _ _)]
  by_cases hqueued : bitSet (ctx.state.vmcs.fields.readOrZero .vmEntryInterruptionInfo) 31
  · rw [if_pos hqueued]
    exact .inl ⟨hqueued, rfl⟩
  rw [if_neg hqueued]
  obtain ⟨ctx', hdue, hevents⟩ := checkDue_spec ctx
  exact .inr ⟨ctx', by simpa [queued] using hqueued, hdue, hevents⟩

theorem injectEligible_ok {eligible : Bool}
    (h : injectEligible ctx = (.ok eligible, ctx')) : Eligibility ctx eligible ctx' := by
  unfold injectEligible at h
  rw [bind_eq_ok_iff] at h
  obtain ⟨reinjected, ctx₁, hreinject, h⟩ := h
  obtain ⟨rfl, rfl⟩ := reinjectVectoredEvent_ok hreinject
  cases hinterrupted : ctx.interrupted with
  | true =>
    simp only [hinterrupted, if_true] at h
    cases h
    exact .reinjected hinterrupted
  | false =>
    simp only [hinterrupted, Bool.false_eq_true, if_false] at h
    unfold lastExitDeterministic at h
    rw [act_bind] at h
    dsimp only at h
    cases hdet : ctx.state.lastExitDeterministic with
    | false =>
      rw [if_pos hdet] at h
      cases h
      exact .deferred hinterrupted (by simp [considers, hdet])
    | true =>
      rw [if_neg (by simp [hdet])] at h
      rcases raiseDue_spec ctx with ⟨hqueued, hraise⟩ | ⟨ctx₁, hqueued, hraise, hevents⟩
      · rw [hraise] at h
        cases h
        exact .deferred hinterrupted (by simp [considers, hqueued])
      · rw [hraise] at h
        cases h
        exact .raised (by simp [considers, hinterrupted, hdet, hqueued]) hevents

/-! ## The injection -/

def VmContext.interruptible (ctx : VmContext) : Bool :=
  ctx.state.vmcs.fields.readOrZero .guestRflags &&& 0x200 ≠ 0 &&
    ctx.state.vmcs.fields.readOrZero .guestInterruptibilityState &&& 0x3 = 0

/-- How the highest pending vector is dealt with. -/
inductive Delivery (ctx : VmContext) : Option UInt32 → VmContext → Prop
  | nothing (h : ctx.state.guest.devices.apic.pendingVector = none) : Delivery ctx none ctx
  | window {vector : UInt32} {ctx' : VmContext}
      (h : ctx.state.guest.devices.apic.pendingVector = some vector)
      (hblocked : ctx.interruptible = false)
      (hwindow : ctx.setInterruptWindowExiting true = (.ok (), ctx')) : Delivery ctx none ctx'
  | injected {vector : UInt32} {ctx' : VmContext}
      (h : ctx.state.guest.devices.apic.pendingVector = some vector)
      (hopen : ctx.interruptible = true)
      (hwindow : ((ctx.setField .vmEntryInterruptionInfo
          (InterruptionInfo.externalInterrupt vector.toUInt64).encode).setGuest
            { ctx.state.guest with
              devices := { ctx.state.guest.devices with
                apic := ctx.state.guest.devices.apic.acknowledge vector } }
          ).setInterruptWindowExiting false = (.ok (), ctx')) :
      Delivery ctx (some vector) ctx'

theorem checkedWindow_bind {β : Type} {on : Bool} {k : Unit → Fallible β} {b : β}
    (h : ((setInterruptWindowExiting on >>= check id) >>= k) ctx = (.ok b, ctx')) :
    ∃ ctx₁, ctx.setInterruptWindowExiting on = (.ok (), ctx₁) ∧ k () ctx₁ = (.ok b, ctx') := by
  rw [bind_eq_ok_iff] at h
  obtain ⟨_, ctx₁, hset, hrest⟩ := h
  unfold setInterruptWindowExiting at hset
  rw [act_bind] at hset
  obtain ⟨hok, rfl⟩ := check_eq_ok_iff.mp hset
  exact ⟨_, Prod.ext hok rfl, hrest⟩

theorem setInterruptWindowExiting_state (ctx : VmContext) (on : Bool) :
    ∃ controls, (ctx.setInterruptWindowExiting on).2 =
      ctx.setVmcs { ctx.state.vmcs with controls } := by
  unfold VmContext.setInterruptWindowExiting
  split
  · exact ⟨_, rfl⟩
  split
  · exact ⟨_, rfl⟩
  dsimp only
  split
  all_goals
    rename_i heq
    exact ⟨_, (congrArg Prod.snd heq).symm⟩

theorem injectException_none_ok {info : InterruptionInfo} {u : Unit}
    (h : injectException info none ctx = (.ok u, ctx')) :
    ctx' = ctx.setField .vmEntryInterruptionInfo info.encode := by
  unfold injectException writeFieldOr writeVmcs at h
  rw [bind_eq_ok_iff] at h
  obtain ⟨_, ctx₁, hwrite, hdone⟩ := h
  cases hdone
  rw [act_bind] at hwrite
  obtain ⟨hok, rfl⟩ := check_eq_ok_iff.mp hwrite
  simp only [VmContext.writeVmcs, VmContext.setField, write_eq_ok hok]

theorem injectPendingVector_spec (h : injectPendingVector ctx = (.ok injected, ctx')) :
    Delivery ctx injected ctx' ∧
      (injected.isSome → ctx.state.vmcs.fields.readFault .guestRflags = none ∧
        ctx.state.vmcs.fields.readFault .guestInterruptibilityState = none) := by
  unfold injectPendingVector getGuest at h
  rw [act_bind] at h
  dsimp only at h
  cases hpending : ctx.state.guest.devices.apic.pendingVector with
  | none =>
    rw [hpending] at h
    cases h
    exact ⟨.nothing hpending, nofun⟩
  | some vector =>
    rw [hpending] at h
    dsimp only at h
    rw [bind_eq_ok_iff] at h
    obtain ⟨rflags, ctx₁, hread, h⟩ := h
    obtain ⟨hrflags, rfl⟩ := readField_eq_ok_iff.mp hread
    by_cases hif : rflags &&& 0x200 = 0
    · rw [if_pos hif] at h
      obtain ⟨ctx₂, hwindow, hdone⟩ := checkedWindow_bind h
      cases hdone
      refine ⟨.window hpending ?_ hwindow, nofun⟩
      simp [interruptible, readOrZero_of_read hrflags, hif]
    rw [if_neg hif, bind_eq_ok_iff] at h
    obtain ⟨blocking, ctx₂, hread', h⟩ := h
    obtain ⟨hblocking, rfl⟩ := readField_eq_ok_iff.mp hread'
    by_cases hblocked : blocking &&& 0x3 = 0
    · rw [if_neg (not_not.mpr hblocked)] at h
      rw [bind_eq_ok_iff] at h
      obtain ⟨_, ctx₂, hinject, h⟩ := h
      obtain rfl := injectException_none_ok hinject
      unfold modifyGuest at h
      rw [act_bind] at h
      obtain ⟨ctx₃, hwindow, hdone⟩ := checkedWindow_bind h
      cases hdone
      refine ⟨.injected hpending ?_ hwindow, fun _ =>
        ⟨readable_of_read hrflags, readable_of_read hblocking⟩⟩
      simp [interruptible, readOrZero_of_read hrflags, readOrZero_of_read hblocking, hif, hblocked]
    · rw [if_pos hblocked] at h
      obtain ⟨ctx₂, hwindow, hdone⟩ := checkedWindow_bind h
      cases hdone
      refine ⟨.window hpending ?_ hwindow, nofun⟩
      simp [interruptible, readOrZero_of_read hblocking, hblocked]

theorem injectPendingInterrupt_ok (h : injectPendingInterrupt ctx = (.ok injected, ctx')) :
    ∃ eligible ctx₁, Eligibility ctx eligible ctx₁ ∧
      (eligible = false ∧ injected = none ∧ ctx' = ctx₁.armForNextIteration ∨
        eligible ∧ Delivery ctx₁.armForNextIteration injected ctx') := by
  unfold injectPendingInterrupt at h
  rw [bind_eq_ok_iff] at h
  obtain ⟨eligible, ctx₁, heligible, h⟩ := h
  unfold armForNextIteration at h
  rw [act_bind] at h
  dsimp only at h
  refine ⟨eligible, ctx₁, injectEligible_ok heligible, ?_⟩
  cases eligible with
  | false =>
    cases h
    exact .inl ⟨rfl, rfl, rfl⟩
  | true => exact .inr ⟨rfl, (injectPendingVector_spec h).1⟩

theorem injectPendingInterrupt_reads (h : injectPendingInterrupt ctx = (.ok injected, ctx')) :
    ∃ v, ctx.state.vmcs.fields.read .idtVectoringInfo = .ok v := by
  unfold injectPendingInterrupt at h
  rw [bind_eq_ok_iff] at h
  obtain ⟨_, _, heligible, -⟩ := h
  unfold injectEligible at heligible
  rw [bind_eq_ok_iff] at heligible
  obtain ⟨_, _, hreinject, -⟩ := heligible
  unfold reinjectVectoredEvent at hreinject
  rw [bind_eq_ok_iff] at hreinject
  obtain ⟨v, _, hread, -⟩ := hreinject
  exact ⟨v, (readField_eq_ok_iff.mp hread).1⟩

end Bedrock
