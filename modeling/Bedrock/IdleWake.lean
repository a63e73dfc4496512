import Bedrock.EntryEvent

/-!
# Waking from idle

`handle_idle` moves the clock to the deadline of the APIC timer, or to the time of a queued
request if that is nearer, so that the next entry can interrupt the guest.  Whether the timer
is able to fire is decided at that entry only.
-/

namespace Bedrock

open Support ApicState

/-- The checks of an entry request the vector themselves: they would even if nothing were
requested before. -/
def VmContext.Raises (ctx : VmContext) (v : Nat) : Prop :=
  (ctx.setGuest { ctx.state.guest with devices := { ctx.state.guest.devices with
    apic := { ctx.state.guest.devices.apic with
      irr := .replicate 8 0 } } }).raised.requests v = true

theorem VmContext.raises_iff (ctx : VmContext) (v : Nat) :
    ctx.Raises v ↔
      ctx.state.guest.devices.apic.timerDue ctx.state.clock.emulatedTsc ∧
        v = (ctx.state.guest.devices.apic.lvtTimer &&& 0xFF).toNat ∨
      ctx.state.guest.ioChannelDue ctx.state.clock.emulatedTsc ∧
        v = (ctx.state.guest.devices.ioapic.entry IO_CHANNEL_IRQ &&& 0xFF).toNat := by
  have hnone : vectorBit (.replicate 8 0) v = false := highestVector_eq_none (by decide +kernel) v
  rw [Raises, raised_requests_iff]
  exact or_iff_right (Bool.eq_false_iff.mp hnone)

theorem injectPendingInterrupt_raises {ctx ctx' : VmContext} {injected : Option UInt32}
    (h : injectPendingInterrupt ctx = (.ok injected, ctx')) (hconsiders : ctx.considers)
    {v : Nat} (hv : ctx.Raises v) : ctx'.requests v ∨ ctx'.serves v := by
  have hraised : ctx.raised.requests v :=
    (ctx.raised_requests_iff v).mpr (.inr ((ctx.raises_iff v).mp hv))
  cases injected with
  | some vector =>
    have hmoved := Moved.of_injected h
    by_cases hvector : v = vector.toNat
    · exact .inr ((hmoved.isr v).mpr (.inr hvector))
    · exact .inl ((hmoved.irr v).mpr ⟨hraised, hvector⟩)
  | none =>
    obtain ⟨hno, -⟩ | ⟨-, armed, harmed, hvector⟩ := injectPendingInterrupt_cases h
    · simp [hno] at hconsiders
    have hguest : ctx'.state.guest = ctx.raised.state.guest := by
      cases (injectPendingVector_spec hvector).1 with
      | nothing _ => exact harmed.guest
      | window _ _ hwindow =>
        have hset := armed.setInterruptWindowExiting_untouched true
        rw [hwindow] at hset
        exact hset.guest.trans harmed.guest
    rw [VmContext.requests, hguest]
    exact .inl hraised

/-- The timer is able to fire, or a request is to be signalled no later than at the
timer's deadline. -/
def GuestState.CanWake (g : GuestState) : Prop :=
  g.devices.apic.enabled = true ∧ g.devices.apic.timerMasked = false ∨
    g.ioChannel.pageGpa ≠ 0 ∧ g.ioChannel.request ≠ [] ∧ g.ioChannel.requestDelivered = false ∧
      IoApicState.routable (g.devices.ioapic.entry IO_CHANNEL_IRQ) = true ∧
      g.ioChannel.requestTargetTsc ≤ g.devices.apic.timerDeadline

theorem VmState.due_at_idleTarget_iff {st : VmState} {t : Nat} (h : st.idleTarget = some t)
    (hstop : st.config.stopAtTsc ≠ some t) :
    st.guest.devices.apic.timerDue t ∨ st.guest.ioChannelDue t ↔ st.guest.CanWake := by
  unfold idleTarget at h
  dsimp only at h
  split at h
  · cases h
  unfold GuestState.CanWake GuestState.ioChannelDue timerDue
  simp only [ne_eq, Bool.and_eq_true, decide_eq_true_eq, Bool.or_eq_true, Bool.not_eq_true']
  cases hnext : st.nextIoChannelTargetTsc
  all_goals
    cases hlimit : st.config.stopAtTsc
    all_goals
      rw [hnext, hlimit] at h
      unfold nextIoChannelTargetTsc at hnext
      grind

/-- A clock that `handle_idle` has moved, but not to the stop threshold, lets the next entry
request an interrupt exactly if the timer is able to fire or a request is due by then. -/
theorem idle_wake_fires_iff {ctx entered after : VmContext} {reason : ExitReason} {qual : UInt64}
    {how : Resume} {injected : Option UInt32} (hinfo : ctx.exitInfo = .ok (reason, qual))
    (hidle : reason = .hlt ∨ reason = .mwait)
    (hadvanced : ctx.state.clock.now < ctx.leave.2.state.clock.emulatedTsc)
    (hstop : ctx.state.config.stopAtTsc ≠ some ctx.leave.2.state.clock.emulatedTsc)
    (hresume : ctx.leave.2.resume how = (.ok (), entered)) (hconsiders : entered.considers = true)
    (hinject : injectPendingInterrupt entered = (.ok injected, after)) :
    (∃ v, entered.Raises v ∧ (after.requests v = true ∨ after.serves v = true)) ↔
      ctx.state.guest.CanWake := by
  have hclock : ctx.leave.2.state.clock = (ctx.beginExit true).advanceToWake.state.clock := by
    rw [ctx.leave_clock, VmContext.handleExit_clock hinfo, nonDeterministicExit_idle _ qual hidle,
      dispatch_idle_clock qual hidle]
    rfl
  have hguest : ctx.leave.2.state.guest = ctx.state.guest := by
    rw [(VmContext.guest_frames.leave_of_dispatch hinfo).1, nonDeterministicExit_idle _ qual hidle,
      dispatch_idle qual hidle, call_state]
    exact (advanceAndReturn_frame _ _).1.trans (ctx.beginExit true).advanceToWake_untouched.guest
  have hresumed := VmContext.guest_frames.resume ctx.leave.2 how
  have hnow := ctx.leave.2.resume_clock how
  rw [hresume] at hresumed hnow
  have hexists : (∃ v, entered.Raises v ∧ (after.requests v = true ∨ after.serves v = true)) ↔
      ctx.state.guest.devices.apic.timerDue ctx.leave.2.state.clock.emulatedTsc = true ∨
        ctx.state.guest.ioChannelDue ctx.leave.2.state.clock.emulatedTsc = true := by
    rw [← hguest, ← hresumed.1, ← hnow]
    constructor
    · rintro ⟨v, hv, -⟩
      exact ((entered.raises_iff v).mp hv).imp And.left And.left
    rintro (hdue | hdue)
    · have hv := (entered.raises_iff _).mpr (.inl ⟨hdue, rfl⟩)
      exact ⟨_, hv, injectPendingInterrupt_raises hinject hconsiders hv⟩
    · have hv := (entered.raises_iff _).mpr (.inr ⟨hdue, rfl⟩)
      exact ⟨_, hv, injectPendingInterrupt_raises hinject hconsiders hv⟩
  rw [hexists]
  rcases (ctx.beginExit true).advanceToWake_cases with hsame | ⟨t, htarget, -, hmoved⟩
  · rw [hclock, hsame] at hadvanced
    exact absurd hadvanced (Nat.lt_irrefl _)
  · rw [hclock, hmoved] at hstop ⊢
    exact VmState.due_at_idleTarget_iff htarget hstop

def haltedVm (svr lvtTimer : UInt32) : VmContext :=
  (timedVm.setGuest { timedVm.state.guest with devices := { timedVm.state.guest.devices with
    apic := { timedVm.state.guest.devices.apic with svr, lvtTimer } } }).exitAfter 7 fun
      | .vmExitReason => 12
      | _ => 0

example : (haltedVm 0x1FF 0x30).state.clock.now = 7 := by
  decide +kernel

theorem idle_wake_fires_timer :
    ∃ entered after, (haltedVm 0x1FF 0x30).leave.2.resume .loop = (.ok (), entered) ∧
      injectPendingInterrupt entered = (.ok none, after) ∧
      ∃ v, entered.Raises v ∧ (after.requests v = true ∨ after.serves v = true) := by
  have hinfo : (haltedVm 0x1FF 0x30).exitInfo = .ok (.hlt, 0) := by decide +kernel
  have hresume : (haltedVm 0x1FF 0x30).leave.2.resume .loop =
      (.ok (), (haltedVm 0x1FF 0x30).leave.2) := rfl
  have hinject : (injectPendingInterrupt (haltedVm 0x1FF 0x30).leave.2).1 = .ok none := by
    decide +kernel
  refine ⟨_, _, hresume, Prod.ext hinject rfl, ?_⟩
  exact (idle_wake_fires_iff hinfo (.inl rfl) (by decide +kernel) (by decide +kernel) hresume
    (by decide +kernel) (Prod.ext hinject rfl)).mpr (.inl (by decide +kernel))

/-- With the APIC switched off the clock moves to the deadline of the timer, and no interrupt
is requested there. -/
theorem masked_timer_moves_clock :
    let left := (haltedVm 0xFF 0x30).leave.2
    (haltedVm 0xFF 0x30).exitInfo = .ok (.hlt, 0) ∧ (haltedVm 0xFF 0x30).state.clock.now = 7 ∧
      left.state.clock.emulatedTsc = 500 ∧ left.state.config.stopAtTsc = none ∧
      left.considers = true ∧ (injectPendingInterrupt left).1 = .ok none ∧
      (injectPendingInterrupt left).2.state.guest.devices.apic.irr = .replicate 8 0 := by
  decide +kernel

end Bedrock
