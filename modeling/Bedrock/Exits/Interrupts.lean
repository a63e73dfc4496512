import Bedrock.Exits.Basic

/-!
# Injecting interrupts before a VM entry

An event whose delivery was cut short by the exit is re-injected first.  New
interrupts are considered only after a deterministic exit.  The precise-exit
counter is re-armed in every case.
-/

namespace Bedrock

open Support

variable (p : Part) {G : ActionClass} [Covers G GuestAction]

def ApicState.fireTimer (apic : ApicState) (currentTsc : Nat) : ApicState :=
  { apic with
    irr := setVectorBit apic.irr (apic.lvtTimer &&& 0xFF)
    timerDeadline := if apic.timerPeriodic then (currentTsc + apic.timerTicks) % 2 ^ 64 else 0 }

def ApicState.timerDue (apic : ApicState) (currentTsc : Nat) : Bool :=
  apic.timerDeadline ≠ 0 && apic.timerDeadline ≤ currentTsc && apic.enabled && !apic.timerMasked

/-- `check_apic_timer` -/
def checkApicTimer : Fallible Unit := do
  let apic := (← getGuest).devices.apic
  let clock ← getClock
  if apic.timerDue clock.emulatedTsc = false then pure ()
  else do
    modifyGuest fun g => { g with
      devices := { g.devices with apic := g.devices.apic.fireTimer clock.emulatedTsc } }
    emit (.append .inject (injectPayload (apic.lvtTimer &&& 0xFF).toUInt8 apic.timerDeadline))

/-- A queued request whose time has come and whose interrupt the guest has wired up. -/
def GuestState.ioChannelDue (g : GuestState) (currentTsc : Nat) : Bool :=
  g.ioChannel.pageGpa ≠ 0 && g.ioChannel.request ≠ [] && !g.ioChannel.requestDelivered &&
    (g.ioChannel.requestTargetTsc = 0 || g.ioChannel.requestTargetTsc ≤ currentTsc) &&
    IoApicState.routable (g.devices.ioapic.entry IO_CHANNEL_IRQ)

/-- `check_io_channel` -/
def checkIoChannel : Fallible Unit := do
  let g ← getGuest
  let clock ← getClock
  if g.ioChannelDue clock.emulatedTsc = false then pure ()
  else do
    modifyGuest fun g => { g with
      devices := g.devices.ioapicDeliverIrq IO_CHANNEL_IRQ
      ioChannel := { g.ioChannel with requestDelivered := true } }
    emit (.ioChannel .request g.ioChannel.requestTargetTsc)

/-- `apic_pending_vector` -/
def ApicState.pendingVector (apic : ApicState) : Option UInt32 :=
  if !apic.enabled then none else highestVector apic.irr

def ApicState.acknowledge (apic : ApicState) (vector : UInt32) : ApicState :=
  { apic with
    irr := clearVectorBit apic.irr vector
    isr := setVectorBit apic.isr vector }

/-- `reinject_vectored_event`: `true` if an interrupted event is delivered again. -/
def reinjectVectoredEvent : Fallible Bool := do
  let idtInfo ← readField .idtVectoringInfo
  if bitSet idtInfo 31 = false then pure false
  else do
    check .vmcsWriteError (← writeVmcs .vmEntryInterruptionInfo idtInfo)
    if bitSet idtInfo 11 = true then do
      let errorCode ← readField .idtVectoringErrorCode
      check .vmcsWriteError (← writeVmcs .vmEntryExceptionErrorCode errorCode)
      pure true
    else pure true

/-- Accesses made on the way into the guest. -/
inductive EntryAction : ActionClass
  | guest {α : Type} {f : VmContext → α × VmContext} (h : GuestAction α f) : EntryAction α f
  | lastExitDeterministic : EntryAction _ fun ctx => (ctx.state.lastExitDeterministic, ctx)
  | arm : EntryAction _ fun ctx => ((), ctx.armForNextIteration)

def lastExitDeterministic : Fallible Bool :=
  .act fun ctx => (ctx.state.lastExitDeterministic, ctx)

def armForNextIteration : Fallible Unit :=
  .act fun ctx => ((), ctx.armForNextIteration)

def raiseDue : Fallible Bool := do
  let pending ← readFieldOrZero .vmEntryInterruptionInfo
  if bitSet pending 31 = true then pure false
  else do
    checkApicTimer
    checkIoChannel
    pure true

def injectEligible : Fallible Bool := do
  let reinjected ← reinjectVectoredEvent
  if reinjected = true then pure false
  else if (← lastExitDeterministic) = false then pure false
  else raiseDue

/-- Inject the highest pending vector if the guest can take it, or ask for an exit
when it can; the vector injected is returned. -/
def injectPendingVector : Fallible (Option UInt32) := do
  match (← getGuest).devices.apic.pendingVector with
  | none => pure none
  | some vector => do
    let rflags ← readField .guestRflags
    if rflags &&& 0x200 = 0 then do
      enableInterruptWindowExiting
      pure none
    else do
      let interruptibility ← readField .guestInterruptibilityState
      if interruptibility &&& 0x3 ≠ 0 then do
        enableInterruptWindowExiting
        pure none
      else do
        injectException (.externalInterrupt vector.toUInt64) none
        modifyGuest fun g => { g with
          devices := { g.devices with apic := g.devices.apic.acknowledge vector } }
        disableInterruptWindowExiting
        pure (some vector)

/-- `inject_pending_interrupt`; the vector it injects is returned for the record. -/
def injectPendingInterrupt : Fallible (Option UInt32) := do
  let eligible ← injectEligible
  armForNextIteration
  if eligible = false then pure none else injectPendingVector

instance [p.Other .requested] [Emits G .inject] : Built (Framed p G) checkApicTimer := by
  unfold checkApicTimer
  infer_instance

instance [p.Other .signal] [p.Other .requested] [Emits G .ioChannel] :
    Built (Framed p G) checkIoChannel := by
  unfold checkIoChannel
  infer_instance

instance : Built (Framed p G) reinjectVectoredEvent := by
  unfold reinjectVectoredEvent
  infer_instance

instance [p.Other .signal] [p.Other .requested] [Emits G .inject] [Emits G .ioChannel] :
    Built (Framed p G) raiseDue := by
  unfold raiseDue
  infer_instance

instance [p.Other .requested] : Built (Framed p G) injectPendingVector := by
  unfold injectPendingVector
  refine .bind inferInstance fun g => ?_
  cases g.devices.apic.pendingVector with
  | none => infer_instance
  | some vector => exact .bind inferInstance fun rflags => inferInstance

instance (priority := low) [h : Covers G EntryAction] : Covers G GuestAction :=
  ⟨fun hf => h.mem (.guest hf)⟩

instance (kind : EventKind) : Emits EntryAction kind :=
  ⟨fun e _ => .guest (.emit e)⟩

instance (priority := low) {ε α : Type} {m : Program ε VmContext α}
    [h : Built (Framed .nothing EntryAction) m] : Built EntryAction m :=
  h.mono fun _ hf => hf.1

theorem VmContext.armForNextIteration_events (ctx : VmContext) :
    ctx.armForNextIteration.state.events = ctx.state.events := by
  unfold armForNextIteration
  split
  · rfl
  · rfl

section Entry

variable [hG : Covers G EntryAction]

instance : Built (Framed p G) lastExitDeterministic :=
  .act ⟨hG.mem .lastExitDeterministic fun _ => rfl, fun _ => rfl⟩

instance : Built (Framed p G) armForNextIteration :=
  .act ⟨hG.mem .arm fun ctx => ctx.armForNextIteration_events,
    fun ctx => p.get_of_untouched ctx.armForNextIteration_untouched⟩

instance [p.Other .signal] [p.Other .requested] [Emits G .inject] [Emits G .ioChannel] :
    Built (Framed p G) injectEligible := by
  unfold injectEligible
  infer_instance

instance [p.Other .signal] [p.Other .requested] [Emits G .inject] [Emits G .ioChannel] :
    Built (Framed p G) injectPendingInterrupt := by
  unfold injectPendingInterrupt
  infer_instance

end Entry

end Bedrock
