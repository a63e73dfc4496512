import Bedrock.Exits.Port
import Bedrock.Exits.Vmcall

/-!
# Dispatching a VM exit

An exit is classified as deterministic or not, handled, and then followed by the
host-side bookkeeping: the trap flag, the stop threshold and the exit record.
-/

namespace Bedrock

open Support

variable (p : Part) {G : ActionClass} [Covers G GuestAction]

/-- `is_pebs_induced` -/
def isPebsInduced (qual : EptViolationQualification) : Bool :=
  qual.asynchronous && qual.write

/-- `handle_pebs_precise_exit` -/
def handlePebsPreciseExit : Handler ExitHandlerResult :=
  .act fun ctx => (.continue_, ctx.handlePebsPreciseExit)

/-- The copy-on-write branch: any failure is reported as an exhausted pool. -/
def handleCowViolation (gpa : Nat) : Handler ExitHandlerResult := do
  let r ← handleCowFault gpa
  pure (r.getD (.exitToUserspace .poolExhausted))

/-- `handle_ept_violation` -/
def handleEptViolation (qual : EptViolationQualification) : Handler ExitHandlerResult :=
  if isPebsInduced qual = true then handlePebsPreciseExit
  else do
    let gpa := (← readFieldOrZero .guestPhysicalAddr).toNat
    if isApicGpa gpa = true then handleApicAccess gpa qual
    else if isIoApicGpa gpa = true then handleIoapicAccess gpa qual
    else if qual.write = true ∧ qual.writable = false then handleCowViolation gpa
    else pure (.exitToUserspace .eptViolation)

/-! ## Idling -/

/-- The emulated time an idle guest wakes at: its timer, brought forward by the I/O
channel and by the stop threshold. -/
def VmState.idleTarget (st : VmState) : Option Nat :=
  let deadline := st.guest.devices.apic.timerDeadline
  if deadline = 0 then none
  else
    let wake := match st.nextIoChannelTargetTsc with
      | some t => min deadline t
      | none => deadline
    match st.config.stopAtTsc with
    | some t => some (min wake t)
    | none => some wake

def VmContext.advanceToWake (ctx : VmContext) : VmContext :=
  let clock := ctx.state.clock
  match ctx.state.idleTarget with
  | none => ctx
  | some target =>
    if clock.emulatedTsc < target then
      ctx.setClock { clock with
        tscOffset := clock.tscOffset + (target - clock.emulatedTsc)
        emulatedTsc := target }
    else ctx

variable (ctx : VmContext)

theorem VmContext.advanceToWake_setClock :
    ∃ clock, ctx.advanceToWake = ctx.setClock clock := by
  unfold advanceToWake
  dsimp only
  split
  · exact ⟨ctx.state.clock, rfl⟩
  split
  · exact ⟨_, rfl⟩
  · exact ⟨ctx.state.clock, rfl⟩

theorem VmContext.advanceToWake_untouched :
    GuestUntouched ctx ctx.advanceToWake := by
  obtain ⟨clock, hwake⟩ := ctx.advanceToWake_setClock
  rw [hwake]
  exact ⟨rfl, rfl⟩

/-- `handle_idle` -/
def handleIdle : Handler ExitHandlerResult := do
  Program.act fun ctx => ((), ctx.advanceToWake)
  advanceAndReturn .continue_

/-! ## The dispatcher -/

/-- Call a handler; what it returns early is its result as well. -/
def call (handler : Handler ExitHandlerResult) : Handler ExitHandlerResult :=
  handler.handle pure pure

def resetPreemptionTimer : Handler Unit := do
  let r ← Program.act fun ctx => ctx.writeControl .vmxPreemptionTimerValue 0x100000
  check (fun _ => .error (.fatal "Failed to reset preemption timer")) r

/-- The `match` of `handle_exit`; returning early leaves `handle_exit`. -/
def dispatch (reason : ExitReason) (qual : UInt64) : Handler ExitHandlerResult :=
  match reason with
  | .cpuid => call handleCpuid
  | .msrRead => call handleMsrRead
  | .msrWrite => call handleMsrWrite
  | .crAccess => call (handleCrAccess (.ofRaw qual))
  | .ioInstruction => call (handleIo (.ofRaw qual))
  | .eptViolation => call (handleEptViolation (.ofRaw qual))
  | .exceptionNmi => call handleExceptionNmi
  | .xsetbv => call handleXsetbv
  | .rdtsc => call handleRdtsc
  | .rdtscp => call handleRdtscp
  | .rdpmc => call handleRdpmc
  | .rdrand => call handleRdrand
  | .rdseed => call handleRdseed
  | .monitorTrapFlag => pure .continue_
  | .hlt | .mwait => call handleIdle
  | .monitor => advanceAndReturn .continue_
  | .tripleFault => pure (.error .tripleFault)
  | .invalidGuestState => pure (.error .invalidGuestState)
  | .vmcall => call handleVmcall
  | .vmxPreemptionTimer => do
    resetPreemptionTimer
    pure (.exitToUserspace reason)
  -- the host services its interrupt while interrupts are briefly enabled
  | .externalInterrupt => pure .continue_
  | .interruptWindow => do
    orError disableInterruptWindowExiting
    pure .continue_
  -- nested VMX, other external events and everything unhandled
  | _ => pure (.exitToUserspace reason)

/-! ## Classification -/

def VmState.onBoundary (st : VmState) : Bool :=
  let count := some st.clock.lastInstructionCount
  st.nextTimerExitCount == count || st.nextIoChannelExitCount == count ||
    st.stopAtCount == count

/-- `non_deterministic_exit` -/
def VmState.nonDeterministicExit (st : VmState) (reason : ExitReason) (qual : UInt64) : Bool :=
  match reason with
  | .externalInterrupt | .vmxPreemptionTimer | .exceptionNmi => true
  | .eptViolation =>
    if isPebsInduced (.ofRaw qual) then true
    else
      let gpa := (st.vmcs.fields.readOrZero .guestPhysicalAddr).toNat
      !(isApicGpa gpa || isIoApicGpa gpa)
  | .monitorTrapFlag => !(st.onBoundary || st.inSingleStep)
  | _ => false

namespace VmContext

/-- `read_exit_reason` and `read_exit_qualification` -/
def exitInfo (ctx : VmContext) : Except ExitError (ExitReason × UInt64) :=
  match ctx.state.vmcs.fields.read .vmExitReason with
  | .error e => .error (.vmcsReadError e)
  | .ok raw =>
    match ExitReason.tryFrom raw with
    | .error basic => .error (.unknownExitReason (UInt32.ofNat basic))
    | .ok reason =>
      match ctx.state.vmcs.fields.read .exitQualification with
      | .error e => .error (.vmcsReadError e)
      | .ok qual => .ok (reason, qual)

/-- Record the classification; a deterministic exit brings emulated time up to date. -/
def beginExit (ctx : VmContext) (deterministic : Bool) : VmContext :=
  let clock := ctx.state.clock
  { ctx with
    state := { ctx.state with
      lastExitDeterministic := deterministic
      clock := if deterministic then { clock with emulatedTsc := clock.now } else clock } }

def stopReached (ctx : VmContext) : Bool :=
  match ctx.state.config.stopAtTsc with
  | none => false
  | some t => t ≤ ctx.state.clock.emulatedTsc

/-- What `handle_exit` does once the exit is handled with `result`. -/
def finishExit (ctx : VmContext) (reason : ExitReason) (qual : UInt64) (deterministic : Bool)
    (result : ExitHandlerResult) : ExitHandlerResult × VmContext :=
  match ctx.updateMtfState with
  | (.error e, ctx) => (.error e, ctx)
  | (.ok (), ctx) =>
    if deterministic && ctx.stopReached then
      (.exitToUserspace .stopTscReached, ctx.captureExitAtShutdown)
    else
      let ctx := ctx.captureExit reason qual deterministic
      if ctx.state.events.pending.isSome && result = .continue_ then
        (.exitToUserspace .eventBufferFull, ctx)
      else (result, ctx)

/-- `handle_exit` -/
def handleExit (ctx : VmContext) : ExitHandlerResult × VmContext :=
  match ctx.exitInfo with
  | .error e => (.error e, ctx)
  | .ok (reason, qual) =>
    let deterministic := !ctx.state.nonDeterministicExit reason qual
    match dispatch reason qual (ctx.beginExit deterministic) with
    | (.error r, ctx) => (r, ctx)
    | (.ok result, ctx) => ctx.finishExit reason qual deterministic result

end VmContext

/-! ## What handlers are built from -/

/-- Accesses of all handlers except `handle_idle` and `handle_vmcall`. -/
inductive DispatchAction : ActionClass
  | handler {α : Type} {f : VmContext → α × VmContext} (h : HandlerAction α f) :
      DispatchAction α f
  | pebsExit : DispatchAction _ fun ctx => (ExitHandlerResult.continue_, ctx.handlePebsPreciseExit)
  | preemptionTimer :
      DispatchAction _ fun ctx => ctx.writeControl .vmxPreemptionTimerValue 0x100000

/-- Accesses of all handlers except `handle_idle`. -/
inductive ExitAction : ActionClass
  | dispatch {α : Type} {f : VmContext → α × VmContext} (h : DispatchAction α f) : ExitAction α f
  | capture (p : CapturePoint) : ExitAction _ fun ctx => ((), p.run ctx)
  | consume : ExitAction _ fun ctx => ((), ctx.consumeIoRequest)

instance (priority := low) [h : Covers G DispatchAction] : Covers G HandlerAction :=
  ⟨fun hf => h.mem (.handler hf)⟩

instance : Covers ExitAction DispatchAction :=
  ⟨fun h _ => .dispatch h⟩

instance (kind : EventKind) : Emits DispatchAction kind :=
  ⟨fun e _ => .handler (.guest (.emit e))⟩

instance (kind : EventKind) : Emits ExitAction kind :=
  ⟨fun e _ => .dispatch (.handler (.guest (.emit e)))⟩

instance : Captures ExitAction :=
  ⟨.capture⟩

instance : Consumes ExitAction :=
  ⟨.consume⟩

section Inclusions

variable {ε α : Type} {m : Program ε VmContext α}

instance (priority := low) [h : Built (Framed .nothing DispatchAction) m] :
    Built DispatchAction m :=
  h.mono fun _ hf => hf.1

instance (priority := low) [h : Built (Framed .nothing ExitAction) m] : Built ExitAction m :=
  h.mono fun _ hf => hf.1

end Inclusions

theorem VmContext.handlePebsPreciseExit_stream :
    ctx.handlePebsPreciseExit.state.events = ctx.state.events := by
  unfold handlePebsPreciseExit
  dsimp only
  split
  · rfl
  · rfl

instance [hG : Covers G DispatchAction] : Built (Framed p G) handlePebsPreciseExit :=
  .act ⟨hG.mem .pebsExit fun ctx => ctx.handlePebsPreciseExit_stream,
    fun ctx => p.get_of_untouched ctx.handlePebsPreciseExit_untouched⟩

instance [Covers G HandlerAction] (gpa : Nat) : Built (Framed p G) (handleCowViolation gpa) := by
  unfold handleCowViolation
  infer_instance

instance [p.Other .stackPointer] [Covers G DispatchAction] (qual : EptViolationQualification) :
    Built (Framed p G) (handleEptViolation qual) := by
  unfold handleEptViolation
  infer_instance

instance {A : ActionClass}
    {handler : Handler ExitHandlerResult} [Built A handler] : Built A (call handler) := by
  unfold call
  infer_instance

instance [hG : Covers G DispatchAction] : Built (Framed p G) resetPreemptionTimer := by
  unfold resetPreemptionTimer
  exact .bind (.act ⟨hG.mem .preemptionTimer fun _ => rfl,
    fun _ => p.get_of_untouched ⟨rfl, rfl⟩⟩) fun _ => inferInstance

theorem dispatch_built {reason : ExitReason} (qual : UInt64) (hhlt : reason ≠ .hlt)
    (hmwait : reason ≠ .mwait) : Built ExitAction (dispatch reason qual) := by
  unfold dispatch
  split
  all_goals first | contradiction | infer_instance

theorem dispatch_built_quiet {reason : ExitReason} (qual : UInt64) (hhlt : reason ≠ .hlt)
    (hmwait : reason ≠ .mwait) (hvmcall : reason ≠ .vmcall) :
    Built DispatchAction (dispatch reason qual) := by
  unfold dispatch
  split
  all_goals first | contradiction | infer_instance

/-- The exits whose handlers touch a part. -/
def Part.touchedBy : Part → ExitReason → Prop
  | nothing, _ => False
  | stackPointer, reason =>
    reason = .crAccess ∨ reason = .eptViolation ∨ reason = .rdrand ∨ reason = .rdseed
  | xcr0, reason => reason = .xsetbv
  | random, reason => reason = .rdrand ∨ reason = .rdseed ∨ reason = .vmcall
  | response, reason => reason = .vmcall
  | signal, reason => reason = .vmcall
  | requested, reason => reason = .ioInstruction

theorem dispatch_framed {p : Part} {reason : ExitReason} (qual : UInt64) (hhlt : reason ≠ .hlt)
    (hmwait : reason ≠ .mwait) (h : ¬p.touchedBy reason) :
    Built (Framed p ExitAction) (dispatch reason qual) := by
  have hother : ∀ q, q.touchedBy reason → p.Other q := fun q hq => ⟨fun hp => h (hp ▸ hq)⟩
  unfold dispatch
  split
  all_goals first | contradiction | infer_instance | skip
  · have := hother .stackPointer (.inl rfl)
    infer_instance
  · have := hother .requested rfl
    infer_instance
  · have := hother .stackPointer (.inr (.inl rfl))
    infer_instance
  · have := hother .xcr0 rfl
    infer_instance
  · have := hother .stackPointer (.inr (.inr (.inl rfl)))
    have := hother .random (.inl rfl)
    infer_instance
  · have := hother .stackPointer (.inr (.inr (.inr rfl)))
    have := hother .random (.inr (.inl rfl))
    infer_instance
  · have := hother .random (.inr (.inr rfl))
    have := hother .response rfl
    have := hother .signal rfl
    infer_instance

end Bedrock
