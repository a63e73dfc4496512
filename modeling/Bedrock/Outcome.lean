import Bedrock.Clock

/-!
# What `handle_exit` returns

The handler of an exit returns a result; the trap flag and the stop threshold are looked
at afterwards and can replace it.
-/

namespace Bedrock

open Support

namespace VmContext

def timeHandled (ctx : VmContext) (reason : ExitReason) (deterministic : Bool) : Nat :=
  let begun := ctx.beginExit deterministic
  if reason = .hlt ∨ reason = .mwait then begun.advanceToWake.state.clock.emulatedTsc
  else begun.state.clock.emulatedTsc

/-- The error with which `update_mtf_state` fails, if the flag has to change. -/
def trapFlagError (ctx : VmContext) : Option ExitError :=
  let controls := ctx.state.vmcs.controls
  if ctx.state.wantsMtf ctx.machine.getMtfMargin = ctx.state.precise.mtfEnabled then none
  else if (controls.readFault .primaryProcBasedVmExecControls).isSome = true then
    some (.fatal "Failed to read primary controls for MTF")
  else if (controls.writeFault .primaryProcBasedVmExecControls).isSome = true then
    some (.fatal "Failed to write primary controls for MTF")
  else none

variable (ctx : VmContext)

theorem updateMtfState_fst :
    ctx.updateMtfState.1 = match ctx.trapFlagError with
      | some e => .error e
      | none => .ok () := by
  unfold updateMtfState trapFlagError VmcsTable.read VmcsTable.write
  dsimp only
  split
  · rfl
  cases ctx.state.vmcs.controls.readFault .primaryProcBasedVmExecControls with
  | some e => rfl
  | none =>
    cases ctx.state.vmcs.controls.writeFault .primaryProcBasedVmExecControls with
    | some e => rfl
    | none => rfl

theorem dispatch_stopReached (reason : ExitReason) (qual : UInt64) (deterministic : Bool) :
    (dispatch reason qual (ctx.beginExit deterministic)).2.stopReached ↔
      ∃ stop, ctx.state.config.stopAtTsc = some stop ∧
        stop ≤ ctx.timeHandled reason deterministic := by
  have hframe : ∀ handled : VmContext, handled.state.config = ctx.state.config →
      handled.state.clock.emulatedTsc = ctx.timeHandled reason deterministic →
      (handled.stopReached ↔ ∃ stop, ctx.state.config.stopAtTsc = some stop ∧
        stop ≤ ctx.timeHandled reason deterministic) := by
    intro handled hconfig htime
    unfold stopReached
    rw [hconfig, htime]
    cases ctx.state.config.stopAtTsc with
    | none | some stop => simp
  by_cases hidle : reason = .hlt ∨ reason = .mwait
  · have hkept := dispatch_idle_kept qual hidle (ctx.beginExit deterministic)
    apply hframe
    · rcases (ctx.beginExit deterministic).advanceToWake_cases with hsame | ⟨_, -, -, hmoved⟩
      · rw [hkept.config, hsame]
        rfl
      · rw [hkept.config, hmoved]
        rfl
    · rw [hkept.clock, timeHandled, if_pos hidle]
  · have hnot := not_or.mp hidle
    have hkept := dispatch_kept qual hnot.1 hnot.2 (ctx.beginExit deterministic)
    apply hframe
    · exact hkept.config
    · rw [hkept.clock, timeHandled, if_neg hidle]

theorem finishExit_fst (reason : ExitReason) (qual : UInt64)
    (deterministic : Bool) {result : ExitHandlerResult} (hresult : result ≠ .continue_) :
    (ctx.finishExit reason qual deterministic result).1 =
      match ctx.trapFlagError with
      | some e => .error e
      | none =>
        if (deterministic && ctx.stopReached) then .exitToUserspace .stopTscReached
        else result := by
  have hupdate := ctx.updateMtfState_fst
  have hstop : ctx.updateMtfState.2.stopReached = ctx.stopReached := by
    unfold stopReached
    rw [ctx.updateMtfState_clock, ctx.updateMtfState_config]
  unfold finishExit
  generalize ctx.updateMtfState = update at hupdate hstop ⊢
  obtain ⟨outcome, after⟩ := update
  cases herror : ctx.trapFlagError with
  | some e =>
    rw [herror] at hupdate
    cases hupdate
    rfl
  | none =>
    rw [herror] at hupdate
    cases hupdate
    dsimp only at hstop ⊢
    rw [hstop]
    split
    · rfl
    · rw [if_neg (by simp [hresult])]

end VmContext

/-- A handler that does not let the guest continue has its result returned exactly when
neither the trap flag nor the stop threshold stands in the way. -/
theorem handler_result_returned_iff {ctx handled : VmContext} {reason : ExitReason}
    {qual : UInt64} {result : ExitHandlerResult} (hinfo : ctx.exitInfo = .ok (reason, qual))
    (hhandler : dispatch reason qual
      (ctx.beginExit (!ctx.state.nonDeterministicExit reason qual)) = (.ok result, handled))
    (hresult : result ≠ .continue_) :
    ctx.handleExit.1 = result ↔
      (∀ e, handled.trapFlagError = some e → result = .error e) ∧
        (handled.trapFlagError = none → ctx.state.nonDeterministicExit reason qual = false →
          ∀ stop, ctx.state.config.stopAtTsc = some stop → stop ≤ ctx.timeHandled reason true →
            result = .exitToUserspace .stopTscReached) := by
  have hreturn : ctx.handleExit.1 =
      (handled.finishExit reason qual (!ctx.state.nonDeterministicExit reason qual) result).1 := by
    unfold VmContext.handleExit
    rw [hinfo]
    dsimp only
    rw [hhandler]
  have hstop := ctx.dispatch_stopReached reason qual (!ctx.state.nonDeterministicExit reason qual)
  rw [hhandler] at hstop
  rw [hreturn, handled.finishExit_fst reason qual _ hresult]
  cases herror : handled.trapFlagError with
  | some e =>
    constructor
    · intro heq
      refine ⟨fun e' he' => ?_, nofun⟩
      cases he'
      exact heq.symm
    · intro h
      exact (h.1 e rfl).symm
  | none =>
    cases hdet : ctx.state.nonDeterministicExit reason qual with
    | true =>
      rw [if_neg (by simp)]
      exact ⟨fun _ => ⟨nofun, nofun⟩, fun _ => rfl⟩
    | false =>
      rw [hdet] at hstop
      rw [Bool.not_false] at hstop ⊢
      rw [Bool.true_and]
      constructor
      · intro heq
        refine ⟨nofun, fun _ _ stop hconfig hle => ?_⟩
        have hreached : handled.stopReached = true := hstop.mpr ⟨stop, hconfig, hle⟩
        rw [if_pos hreached] at heq
        exact heq.symm
      · rintro ⟨-, hkeep⟩
        dsimp only
        by_cases hreached : handled.stopReached = true
        · obtain ⟨stop, hconfig, hle⟩ := hstop.mp hreached
          rw [if_pos hreached]
          exact (hkeep rfl rfl stop hconfig hle).symm
        · rw [if_neg hreached]

def VmContext.stoppingAt (stop : Option Nat) : VmContext :=
  { newVm with state := { newVm.state with config := { newVm.state.config with stopAtTsc := stop } } }

def VmContext.exitsWith (ctx : VmContext) (reason : UInt64) : VmContext :=
  ctx.exitAfter 1 fun
    | .vmExitReason => reason
    | _ => 0

/-- A triple fault one instruction before the threshold is reported. -/
theorem handler_result_returned_fault :
    ((VmContext.stoppingAt (some 2)).exitsWith 2).handleExit.1 = .error .tripleFault := by
  have hhandler : dispatch .tripleFault 0
      (((VmContext.stoppingAt (some 2)).exitsWith 2).beginExit true) =
      (.ok (.error .tripleFault), ((VmContext.stoppingAt (some 2)).exitsWith 2).beginExit true) :=
    rfl
  have hinfo : ((VmContext.stoppingAt (some 2)).exitsWith 2).exitInfo = .ok (.tripleFault, 0) := rfl
  refine (handler_result_returned_iff hinfo hhandler nofun).mpr ?_
  refine ⟨nofun, fun _ _ stop hstop hle => ?_⟩
  cases hstop
  exact absurd hle (by decide)

/-- At the threshold it is not: the guest seems to have stopped as asked. -/
theorem stop_hides_triple_fault :
    ∃ ctx : VmContext, ctx.exitInfo = .ok (.tripleFault, 0) ∧
      (dispatch .tripleFault 0
        (ctx.beginExit (!ctx.state.nonDeterministicExit .tripleFault 0))).1 =
          .ok (.error .tripleFault) ∧
      ctx.handleExit.1 = .exitToUserspace .stopTscReached :=
  ⟨(VmContext.stoppingAt (some 1)).exitsWith 2, rfl, rfl, rfl⟩

end Bedrock
