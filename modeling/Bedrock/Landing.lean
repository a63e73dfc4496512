import Bedrock.TrapFlag

/-!
# Landing on a precise-exit target

Once `update_mtf_state` has run within the margin before a target, the guest is
single-stepped up to the target: it cannot get past it without an exit on it, and that
exit is deterministic.
-/

namespace Bedrock

open Support VmContext VmState List Clock

inductive TargetKind
  | timer | ioChannel | stop | singleStep
  deriving DecidableEq, Repr

/-- The targets execution has to stop at: the running, unmasked timer of an enabled
APIC, an I/O request the guest can be interrupted for, the stop threshold, and the start
of a non-empty single-step range. -/
def VmState.pendingTarget (st : VmState) : TargetKind → Option Nat
  | .timer => st.timerTarget
  | .ioChannel => st.nextIoChannelTargetTsc
  | .stop => st.config.stopAtTsc
  | .singleStep =>
    match st.config.singleStepTscRange with
    | none => none
    | some (first, last) => if first < last then some first else none

variable {kind : TargetKind} {T : Nat} {ctx : VmContext}

theorem VmState.targetAhead_of_pending {st : VmState}
    (htarget : st.pendingTarget kind = some T) (hbefore : st.clock.now < T) : st.TargetAhead T := by
  refine ⟨hbefore, ?_⟩
  cases kind with
  | timer => exact .inl htarget
  | ioChannel => exact .inr (.inl htarget)
  | stop => exact .inr (.inr (.inl htarget))
  | singleStep =>
    right
    right
    right
    unfold pendingTarget at htarget
    dsimp only at htarget
    split at htarget
    · cases htarget
    rename_i first last hrange
    split at htarget
    · cases htarget
      simp [nextSingleStepStartTsc, hrange, hbefore]
    · cases htarget

theorem VmState.deterministic_on_target {st : VmState}
    (htarget : st.pendingTarget kind = some T) (hon : st.clock.now = T) (qual : UInt64) :
    st.nonDeterministicExit .monitorTrapFlag qual = false := by
  have hcount : T - st.clock.tscOffset = st.clock.lastInstructionCount := by
    simp only [now] at hon
    omega
  simp only [nonDeterministicExit, Bool.not_eq_false', Bool.or_eq_true]
  cases kind with
  | timer =>
    left
    simp [onBoundary, nextTimerExitCount, show st.timerTarget = some T from htarget, hcount]
  | ioChannel =>
    left
    simp [onBoundary, nextIoChannelExitCount,
      show st.nextIoChannelTargetTsc = some T from htarget, hcount]
  | stop =>
    left
    simp [onBoundary, stopAtCount, show st.config.stopAtTsc = some T from htarget, hcount]
  | singleStep =>
    right
    unfold pendingTarget at htarget
    dsimp only at htarget
    split at htarget
    · cases htarget
    rename_i first last hrange
    split at htarget
    · rename_i hlt
      cases htarget
      simp [inSingleStep, hrange, hon, hlt]
    · cases htarget

/-! ## The approach to a target -/

/-- Less than the margin before `T`, with a precise-exit page and a sound mirror. -/
structure Near (T : Nat) (ctx : VmContext) : Prop where
  sound : MtfSound ctx
  pebs : ctx.state.precise.pebsState.isSome = true
  before : ctx.state.clock.now < T
  near : T ≤ ctx.state.clock.now + ctx.machine.getMtfMargin

theorem Near.of_carries {ctx' : VmContext} (h : Near T ctx) (hsound : MtfSound ctx')
    (hcarries : Carries ctx ctx') (hclock : ctx'.state.clock = ctx.state.clock) : Near T ctx' where
  sound := hsound
  pebs := hcarries.pebs h.pebs
  before := hclock ▸ h.before
  near := by
    rw [hclock, hcarries.machine]
    exact h.near

theorem Near.outside {before after : VmContext} (h : Near T before)
    (houtside : Outside before after) : Near T after :=
  h.of_carries (houtside.mtfSound h.sound) houtside.carries houtside.clock

theorem Near.events {before after : VmContext} (h : Near T before)
    (hevents : EventsOnly before after) : Near T after :=
  h.of_carries (hevents.kept.mtfSound h.sound) hevents.kept.carries hevents.kept.clock

theorem Near.updateMtfState (h : Near T ctx) : Near T ctx.updateMtfState.2 :=
  h.of_carries (updateMtfState_sound h.sound) (updateMtfState_sameTargets ctx).carries
    (updateMtfState_sameTargets ctx).clock

/-- An entry with the trap flag set retires nothing, or one instruction and then exits
for the trap flag or for a deterministic reason. -/
def Iteration.SingleSteps (it : Iteration) : Prop :=
  it.entered.trapFlag ≠ 0 →
    it.exited.state.clock.lastInstructionCount = it.entered.state.clock.lastInstructionCount ∨
      it.exited.state.clock.lastInstructionCount =
          it.entered.state.clock.lastInstructionCount + 1 ∧
        (it.exited.exitsDeterministically = true ∨
          ∃ qual, it.exited.exitInfo = .ok (.monitorTrapFlag, qual))

theorem exitsDeterministically_on_target
    {qual : UInt64} (hinfo : ctx.exitInfo = .ok (.monitorTrapFlag, qual))
    (htarget : ctx.state.pendingTarget kind = some T) (hon : ctx.state.clock.now = T) :
    ctx.exitsDeterministically := by
  rw [exitsDeterministically, hinfo]
  simp [deterministic_on_target htarget hon qual]

/-- One iteration on the way to a target steps with the trap flag set, and exits on the
target deterministically or remains on the way. -/
theorem Near.iteration {it : Iteration} (hnear : Near T it.start)
    (hvalid : it.Valid) (hloop : it.how = .loop → Settled it.start) (hsteps : it.SingleSteps)
    (hstart : it.start.state.pendingTarget kind = some T)
    (hexited : it.exited.state.pendingTarget kind = some T) :
    it.entered.trapFlag ≠ 0 ∧ it.exited.state.clock.now ≤ T ∧
      (it.exited.state.clock.now = T → it.exited.exitsDeterministically) ∧
      (it.exited.state.clock.now ≠ T →
        it.done.state.clock.tscOffset = it.start.state.clock.tscOffset → Near T it.done) := by
  have hwants := wantsMtf_of_near hnear.pebs
    (targetAhead_of_pending hstart hnear.before) hnear.near
  have hset := (enter_stepping hvalid.enter hnear.sound hloop).2.mpr (.inl hwants)
  obtain ⟨-, hoffset, hentered, -⟩ := hvalid.clock (show Outside it.start it.start from .refl)
  have hcount := hsteps hset
  rw [hentered] at hcount
  have hbefore := hnear.before
  simp only [now, hoffset] at hbefore ⊢
  refine ⟨hset, ?_, fun hon => ?_, fun hne hkeeps => ?_⟩
  · rcases hcount with hsame | ⟨hone, -⟩ <;> omega
  · rcases hcount with hsame | ⟨-, hdet | ⟨qual, hinfo⟩⟩
    · omega
    · exact hdet
    refine exitsDeterministically_on_target hinfo hexited ?_
    rw [now, hoffset]
    exact hon
  · have hcarries := it.exited.leave_carries
    have hlast := it.exited.leave_lastInstructionCount
    rw [hvalid.leave] at hcarries hlast
    dsimp only at hlast
    have henter := it.start.enter_carries it.how
    rw [hvalid.enter] at henter
    have hran : Carries it.entered it.exited :=
      ⟨hvalid.ran.machine, fun h => hvalid.ran.precise ▸ h⟩
    have hall := (henter.trans hran).trans hcarries
    have hwindow := hnear.near
    refine ⟨(hvalid.mtfSound hnear.sound).2.1, hall.pebs hnear.pebs, ?_, ?_⟩
    · simp only [now, hlast, hkeeps]
      rcases hcount with hsame | ⟨hone, -⟩ <;> omega
    rw [hall.machine]
    simp only [now, hlast, hkeeps] at hwindow ⊢
    rcases hcount with hsame | ⟨hone, -⟩ <;> omega

/-- The iterations after `update_mtf_state` is called in `ctx`, the latest first.  The call
is the last step of an exit or of the start of a RUN. -/
inductive Onward (ctx : VmContext) : List Iteration → Prop
  | nil : Onward ctx []
  | loop {it : Iteration} {updated : VmContext} (hupdate : ctx.updateMtfState = (.ok (), updated))
      (hvalid : it.Valid) (hhow : it.how = .loop) (hstart : EventsOnly updated it.start) :
      Onward ctx [it]
  | again {it : Iteration} {last : VmContext} (hevents : EventsOnly ctx.updateMtfState.2 last)
      (hvalid : it.Valid) (hhow : it.how ≠ .loop) (hstart : Outside last it.start) :
      Onward ctx [it]
  | next {prev it : Iteration} {run : List Iteration} (hrun : Onward ctx (prev :: run))
      (hvalid : it.Valid) (hfollows : Follows prev it) : Onward ctx (it :: prev :: run)

theorem Onward.valid {it : Iteration} {run : List Iteration}
    (h : Onward ctx (it :: run)) : it.Valid := by
  cases h with
  | loop _ hvalid _ _ | again _ hvalid _ _ | next _ hvalid _ => exact hvalid

theorem Onward.near (hctx : Near T ctx) :
    ∀ {run : List Iteration} {it : Iteration}, Onward ctx (it :: run) →
      (∀ p ∈ it :: run, p.start.state.pendingTarget kind = some T ∧
        p.exited.state.pendingTarget kind = some T ∧
        p.start.state.clock.tscOffset = ctx.state.clock.tscOffset) →
      (∀ p ∈ run, p.SingleSteps) → (∀ p ∈ run, p.exited.state.clock.now ≠ T) →
      Near T it.start ∧ (it.how = .loop → Settled it.start) := by
  intro run
  induction run with
  | nil =>
    intro it honward _ _ _
    cases honward with
    | @loop _ updated hupdate hvalid hhow hstart =>
      have hnear := hctx.updateMtfState
      rw [hupdate] at hnear
      exact ⟨hnear.events hstart,
        fun _ => hstart.settled (updateMtfState_settled hupdate hctx.sound)⟩
    | again hevents hvalid hhow hstart =>
      exact ⟨(hctx.updateMtfState.events hevents).outside hstart, fun h => absurd h hhow⟩
  | cons prev run ih =>
    intro it honward hkeeps hsteps hon
    cases honward with
    | next hrun hvalid hfollows =>
      obtain ⟨hprev, hloop⟩ := ih hrun (fun p hp => hkeeps p (mem_cons_of_mem _ hp))
        (fun p hp => hsteps p (mem_cons_of_mem _ hp))
        (fun p hp => hon p (mem_cons_of_mem _ hp))
      obtain ⟨htarget, hexited, hoffset⟩ := hkeeps prev (by simp)
      obtain ⟨-, -, -, hdone⟩ := hprev.iteration hrun.valid hloop (hsteps prev (by simp))
        htarget hexited
      -- What happens outside leaves the clock alone, so the offset is the one at the end.
      have hend : prev.done.state.clock.tscOffset = prev.start.state.clock.tscOffset := by
        rw [← hfollows.outside.clock, (hkeeps it (by simp)).2.2, hoffset]
      have hnear := hdone (hon prev (by simp)) hend
      exact ⟨hnear.outside hfollows.outside, (hfollows.settled hrun.valid hprev.sound).2⟩

/-- Let `update_mtf_state` run less than the margin before a target `T`.  As long as the
target and the clock's offset stay as they are and no exit was on the target, the guest is
entered with the trap flag set and does not get past the target; the exit on it is
deterministic, with the clock at the target before the exit is dispatched. -/
theorem precise_landing {ctx : VmContext} {kind : TargetKind} {T : Nat}
    (hpebs : ctx.state.precise.pebsState.isSome = true)
    (hmirror : ctx.state.precise.mtfEnabled = true ↔ ctx.trapFlag ≠ 0)
    (hbefore : 0 < T - ctx.state.clock.now)
    (hnear : T - ctx.state.clock.now ≤ PEBS_MIN_DELTA + ctx.machine.getPebsMargin)
    {it : Iteration} {run : List Iteration} (honward : Onward ctx (it :: run))
    (hkeeps : ∀ p ∈ it :: run, p.start.state.pendingTarget kind = some T ∧
      p.exited.state.pendingTarget kind = some T ∧
      p.start.state.clock.tscOffset = ctx.state.clock.tscOffset)
    (hsteps : ∀ p ∈ it :: run, p.SingleSteps) (hfirst : ∀ p ∈ run, p.exited.state.clock.now ≠ T) :
    it.entered.trapFlag ≠ 0 ∧ it.exited.state.clock.now ≤ T ∧
      (it.exited.state.clock.now = T → it.exited.exitsDeterministically = true ∧
        (it.exited.beginExit it.exited.exitsDeterministically).state.clock.emulatedTsc = T) := by
  have hctx : Near T ctx := by
    refine ⟨hmirror.mp, hpebs, by omega, ?_⟩
    rw [Machine.getMtfMargin]
    omega
  obtain ⟨hstart, hloop⟩ := honward.near hctx hkeeps
    (fun p hp => hsteps p (List.mem_cons_of_mem _ hp)) hfirst
  obtain ⟨htarget, hexited, -⟩ := hkeeps it (by simp)
  obtain ⟨hset, hle, hon, -⟩ := hstart.iteration honward.valid hloop (hsteps it (by simp)) htarget
    hexited
  refine ⟨hset, hle, fun hlanded => ⟨hon hlanded, ?_⟩⟩
  rw [hon hlanded]
  exact hlanded

/-- `newVm` with a precise-exit page and a stop threshold after its next instruction. -/
def approachingVm : VmContext :=
  { newVm with
    state := { newVm.state with
      config := { newVm.state.config with stopAtTsc := some 1 }
      precise := { newVm.state.precise with
        pebsState := some { dsManagementGpa := 0, pebsBufferGpa := 0, dsAreaVa := 0 } } } }

def steppedIteration : Iteration :=
  .simulate .loop approachingVm.updateMtfState.2 fun ctx => ctx.exitAfter 1 fun
    | .vmExitReason => 37
    | _ => 0

theorem steppedIteration_onward : Onward approachingVm [steppedIteration] :=
  .loop (show approachingVm.updateMtfState = (.ok (), approachingVm.updateMtfState.2) from rfl)
    (Iteration.simulate_valid rfl (ran_exitAfter _ _ _)) rfl (.refl _)

theorem precise_landing_step :
    steppedIteration.entered.trapFlag ≠ 0 ∧ steppedIteration.exited.state.clock.now ≤ 1 ∧
      (steppedIteration.exited.state.clock.now = 1 →
        steppedIteration.exited.exitsDeterministically = true ∧
        (steppedIteration.exited.beginExit
          steppedIteration.exited.exitsDeterministically).state.clock.emulatedTsc = 1) := by
  have hkeeps : ∀ p ∈ [steppedIteration], p.start.state.pendingTarget .stop = some 1 ∧
      p.exited.state.pendingTarget .stop = some 1 ∧
      p.start.state.clock.tscOffset = approachingVm.state.clock.tscOffset := by
    intro p hp
    rw [List.mem_singleton.mp hp]
    decide
  have hsteps : ∀ p ∈ [steppedIteration], p.SingleSteps := by
    intro p hp _
    rw [List.mem_singleton.mp hp]
    exact .inr ⟨rfl, .inr ⟨0, rfl⟩⟩
  exact precise_landing rfl (by decide) (by decide) (by decide) steppedIteration_onward hkeeps
    hsteps (by simp)

end Bedrock
