import Bedrock.Frame
import Bedrock.Vm

/-!
# The clock

Emulated time is the instruction count plus an offset.  It is recorded at
deterministic exits only, and only an idle guest moves the offset.  A fork takes the
recorded time as its offset.
-/

namespace Bedrock

open Support VmContext Iteration List Clock

/-- The times an idle guest can be woken at, once its timer runs. -/
def VmState.wakeTargets (st : VmState) : List Nat :=
  [some st.guest.devices.apic.timerDeadline, st.nextIoChannelTargetTsc,
    st.config.stopAtTsc].filterMap id

theorem VmState.idleTarget_eq (st : VmState) :
    st.idleTarget =
      if st.guest.devices.apic.timerDeadline = 0 then none else st.wakeTargets.min? := by
  unfold idleTarget wakeTargets
  cases st.nextIoChannelTargetTsc with
  | none | some t => cases st.config.stopAtTsc <;> simp [List.min?_cons]

namespace VmContext

theorem advanceToWake_cases (ctx : VmContext) :
    ctx.advanceToWake = ctx ∨
      ∃ target, ctx.state.idleTarget = some target ∧ ctx.state.clock.emulatedTsc < target ∧
        ctx.advanceToWake = ctx.setClock { ctx.state.clock with
          tscOffset := ctx.state.clock.tscOffset + (target - ctx.state.clock.emulatedTsc)
          emulatedTsc := target } := by
  unfold advanceToWake
  dsimp only
  cases htarget : ctx.state.idleTarget with
  | none => exact .inl rfl
  | some target =>
    by_cases hlt : ctx.state.clock.emulatedTsc < target
    · exact .inr ⟨target, rfl, hlt, by simp [hlt]⟩
    · exact .inl (by simp [hlt])

/-! ## One exit -/

theorem handleExit_clock {ctx : VmContext} {reason : ExitReason} {qual : UInt64}
    (hinfo : ctx.exitInfo = .ok (reason, qual)) :
    ctx.handleExit.2.state.clock =
      (dispatch reason qual
        (ctx.beginExit (!ctx.state.nonDeterministicExit reason qual))).2.state.clock :=
  (CaptureFrame.of_events fun h => h.kept.clock).handleExit_of_dispatch updateMtfState_clock hinfo

end VmContext

theorem nonDeterministicExit_idle (st : VmState) {reason : ExitReason} (qual : UInt64)
    (h : reason = .hlt ∨ reason = .mwait) : st.nonDeterministicExit reason qual = false := by
  rcases h with rfl | rfl
  · rfl
  · rfl

theorem dispatch_idle_clock {reason : ExitReason} (qual : UInt64)
    (h : reason = .hlt ∨ reason = .mwait) (ctx : VmContext) :
    (dispatch reason qual ctx).2.state.clock = ctx.advanceToWake.state.clock :=
  (dispatch_idle_kept qual h ctx).clock

namespace Clock

def UpToDate (clock : Clock) : Prop :=
  clock.emulatedTsc = clock.now

/-- Neither the recorded time nor the offset is larger in `earlier`. -/
def Le (earlier later : Clock) : Prop :=
  earlier.emulatedTsc ≤ later.emulatedTsc ∧ earlier.tscOffset ≤ later.tscOffset

theorem Le.refl (clock : Clock) : Le clock clock :=
  ⟨Nat.le_refl _, Nat.le_refl _⟩

theorem Le.trans {a b c : Clock} (hab : Le a b) (hbc : Le b c) : Le a c :=
  ⟨hab.1.trans hbc.1, hab.2.trans hbc.2⟩

end Clock

variable {ctx before : VmContext}

theorem VmContext.advanceToWake_clock (h : ctx.state.clock.UpToDate) :
    ctx.advanceToWake.state.clock.UpToDate ∧ ctx.state.clock.Le ctx.advanceToWake.state.clock := by
  rcases ctx.advanceToWake_cases with hsame | ⟨target, -, hlt, hmoved⟩
  · rw [hsame]
    exact ⟨h, .refl _⟩
  rw [hmoved]
  simp only [UpToDate, now, Le, setClock] at h ⊢
  omega

theorem dispatch_clock (reason : ExitReason) (qual : UInt64) (h : ctx.state.clock.UpToDate) :
    (dispatch reason qual ctx).2.state.clock.UpToDate ∧
      ctx.state.clock.Le (dispatch reason qual ctx).2.state.clock := by
  by_cases hidle : reason = .hlt ∨ reason = .mwait
  · rw [dispatch_idle_clock qual hidle]
    exact advanceToWake_clock h
  rw [not_or] at hidle
  rw [(dispatch_kept qual hidle.1 hidle.2 ctx).clock]
  exact ⟨h, .refl _⟩

theorem dispatch_lastInstructionCount (reason : ExitReason) (qual : UInt64) (ctx : VmContext) :
    (dispatch reason qual ctx).2.state.clock.lastInstructionCount =
      ctx.state.clock.lastInstructionCount := by
  by_cases hidle : reason = .hlt ∨ reason = .mwait
  · rw [dispatch_idle_clock qual hidle]
    rcases ctx.advanceToWake_cases with hsame | ⟨target, -, -, hmoved⟩
    · rw [hsame]
    · rw [hmoved]
      rfl
  · rw [not_or] at hidle
    rw [(dispatch_kept qual hidle.1 hidle.2 ctx).clock]

namespace VmContext

def exitsDeterministically (ctx : VmContext) : Bool :=
  match ctx.exitInfo with
  | .error _ => false
  | .ok (reason, qual) => !ctx.state.nonDeterministicExit reason qual

theorem handleExit_clock_of_deterministic (h : ctx.exitsDeterministically) :
    ctx.handleExit.2.state.clock.UpToDate ∧
      Le { ctx.state.clock with emulatedTsc := ctx.state.clock.now } ctx.handleExit.2.state.clock ∧
      ctx.handleExit.2.state.clock.lastInstructionCount = ctx.state.clock.lastInstructionCount := by
  unfold exitsDeterministically at h
  split at h
  · cases h
  rename_i reason qual hinfo
  rw [handleExit_clock hinfo, h]
  have hbegin : (ctx.beginExit true).state.clock.UpToDate := rfl
  obtain ⟨hlaw, hle⟩ := dispatch_clock reason qual hbegin
  exact ⟨hlaw, hle, dispatch_lastInstructionCount reason qual _⟩

theorem handleExit_clock_of_nonDeterministic (h : ctx.exitsDeterministically = false) :
    ctx.handleExit.2.state.clock = ctx.state.clock := by
  unfold exitsDeterministically at h
  split at h
  · rename_i e hinfo
    unfold handleExit
    rw [hinfo]
  rename_i reason qual hinfo
  rw [handleExit_clock hinfo, h]
  have hidle : ¬(reason = .hlt ∨ reason = .mwait) := by
    intro hidle
    rw [nonDeterministicExit_idle _ qual hidle] at h
    cases h
  rw [not_or] at hidle
  exact (dispatch_kept qual hidle.1 hidle.2 _).clock

theorem leave_clock (ctx : VmContext) : ctx.leave.2.state.clock = ctx.handleExit.2.state.clock := by
  unfold leave
  split
  · rename_i heq
    rw [heq]
  rename_i heq
  rw [heq]
  exact (finalizeExitRecord_events _).kept.clock

theorem resume_clock (ctx : VmContext) (how : Resume) :
    (ctx.resume how).2.state.clock = ctx.state.clock := by
  cases how with
  | loop => rfl
  | refilled | ioctl => exact updateMtfState_clock _

theorem enter_clock (ctx : VmContext) (how : Resume) :
    (ctx.enter how).2.state.clock = ctx.state.clock := by
  have hresume := ctx.resume_clock how
  unfold enter
  split
  · rename_i heq
    rw [heq] at hresume
    exact hresume
  · rename_i heq
    rw [heq] at hresume
    exact (injectPendingInterrupt_kept _).clock.trans hresume

end VmContext

/-! ## Runs -/

theorem Outside.clock {after : VmContext} (h : Outside before after) :
    after.state.clock = before.state.clock := by
  induction h with
  | refl => rfl
  | reconfigured _ hconf ih => exact hconf.clock.trans ih
  | @refused c c' how e _ henter ih =>
    have hclock := c.enter_clock how
    rw [henter] at hclock
    exact hclock.trans ih

/-- What one iteration does to the clock, from where the last one left it. -/
theorem Iteration.Valid.clock {it : Iteration} (hvalid : it.Valid)
    (hbefore : Outside before it.start) :
    it.exited.state.clock.emulatedTsc = before.state.clock.emulatedTsc ∧
      it.exited.state.clock.tscOffset = before.state.clock.tscOffset ∧
      it.entered.state.clock = before.state.clock ∧
      it.done.state.clock = it.exited.handleExit.2.state.clock := by
  have hentered : it.entered.state.clock = before.state.clock := by
    have hclock := it.start.enter_clock it.how
    rw [hvalid.enter] at hclock
    exact hclock.trans hbefore.clock
  have hdone : it.done.state.clock = it.exited.handleExit.2.state.clock := by
    rw [← it.exited.leave_clock, hvalid.leave]
  refine ⟨?_, ?_, hentered, hdone⟩
  · rw [hvalid.ran.emulatedTsc, hentered]
  · rw [hvalid.ran.tscOffset, hentered]

/-- A VM that was created and not run yet. -/
inductive Created : VmContext → Prop
  | root {memory : GuestMemory} {supply : FrameSupply} {machine : Machine}
      {setup : Except VmStateError Vmcs} {tscFrequency : Nat} {pebsSupported : Bool}
      {ctx : VmContext}
      (h : RootVm.new memory supply machine setup tscFrequency pebsSupported = .ok ctx) :
      Created ctx
  | fork {parent ctx : VmContext} {host : ForkHost} (h : ForkedVm.new parent host = .ok ctx) :
      Created ctx

theorem Created.upToDate (h : Created ctx) : ctx.state.clock.UpToDate := by
  cases h with
  | root h =>
    obtain ⟨-, ⟨hclock, -⟩, -⟩ := RootVm.new_spec h
    rw [hclock]
    rfl
  | fork h =>
    obtain ⟨fresh, hfresh, rfl⟩ := ForkedVm.new_spec h
    rw [fresh.preCowIoChannelPage_memory.kept.clock, hfresh.clock]
    simp [UpToDate, now, forFork]

/-- Reads of the instruction counter never go back while the guest runs. -/
def CounterMonotone (run : List Iteration) : Prop :=
  ∀ it ∈ run, it.entered.state.clock.lastInstructionCount ≤
    it.exited.state.clock.lastInstructionCount

theorem Iteration.Valid.clock_le {it : Iteration} (hvalid : it.Valid)
    (hbefore : Outside before it.start)
    (hcounter : it.entered.state.clock.lastInstructionCount ≤
      it.exited.state.clock.lastInstructionCount)
    (hahead : before.state.clock.emulatedTsc ≤ before.state.clock.now) :
    before.state.clock.Le it.done.state.clock ∧
      it.done.state.clock.emulatedTsc ≤ it.done.state.clock.now := by
  obtain ⟨hemulated, hoffset, hentered, hdone⟩ := hvalid.clock hbefore
  rw [hentered] at hcounter
  cases hdet : it.exited.exitsDeterministically with
  | true =>
    obtain ⟨hlaw, hle, -⟩ := handleExit_clock_of_deterministic hdet
    rw [← hdone] at hlaw hle
    refine ⟨⟨?_, ?_⟩, Nat.le_of_eq hlaw⟩
    · have hnow : before.state.clock.now ≤ it.exited.state.clock.now := by
        simp only [now]
        omega
      exact (hahead.trans hnow).trans hle.1
    · exact hoffset ▸ hle.2
  | false =>
    rw [handleExit_clock_of_nonDeterministic hdet] at hdone
    rw [hdone]
    simp only [Le, now] at hahead ⊢
    omega

/-- The clocks at the ends of a run's iterations, latest first, down to the start. -/
def clockHistory (ctx : VmContext) (run : List Iteration) : List Clock :=
  run.map (fun it => it.done.state.clock) ++ [ctx.state.clock]

theorem Run.clockHistory_pairwise (hctx : ctx.state.clock.UpToDate)
    {run : List Iteration} (hrun : Run ctx run) (hcounter : CounterMonotone run) :
    (clockHistory ctx run).Pairwise (fun later earlier => earlier.Le later) ∧
      (lastContext ctx run).state.clock.emulatedTsc ≤ (lastContext ctx run).state.clock.now := by
  induction run with
  | nil => exact ⟨pairwise_singleton _ _, Nat.le_of_eq hctx⟩
  | cons it run ih =>
    obtain ⟨hpairwise, hahead⟩ := ih hrun.tail fun it' hit' =>
      hcounter it' (mem_cons_of_mem _ hit')
    obtain ⟨hle, hahead'⟩ := hrun.valid.clock_le hrun.outside_start
      (hcounter it mem_cons_self) hahead
    refine ⟨pairwise_cons.mpr ⟨fun clock hmem => ?_, hpairwise⟩, hahead'⟩
    have hlast : clock.Le (lastContext ctx run).state.clock := by
      -- the newest clock of the shorter run bounds the others
      cases run with
      | nil =>
        rw [mem_singleton.mp hmem]
        exact .refl _
      | cons prev run =>
        rcases mem_cons.mp hmem with rfl | hmem
        · exact .refl _
        · exact (pairwise_cons.mp hpairwise).1 clock hmem
    exact hlast.trans hle

/-- The clock law: a deterministic exit leaves the recorded time equal to the
instruction count plus the offset; along a run neither decreases (time is unbounded
here, so no addition wraps); only `handle_idle` moves the offset, and then to the
earliest wake-up time. -/
theorem clock_law :
    (∀ ctx : VmContext, ctx.exitsDeterministically = true →
      ctx.handleExit.2.state.clock.emulatedTsc =
        ctx.handleExit.2.state.clock.lastInstructionCount +
          ctx.handleExit.2.state.clock.tscOffset) ∧
    (∀ ctx run, Created ctx → Run ctx run → CounterMonotone run →
      (clockHistory ctx run).Pairwise fun later earlier => earlier.Le later) ∧
    (∀ reason qual ctx, reason ≠ .hlt → reason ≠ .mwait →
      (dispatch reason qual ctx).2.state.clock.tscOffset = ctx.state.clock.tscOffset) ∧
    (∀ ctx : VmContext,
      (handleIdle ctx).2.state.clock.tscOffset ≠ ctx.state.clock.tscOffset →
      ctx.state.wakeTargets.min? = some (handleIdle ctx).2.state.clock.emulatedTsc) := by
  refine ⟨fun ctx h => ?_, fun ctx run hctx hrun hcounter => ?_,
    fun reason qual ctx hhlt hmwait => ?_, fun ctx h => ?_⟩
  · exact (VmContext.handleExit_clock_of_deterministic h).1
  · exact (hrun.clockHistory_pairwise hctx.upToDate hcounter).1
  · rw [(dispatch_kept qual hhlt hmwait ctx).clock]
  rw [(handleIdle_kept ctx).clock] at h ⊢
  rcases ctx.advanceToWake_cases with hsame | ⟨target, htarget, -, hmoved⟩
  · rw [hsame] at h
    exact absurd rfl h
  rw [VmState.idleTarget_eq] at htarget
  split at htarget
  · cases htarget
  · rw [htarget, hmoved]
    rfl

/-! A run for the law: a new VM whose timer is set to 500 halts after 7 instructions
and is woken at 500. -/

theorem newVm_created : Created newVm :=
  .root newVm_eq

/-- `newVm` with its timer set by userspace. -/
def timedVm : VmContext :=
  newVm.setGuest { newVm.state.guest with
    devices := { newVm.state.guest.devices with
      apic := { newVm.state.guest.devices.apic with timerDeadline := 500 } } }

def haltIteration : Iteration :=
  .simulate .ioctl timedVm fun ctx => ctx.exitAfter 7 fun
    | .vmExitReason => 12
    | _ => 0

theorem haltIteration_valid : haltIteration.Valid :=
  simulate_valid rfl (ran_exitAfter _ _ _)

theorem haltIteration_run : Run newVm [haltIteration] :=
  .first haltIteration_valid rfl (.reconfigured .refl ⟨rfl, rfl, rfl, rfl, rfl⟩)

theorem clock_law_halt :
    clockHistory newVm [haltIteration] = [⟨7, 500, 493⟩, ⟨0, 0, 0⟩] ∧
      (clockHistory newVm [haltIteration]).Pairwise fun later earlier => earlier.Le later :=
  ⟨by decide, clock_law.2.1 newVm [haltIteration] newVm_created haltIteration_run (by
    intro it hit
    rw [List.mem_singleton.mp hit]
    decide)⟩

/-- The instruction count at the last deterministic exit, or at the start. -/
def recordedCount (ctx : VmContext) : List Iteration → Nat
  | [] => ctx.state.clock.lastInstructionCount
  | it :: run =>
    if it.exited.exitsDeterministically then it.exited.state.clock.lastInstructionCount
    else recordedCount ctx run

theorem Run.emulatedTsc_eq (hctx : ctx.state.clock.UpToDate)
    {run : List Iteration} (hrun : Run ctx run) :
    (lastContext ctx run).state.clock.emulatedTsc =
      recordedCount ctx run + (lastContext ctx run).state.clock.tscOffset := by
  induction run with
  | nil => exact hctx
  | cons it run ih =>
    obtain ⟨hemulated, hoffset, -, hdone⟩ := hrun.valid.clock hrun.outside_start
    simp only [lastContext, recordedCount]
    cases hdet : it.exited.exitsDeterministically with
    | true =>
      obtain ⟨hlaw, -, hcount⟩ := handleExit_clock_of_deterministic hdet
      rw [← hdone] at hlaw hcount
      rw [hlaw, now, hcount]
      rfl
    | false =>
      -- neither the recorded time nor the offset moves
      rw [handleExit_clock_of_nonDeterministic hdet] at hdone
      rw [hdone, hemulated, hoffset]
      exact ih hrun.tail

/-- The clock of a fork continues the parent's exactly if the parent retired no
instruction after its last deterministic exit. -/
theorem newForFork_clock_iff {ctx : VmContext} (hctx : Created ctx) {run : List Iteration}
    (hrun : Run ctx run) {parent : VmContext} (hparent : Outside (lastContext ctx run) parent)
    {ept : EptPageTable} {host : ForkHost} {child : VmState}
    (hfork : parent.state.newForFork ept host = .ok child) :
    child.clock.lastInstructionCount + child.clock.tscOffset =
        parent.state.clock.lastInstructionCount + parent.state.clock.tscOffset ↔
      parent.state.clock.lastInstructionCount = recordedCount ctx run := by
  have hrecorded := hrun.emulatedTsc_eq hctx.upToDate
  obtain ⟨controls, -, rfl⟩ := VmState.newForFork_spec hfork
  rw [hparent.clock]
  simp only [VmState.forFork, Clock.forFork, hparent.clock]
  omega

def plainForkHost : ForkHost :=
  { supply := ⟨[], by simp⟩ }

def preemptedIteration : Iteration :=
  .simulate .ioctl newVm fun ctx => ctx.exitAfter 7 fun
    | .vmExitReason => 52
    | _ => 0

theorem preemptedIteration_run : Run newVm [preemptedIteration] :=
  .first (simulate_valid rfl (ran_exitAfter _ _ _)) rfl .refl

/-- The preemption timer returns to userspace with 7 instructions retired, and a fork
taken then starts its clock at 0. -/
theorem newForFork_clock_stale :
    Run newVm [preemptedIteration] ∧
      preemptedIteration.result = .exitToUserspace .vmxPreemptionTimer ∧
      ∃ child, preemptedIteration.done.state.newForFork newVm.state.ept plainForkHost =
          .ok child ∧
        child.clock.lastInstructionCount + child.clock.tscOffset = 0 ∧
        preemptedIteration.done.state.clock.lastInstructionCount +
          preemptedIteration.done.state.clock.tscOffset = 7 :=
  ⟨preemptedIteration_run, rfl, _, rfl, rfl, rfl⟩

theorem newForFork_clock_iff_halt :
    ∃ child, haltIteration.done.state.newForFork newVm.state.ept plainForkHost = .ok child ∧
      child.clock.lastInstructionCount + child.clock.tscOffset = 500 := by
  have hfork : haltIteration.done.state.newForFork newVm.state.ept plainForkHost =
      .ok (haltIteration.done.state.forFork newVm.state.ept _) := rfl
  refine ⟨_, hfork, ?_⟩
  rw [(newForFork_clock_iff newVm_created haltIteration_run .refl hfork).mpr (by decide)]
  decide

end Bedrock
