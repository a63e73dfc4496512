import Bedrock.Clock
import Bedrock.History

/-!
# The RUN ioctl

`handle_run` runs the loop, refills the page pool when an exit asks for it, and returns
on any other exit.  The guest is not code of this repository, so RUN is a relation: which
steps it can take from a VM, what it returns, and the VM it leaves behind.  Time never
goes back along it.
-/

namespace Bedrock

open Support List ForkedVm

/-- How the next iteration of the same RUN is entered after this result. -/
def ExitHandlerResult.next : ExitHandlerResult → Option Resume
  | continue_ => some .loop
  | exitToUserspace .poolExhausted => some .refilled
  | _ => none

/-- RUN can end after an iteration with this result: the exit is for userspace, the
scheduler wants the processor, the pool cannot be refilled, or the handler failed. -/
inductive ExitHandlerResult.Ends : ExitHandlerResult → Option ExitReason → Prop
  | exit {reason : ExitReason} (h : reason ≠ .poolExhausted) :
      Ends (.exitToUserspace reason) (some reason)
  | needResched : Ends .continue_ (some .needResched)
  | notRefilled : Ends (.exitToUserspace .poolExhausted) none
  | failed (e : ExitError) : Ends (.error e) none

def ExitHandlerResult.report : ExitHandlerResult → Option ExitReason
  | continue_ => some .needResched
  | exitToUserspace reason => if reason = .poolExhausted then none else some reason
  | error _ => none

theorem ExitHandlerResult.ends_report (result : ExitHandlerResult) : result.Ends result.report := by
  cases result with
  | continue_ => exact .needResched
  | exitToUserspace reason =>
    rw [report]
    split
    · rename_i h
      subst h
      exact .notRefilled
    · rename_i h
      exact .exit h
  | error e => exact .failed e

def Iteration.step (it : Iteration) : VmStep :=
  ⟨it.start, .iterate it, it.done⟩

/-- The loop of `handle_run`, entered with `how` in `ctx`; the result is the exit reason,
or `none` for an error. -/
inductive RunLoop : Resume → VmContext → List VmStep → Option ExitReason → VmContext → Prop
  | again {it : Iteration} {how : Resume} {ts : List VmStep} {r : Option ExitReason}
      {ctx' : VmContext} (hvalid : it.Valid) (hnext : it.result.next = some how)
      (hrest : RunLoop how it.done ts r ctx') : RunLoop it.how it.start (it.step :: ts) r ctx'
  | last {it : Iteration} {r : Option ExitReason} (hvalid : it.Valid) (hends : it.result.Ends r) :
      RunLoop it.how it.start [it.step] r it.done
  | aborted (how : Resume) (ctx : VmContext) (point : AbortPoint) :
      RunLoop how ctx [⟨ctx, .abort how point, ctx.abort how point⟩] none (ctx.abort how point)

/-- `handle_run`: a VM that is running or has children is refused, and the report may fail
to be copied to userspace. -/
inductive RunIoctl (ctx : VmContext) : List VmStep → Option ExitReason → VmContext → Prop
  | refused : RunIoctl ctx [] none ctx
  | returned {ts : List VmStep} {r : Option ExitReason} {ctx' : VmContext}
      (h : RunLoop .ioctl ctx ts r ctx') : RunIoctl ctx ts r ctx'
  | notCopied {ts : List VmStep} {r : Option ExitReason} {ctx' : VmContext}
      (h : RunLoop .ioctl ctx ts r ctx') : RunIoctl ctx ts none ctx'

namespace RunLoop

variable {how : Resume} {ctx ctx' : VmContext} {ts : List VmStep} {r : Option ExitReason}

theorem history (h : RunLoop how ctx ts r ctx') : History ctx ts ctx' := by
  induction h with
  | again hvalid _ _ ih =>
    refine ⟨⟨rfl, ih.walk⟩, forall_mem_cons.mpr ⟨.iterate hvalid, ih.valid⟩⟩
  | last hvalid _ => exact ⟨⟨rfl, rfl⟩, forall_mem_singleton.mpr (.iterate hvalid)⟩
  | aborted how ctx point =>
    exact ⟨⟨rfl, rfl⟩, forall_mem_singleton.mpr (.abort ctx how point)⟩

end RunLoop

namespace RunIoctl

variable {ctx ctx' : VmContext} {ts : List VmStep} {r : Option ExitReason}

theorem history (h : RunIoctl ctx ts r ctx') : History ctx ts ctx' := by
  cases h with
  | refused => exact ⟨rfl, by simp⟩
  | returned h | notCopied h => exact h.history

end RunIoctl

/-- The recorded time is not ahead of the counter. -/
def Clock.Sound (clock : Clock) : Prop :=
  clock.emulatedTsc ≤ clock.now

/-- Reads of the instruction counter never go back while the guest runs. -/
def VmStep.CountsUp (t : VmStep) : Prop :=
  ∀ it, t.label = .iterate it →
    it.entered.state.clock.lastInstructionCount ≤ it.exited.state.clock.lastInstructionCount

/-- From a sound clock, time does not go back. -/
def Forward (before after : VmContext) : Prop :=
  before.state.clock.Sound →
    before.state.clock.emulatedTsc ≤ after.state.clock.emulatedTsc ∧ after.state.clock.Sound

namespace Forward

theorem of_clock {before after : VmContext} (h : after.state.clock = before.state.clock) :
    Forward before after := by
  intro hsound
  rw [h]
  exact ⟨Nat.le_refl _, hsound⟩

theorem refl (ctx : VmContext) : Forward ctx ctx :=
  of_clock rfl

theorem trans {a b c : VmContext} (hab : Forward a b) (hbc : Forward b c) : Forward a c := by
  intro hsound
  obtain ⟨hle, hsound⟩ := hab hsound
  obtain ⟨hle', hsound⟩ := hbc hsound
  exact ⟨hle.trans hle', hsound⟩

end Forward

theorem VmContext.ioctl_clock (ctx : VmContext) (call : Ioctl) :
    (ctx.ioctl call).2.state.clock = ctx.state.clock := by
  have heffect := ctx.ioctl_effect call
  generalize (ctx.ioctl call).2 = after at heffect ⊢
  cases heffect <;> rfl

theorem VmContext.abort_clock (ctx : VmContext) (how : Resume) (point : AbortPoint) :
    (ctx.abort how point).state.clock = ctx.state.clock := by
  cases point with
  | load =>
    rw [abort]
    split
    · rfl
    · rfl
  | start => exact ctx.resume_clock how
  | entry => exact ctx.enter_clock how

theorem ForkedVm.new_forward {parent child : VmContext} {host : ForkHost}
    (h : new parent host = .ok child) : Forward parent child := by
  intro _
  refine ⟨?_, Nat.le_of_eq (Created.fork h).upToDate⟩
  obtain ⟨fresh, hfresh, rfl⟩ := new_spec h
  rw [fresh.preCowIoChannelPage_memory.kept.clock, hfresh.clock]
  exact Nat.le_refl _

theorem VmStep.Valid.forward {t : VmStep} (hvalid : t.Valid) (hcounts : t.CountsUp) :
    Forward t.pre t.post := by
  cases hvalid with
  | iterate hvalid =>
    intro hsound
    obtain ⟨hle, hsound⟩ := hvalid.clock_le .refl (hcounts _ rfl) hsound
    exact ⟨hle.1, hsound⟩
  | abort ctx how point => exact .of_clock (ctx.abort_clock how point)
  | ioctl ctx call => exact .of_clock (ctx.ioctl_clock call)
  | store _ => exact .of_clock rfl
  | fork hfork => exact new_forward hfork

/-- Time does not go back along a history. -/
theorem History.forward {ctx ctx' : VmContext} {ts : List VmStep} (h : History ctx ts ctx')
    (hcounts : ∀ t ∈ ts, t.CountsUp) : Forward ctx ctx' := by
  refine (h.walk.invariant (I := Forward ctx) (fun t ht hpre => ?_) (.refl ctx)).2
  exact hpre.trans ((h.valid t ht).forward (hcounts t ht))

end Bedrock
