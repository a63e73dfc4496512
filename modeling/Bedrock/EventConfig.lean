import Bedrock.Ioctl
import Bedrock.Recording
import Bedrock.Support.Walk

/-!
# SET_EVENT_CONFIG

The ioctl changes the event stream before it looks at the trigger, and a new trigger keeps
the index of the last checkpoint.  This module says what a failing call leaves behind, and
which checkpoints are captured after a history of configurations.
-/

namespace Bedrock

open Support List

/-- What is captured, and the range of single-stepping, are configured as before. -/
structure SameEventConfig (before after : VmContext) : Prop where
  attached : after.state.events.attached = before.state.events.attached
  categories : after.state.events.categories = before.state.events.categories
  exitTrigger : after.state.capture.exitTrigger = before.state.capture.exitTrigger
  exitTargetTsc : after.state.capture.exitTargetTsc = before.state.capture.exitTargetTsc
  exitStartTsc : after.state.capture.exitStartTsc = before.state.capture.exitStartTsc
  singleStepTscRange :
    after.state.config.singleStepTscRange = before.state.config.singleStepTscRange

namespace VmContext

variable (ctx : VmContext) (config : BedrockEventConfig)

theorem ofCode_eq_none_iff (code : Nat) : ExitTrigger.ofCode code = none ↔ 5 < code := by
  rcases code with _ | _ | _ | _ | _ | _ | code <;> simp [ExitTrigger.ofCode]

/-- The buffer is neither allocated nor freed, or it should be allocated and cannot. -/
theorem reconfigureEvents_cases (allocated : Bool) :
    (ctx.reconfigureEvents config allocated = none ∧ config.enabled ≠ 0 ∧
      ctx.state.events.attached = false ∧ allocated = false) ∨
    ∃ es, ctx.reconfigureEvents config allocated = some es ∧
      es.categories = config.categories ∧ es.attached = decide (config.enabled ≠ 0) ∧
      ¬(config.enabled ≠ 0 ∧ ctx.state.events.attached = false ∧ allocated = false) := by
  unfold reconfigureEvents EventStream.setEventBuffer EventStream.clearEventBufferPtr
  by_cases henabled : config.enabled = 0
  · cases hattached : ctx.state.events.attached <;> simp [henabled, hattached]
  · cases hattached : ctx.state.events.attached <;> cases allocated <;>
      simp [henabled, hattached]

/-- A failing call leaves the configuration alone exactly if it fails before the stream is
changed, or changes nothing in it. -/
theorem set_event_config_atomic_iff (copied allocated : Bool) :
    ((ctx.handleSetEventConfig config copied allocated).1 = .ok () ∨
        SameEventConfig ctx (ctx.handleSetEventConfig config copied allocated).2) ↔
      copied = false ∨ config.exitTrigger.toNat ≤ 5 ∨
        (config.enabled ≠ 0 ∧ ctx.state.events.attached = false ∧ allocated = false) ∨
        (ctx.state.events.attached = decide (config.enabled ≠ 0) ∧
          ctx.state.events.categories = config.categories) := by
  have hsame : SameEventConfig ctx ctx := ⟨rfl, rfl, rfl, rfl, rfl, rfl⟩
  unfold handleSetEventConfig
  cases copied with
  | false => exact iff_of_true (.inr hsame) (.inl rfl)
  | true =>
    rw [if_neg (by decide)]
    rcases ctx.reconfigureEvents_cases config allocated with
      ⟨hnone, hrefused⟩ | ⟨es, hsome, hcategories, hattached, haccepted⟩
    · rw [hnone]
      exact iff_of_true (.inr hsame) (.inr (.inr (.inl hrefused)))
    rw [hsome]
    dsimp only
    cases htrigger : ExitTrigger.ofCode config.exitTrigger.toNat with
    | some trigger =>
      have hcode : config.exitTrigger.toNat ≤ 5 := by
        by_contra hlarge
        rw [(ofCode_eq_none_iff _).mpr (Nat.not_le.mp hlarge)] at htrigger
        cases htrigger
      exact iff_of_true (.inl rfl) (.inr (.inl hcode))
    | none =>
      have hcode := (ofCode_eq_none_iff _).mp htrigger
      rw [← hattached, ← hcategories]
      constructor
      · rintro (hok | hkept)
        · cases hok
        · exact .inr (.inr (.inr ⟨hkept.attached.symm, hkept.categories.symm⟩))
      rintro (hcopied | hvalid | hrefused | ⟨hkept, hkept'⟩)
      · cases hcopied
      · exact absurd hcode (Nat.not_lt.mpr hvalid)
      · exact absurd hrefused haccepted
      · exact .inr ⟨hkept.symm, hkept'.symm, rfl, rfl, rfl, rfl⟩

end VmContext

/-- A call with an unknown trigger fails and has attached a buffer. -/
theorem refused_config_attaches :
    let r := newVm.handleSetEventConfig ⟨1, EventKind.exit.category, 6, 0, 0, 0⟩ true true
    r.1 = .error .einval ∧ r.2.state.events.attached ≠ newVm.state.events.attached := by
  decide +kernel

/-! ## Checkpoints -/

namespace VmContext

variable (ctx : VmContext)

/-- The index of the checkpoint that an exit under this configuration belongs to. -/
def checkpoint (deterministic : Bool) : Option Nat :=
  let capture := ctx.state.capture
  if ctx.beforeExitStart = false ∧ capture.exitTrigger = .checkpoints ∧ deterministic = true ∧
      capture.exitTargetTsc ≠ 0 then
    some (ctx.state.clock.emulatedTsc / capture.exitTargetTsc)
  else none

theorem writeExitRecord_capture (reason : ExitReason) (qual : UInt64) (flags : UInt32) :
    (ctx.writeExitRecord reason qual flags).state.capture = ctx.state.capture := by
  unfold writeExitRecord
  split <;> rfl

/-- `capture_exit` keeps the largest index so far, and changes nothing else of the
configuration but `exit_captured`. -/
theorem captureExit_capture (reason : ExitReason) (qual : UInt64) (deterministic : Bool) :
    ∃ captured, (ctx.captureExit reason qual deterministic).state.capture =
      { ctx.state.capture with
        exitCaptured := captured
        lastCheckpointIdx :=
          max ctx.state.capture.lastCheckpointIdx ((ctx.checkpoint deterministic).getD 0) } := by
  have hkept : (ctx.checkpoint deterministic).getD 0 ≤ ctx.state.capture.lastCheckpointIdx →
      ∃ captured, ctx.state.capture = { ctx.state.capture with
        exitCaptured := captured
        lastCheckpointIdx :=
          max ctx.state.capture.lastCheckpointIdx ((ctx.checkpoint deterministic).getD 0) } := by
    intro hle
    rw [Nat.max_eq_left hle]
    exact ⟨_, rfl⟩
  have hother : ctx.state.capture.exitTrigger ≠ .checkpoints →
      (ctx.checkpoint deterministic).getD 0 ≤ ctx.state.capture.lastCheckpointIdx := by
    intro hne
    simp [checkpoint, hne]
  unfold captureExit
  dsimp only
  split
  next hstart => exact hkept (by simp [checkpoint, hstart])
  next hstart =>
    split
    next htrigger => exact hkept (hother (by simp [htrigger]))
    next htrigger => exact hkept (hother (by simp [htrigger]))
    next htrigger =>
      split
      next hdet =>
        rw [Bool.not_eq_true'] at hdet
        exact hkept (by simp [checkpoint, hdet])
      next hdet =>
        split
        next htarget => exact hkept (by simp [checkpoint, htarget])
        next htarget =>
          have hindex : ctx.checkpoint deterministic =
              some (ctx.state.clock.emulatedTsc / ctx.state.capture.exitTargetTsc) := by
            simp_all [checkpoint]
          rw [hindex] at hkept ⊢
          split
          next hdue =>
            rw [writeExitRecord_capture, Option.getD_some, Nat.max_eq_right (Nat.le_of_lt hdue)]
            exact ⟨_, rfl⟩
          next hdue => exact hkept (Nat.not_lt.mp hdue)
    next htrigger =>
      have hle := hother (by simp [htrigger])
      split
      · exact hkept hle
      split
      · exact hkept hle
      · rw [Nat.max_eq_left hle]
        exact ⟨true, rfl⟩
    next htrigger =>
      rw [writeExitRecord_capture]
      exact hkept (hother (by simp [htrigger]))
    next htrigger =>
      have hle := hother (by simp [htrigger])
      split
      · exact hkept hle
      split
      · exact hkept hle
      · rw [writeExitRecord_capture]
        exact hkept hle

end VmContext

/-- A configuration, an exit that is offered to `capture_exit`, or anything else. -/
inductive CaptureMove
  | configure (config : BedrockEventConfig) (copied allocated : Bool)
  | exit (reason : ExitReason) (qual : UInt64) (deterministic : Bool)
  | other

abbrev CaptureStep : Type := Transition VmContext CaptureMove

namespace CaptureStep

/-- The step does what the code does; what is neither of the two touches at most
`exit_captured`. -/
inductive Valid : CaptureStep → Prop
  | configure (ctx : VmContext) (config : BedrockEventConfig) (copied allocated : Bool) :
      Valid ⟨ctx, .configure config copied allocated,
        (ctx.handleSetEventConfig config copied allocated).2⟩
  | exit (ctx : VmContext) (reason : ExitReason) (qual : UInt64) (deterministic : Bool) :
      Valid ⟨ctx, .exit reason qual deterministic, ctx.captureExit reason qual deterministic⟩
  | other {ctx ctx' : VmContext} (captured : Bool)
      (h : ctx'.state.capture = { ctx.state.capture with exitCaptured := captured }) :
      Valid ⟨ctx, .other, ctx'⟩

/-- The index of the checkpoint this step is about. -/
def checkpoint (t : CaptureStep) : Option Nat :=
  match t.label with
  | .exit _ _ deterministic => t.pre.checkpoint deterministic
  | _ => none

def Between (t : CaptureStep) : Prop :=
  match t.label with
  | .configure .. => False
  | .exit _ _ deterministic => deterministic = false
  | .other => True

variable {t : CaptureStep}

theorem Valid.lastCheckpointIdx (h : t.Valid) :
    t.post.state.capture.lastCheckpointIdx =
      max t.pre.state.capture.lastCheckpointIdx (t.checkpoint.getD 0) := by
  cases h with
  | configure ctx config copied allocated =>
    refine Eq.trans ?_ (Nat.max_zero _).symm
    dsimp only [VmContext.handleSetEventConfig]
    split
    · rfl
    split
    · rfl
    · split <;> rfl
  | exit ctx reason qual deterministic =>
    obtain ⟨captured, hcapture⟩ := ctx.captureExit_capture reason qual deterministic
    exact congrArg CaptureConfig.lastCheckpointIdx hcapture
  | other captured h =>
    exact (congrArg CaptureConfig.lastCheckpointIdx h).trans (Nat.max_zero _).symm

/-- Between two deterministic exits the configuration stays. -/
theorem Valid.between (h : t.Valid) (hbetween : t.Between) :
    ∃ captured, t.post.state.capture = { t.pre.state.capture with exitCaptured := captured } := by
  cases h with
  | configure ctx config copied allocated => exact hbetween.elim
  | exit ctx reason qual deterministic =>
    obtain rfl : deterministic = false := hbetween
    obtain ⟨captured, hcapture⟩ := ctx.captureExit_capture reason qual false
    refine ⟨captured, hcapture.trans ?_⟩
    simp [VmContext.checkpoint]
  | other captured h => exact ⟨captured, h⟩

end CaptureStep

section

variable {ctx first second : VmContext} {before between : List CaptureStep}

/-- The index is below a bound exactly if those of all earlier checkpoints are. -/
theorem lastCheckpointIdx_lt_iff (hwalk : Walk ctx before first) (hvalid : ∀ t ∈ before, t.Valid)
    (bound : Nat) :
    first.state.capture.lastCheckpointIdx < bound ↔
      ctx.state.capture.lastCheckpointIdx < bound ∧ ∀ t ∈ before, t.checkpoint.getD 0 < bound := by
  induction before generalizing ctx with
  | nil =>
    obtain rfl : ctx = first := hwalk
    simp
  | cons t before ih =>
    obtain ⟨rfl, hrest⟩ := hwalk
    obtain ⟨ht, hlater⟩ := forall_mem_cons.mp hvalid
    rw [ih hrest hlater, ht.lastCheckpointIdx, max_lt_iff, forall_mem_cons, and_assoc]

end

def checkpointsEvery (interval : UInt64) : BedrockEventConfig :=
  ⟨1, EventKind.exit.category, 4, 0, interval, 0⟩

def VmContext.exitAt (ctx : VmContext) (tsc : Nat) : VmContext :=
  ctx.setClock { ctx.state.clock with emulatedTsc := tsc }

def everyTen : VmContext :=
  (newVm.handleSetEventConfig (checkpointsEvery 10) true true).2

theorem exitAt_valid (ctx : VmContext) (tsc : Nat) :
    CaptureStep.Valid ⟨ctx, .other, ctx.exitAt tsc⟩ :=
  .other _ rfl

def everyThousand : VmContext :=
  (((everyTen.exitAt 100).captureExit .hlt 0 true).handleSetEventConfig
    (checkpointsEvery 1000) true true).2

end Bedrock
