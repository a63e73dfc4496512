import Bedrock.Lab.Branch
import Bedrock.Support.Lookahead

/-!
# Scheduling the inputs of a source

`run_until` pulls I/O inputs from the source of a branch one ahead, and offers each to the
VM when its time has come.  Whatever the targets and the exits are, the VM gets the inputs
in the order of the source, each once and not too early.

A branch of a checkpoint takes over the look-ahead of the checkpoint.  For a branch with a
source of its own that is the look-ahead of another source.
-/

namespace Bedrock

open Support Lookahead Program List Built

/-! ## What is pulled and offered -/

abbrev InputCall : Type :=
  Lookahead.Call IoInput VirtTime

def IoInput.Due (now : VirtTime) (input : IoInput) : Prop :=
  ¬now < input.startsAt

namespace Branch

variable {S : Type} [InputSource S]

/-- The call of `pullInput`. -/
def pullCalls (b : Branch S) : List InputCall :=
  match b.inputSource with
  | none => []
  | some source => [.pulled (InputSource.nextIoInput source).1]

/-- The calls of `dueInput`. -/
def dueCalls (b : Branch S) : List InputCall :=
  if b.inputIoExhausted ∨ b.pendingInputIo.isSome then [] else b.pullCalls

/-- The calls of `submitInput`. -/
def submitCalls (b : Branch S) (input : IoInput) (host : QueueHost) : List InputCall :=
  match b.vm.queueIoAction input.action.data input.action.targetTsc host with
  | (.ok (), vm) => .offered input b.currentTime true :: { b with vm }.pullCalls
  | (.error _, _) => [.offered input b.currentTime false]

/-- The calls of `prepareNextIoInput`. -/
def prepareCalls (b : Branch S) (target : VirtTime) (host : QueueHost) : List InputCall :=
  b.dueCalls ++
    match b.dueInput target with
    | .inl _ => []
    | .inr (input, b) => b.submitCalls input host

abbrev Slot : Option IoInput → List InputCall → Option IoInput → Prop :=
  Lookahead.Slot IoInput.Due

theorem pullInput_slot {b : Branch S} (h : b.pendingInputIo = none) :
    Slot none b.pullCalls b.pullInput.2.pendingInputIo ∧
      b.pullInput.1 = b.pullInput.2.pendingInputIo := by
  cases hsource : b.inputSource with
  | none =>
    simp only [pullCalls, pullInput, hsource, h]
    exact ⟨.nil none, trivial⟩
  | some source =>
    simp only [pullCalls, pullInput, hsource]
    exact ⟨.pulled (.nil _), trivial⟩

theorem inputAtHand_slot {b : Branch S} (h : b.inputIoExhausted = false) :
    Slot b.pendingInputIo b.dueCalls b.inputAtHand.2.pendingInputIo ∧
      b.inputAtHand.1 = b.inputAtHand.2.pendingInputIo := by
  unfold dueCalls inputAtHand
  cases hpending : b.pendingInputIo with
  | none =>
    rw [if_neg (by simp [h])]
    exact pullInput_slot hpending
  | some input =>
    rw [if_pos (by simp)]
    dsimp only
    rw [hpending]
    exact ⟨.nil _, rfl⟩

theorem dueInput_inl {b b' : Branch S} {target : VirtTime} {r : Except LabError VirtTime}
    (h : b.dueInput target = .inl (r, b')) : Slot b.pendingInputIo b.dueCalls b'.pendingInputIo := by
  unfold dueInput at h
  split at h
  · rename_i hexhausted
    cases h
    rw [dueCalls, if_pos (.inl hexhausted)]
    exact .nil _
  rename_i hexhausted
  have hslot := (inputAtHand_slot (b := b) (by simpa using hexhausted)).1
  rcases hhand : b.inputAtHand with ⟨_ | input, b₁⟩
  · rw [hhand] at h hslot
    cases h
    exact hslot
  rw [hhand] at h hslot
  dsimp only at h
  split at h
  · cases h
    exact hslot
  split at h
  · cases h
    exact hslot
  split at h
  · cases h
    exact hslot
  · cases h

theorem dueInput_inr {b b' : Branch S} {target : VirtTime} {input : IoInput}
    (h : b.dueInput target = .inr (input, b')) :
    Slot b.pendingInputIo b.dueCalls (some input) ∧ b'.pendingInputIo = none ∧
      input.Due b'.currentTime := by
  unfold dueInput at h
  split at h
  · cases h
  rename_i hexhausted
  obtain ⟨hslot, hsome⟩ := inputAtHand_slot (b := b) (by simpa using hexhausted)
  rcases hhand : b.inputAtHand with ⟨_ | i, b₁⟩
  · rw [hhand] at h
    cases h
  rw [hhand] at h hslot hsome
  dsimp only at h hsome
  split at h
  · cases h
  split at h
  · cases h
  split at h
  · cases h
  rename_i hnow
  cases h
  exact ⟨hsome ▸ hslot, rfl, hnow⟩

theorem submitInput_slot {b : Branch S} {input : IoInput} (target : VirtTime) (host : QueueHost)
    (hpending : b.pendingInputIo = none) (hdue : input.Due b.currentTime) :
    ∃ w, Slot (some input) (b.submitCalls input host) w ∧
      ∀ stop b', b.submitInput input target host = (.ok stop, b') → b'.pendingInputIo = w := by
  unfold submitCalls submitInput
  rcases b.vm.queueIoAction input.action.data input.action.targetTsc host with ⟨e | u, vm⟩
  · refine ⟨some input, .refused hdue (.nil _), fun stop b' h => ?_⟩
    split at h
    · rename_i heq
      cases heq
    · cases h
      rfl
    · cases h
  · have hslot := (pullInput_slot (b := { b with vm }) hpending).1
    refine ⟨_, .accepted hdue hslot, fun stop b' h => ?_⟩
    change ({ b with vm } : Branch S).stopForNext target = (.ok stop, b') at h
    unfold stopForNext at h
    rcases hpull : ({ b with vm } : Branch S).pullInput with ⟨_ | next, b₁⟩
    · rw [hpull] at h
      cases h
      rfl
    rw [hpull] at h
    dsimp only at h
    split at h
    · cases h
    · cases h
      rfl

theorem prepareNextIoInput_slot (b : Branch S) (target : VirtTime) (host : QueueHost) :
    ∃ w, Slot b.pendingInputIo (b.prepareCalls target host) w ∧
      ∀ stop b', b.prepareNextIoInput target host = (.ok stop, b') → b'.pendingInputIo = w := by
  unfold prepareCalls prepareNextIoInput
  rcases hdue : b.dueInput target with ⟨r, b₁⟩ | ⟨input, b₁⟩
  · refine ⟨b₁.pendingInputIo, ?_, fun stop b' h => ?_⟩
    · rw [append_nil]
      exact dueInput_inl hdue
    · cases h
      rfl
  · obtain ⟨hslot, hpending, hnow⟩ := dueInput_inr hdue
    obtain ⟨w, hsubmit, hend⟩ := submitInput_slot target host hpending hnow
    exact ⟨w, hslot.append hsubmit, hend⟩

end Branch

namespace Lab

namespace Branch

variable {S : Type}

/-! ## What a turn keeps -/

/-- After `prepare_next_io_input`, a turn leaves the look-ahead alone. -/
structure Kept (b b' : Branch S) : Prop where
  pendingInputIo : b'.pendingInputIo = b.pendingInputIo
  inputIoExhausted : b'.inputIoExhausted = b.inputIoExhausted
  tscFrequency : b'.tscFrequency = b.tscFrequency

variable (b : Branch S)

theorem Kept.refl : Kept b b :=
  ⟨rfl, rfl, rfl⟩

theorem Kept.trans {b b' b'' : Branch S} (h : Kept b b') (h' : Kept b' b'') : Kept b b'' :=
  ⟨h'.pendingInputIo.trans h.pendingInputIo, h'.inputIoExhausted.trans h.inputIoExhausted,
    h'.tscFrequency.trans h.tscFrequency⟩

/-- Two branches that differ at most in what they have read from the VM and report. -/
structure SameRun (b b' : Branch S) : Prop where
  toBranch : b.toBranch = b'.toBranch
  lastStopAt : b.lastStopAt = b'.lastStopAt
  eventConfig : b.eventConfig = b'.eventConfig
  eventMapped : b.eventMapped = b'.eventMapped

namespace SameRun

theorem refl (b : Branch S) : SameRun b b :=
  ⟨rfl, rfl, rfl, rfl⟩

theorem symm {b b' : Branch S} (h : SameRun b b') : SameRun b' b :=
  ⟨h.toBranch.symm, h.lastStopAt.symm, h.eventConfig.symm, h.eventMapped.symm⟩

theorem trans {b b' b'' : Branch S} (h : SameRun b b') (h' : SameRun b' b'') : SameRun b b'' :=
  ⟨h.toBranch.trans h'.toBranch, h.lastStopAt.trans h'.lastStopAt,
    h.eventConfig.trans h'.eventConfig, h.eventMapped.trans h'.eventMapped⟩

end SameRun

/-- The actions a turn is made of, that of `prepare_next_io_input` apart. -/
structure TurnAction (α : Type) (f : Branch S → α × Branch S) : Prop where
  kept : Keeping Kept α f
  alike : Alike SameRun α f

/-- An action on the part of a branch that two runs agree on. -/
theorem TurnAction.base {α : Type} {g : Bedrock.Branch S → α × Bedrock.Branch S}
    (hpending : ∀ b, (g b).2.pendingInputIo = b.pendingInputIo)
    (hexhausted : ∀ b, (g b).2.inputIoExhausted = b.inputIoExhausted)
    (hfreq : ∀ b, (g b).2.tscFrequency = b.tscFrequency) :
    TurnAction α fun b : Branch S => ((g b.toBranch).1, { b with toBranch := (g b.toBranch).2 }) where
  kept b := ⟨hpending b.toBranch, hexhausted b.toBranch, hfreq b.toBranch⟩
  alike b b' h := by
    dsimp only
    rw [h.toBranch]
    exact ⟨rfl, rfl, h.lastStopAt, h.eventConfig, h.eventMapped⟩

/-- An action that changes only what is reported. -/
theorem TurnAction.report {g : Branch S → Branch S} (h : ∀ b, SameRun (g b) b) :
    TurnAction Unit fun b => ((), g b) where
  kept b := by
    have hb := (h b).toBranch
    exact ⟨congrArg Bedrock.Branch.pendingInputIo hb, congrArg Bedrock.Branch.inputIoExhausted hb,
      congrArg Bedrock.Branch.tscFrequency hb⟩
  alike b b' hsame := ⟨rfl, (h b).trans (hsame.trans (h b').symm)⟩

instance {α : Type} (operation : VmOperation) (call : VmContext → Except IoError α × VmContext) :
    Built TurnAction (callVm operation call : Act S α) :=
  .mapExit _ (.call (.base (g := fun b => ((call b.vm).1, { b with vm := (call b.vm).2 }))
    (fun _ => rfl) (fun _ => rfl) fun _ => rfl))

theorem built_read {α : Type} (f : Bedrock.Branch S → Option (Option Nat) → α) :
    Built TurnAction (read fun b : Branch S => f b.toBranch b.lastStopAt : Act S α) := by
  refine .act ⟨fun b => .refl b, fun b b' h => ⟨?_, h⟩⟩
  dsimp only
  rw [h.toBranch, h.lastStopAt]

instance : Built TurnAction (read fun b : Branch S => b.lastStopAt : Act S _) :=
  built_read fun _ stop => stop

instance : Built TurnAction (read fun b : Branch S => b.tscFrequency : Act S _) :=
  built_read fun b _ => b.tscFrequency

instance (value : Option Nat) :
    Built TurnAction
      (update fun b : Branch S => { b with lastStopAt := some value } : Act S Unit) :=
  .act ⟨fun _ => ⟨rfl, rfl, rfl⟩, fun _ _ h =>
    ⟨rfl, h.toBranch, rfl, h.eventConfig, h.eventMapped⟩⟩

instance (value : Option Nat) (copied : Bool) :
    Built TurnAction (setStopAt value copied : Act S Unit) := by
  unfold setStopAt
  infer_instance

instance (t : VirtTime) : Built TurnAction (advanceTime t : Act S Unit) :=
  .act (.base (g := fun b => ((), { b with currentTime := t })) (fun _ => rfl) (fun _ => rfl)
    fun _ => rfl)

theorem drainRecord_sameRun (r : EventRecord) : SameRun (b.drainRecord r) b := by
  unfold drainRecord
  split
  all_goals exact ⟨rfl, rfl, rfl, rfl⟩

theorem drainRecords_sameRun (rs : List EventRecord) :
    SameRun (rs.foldl drainRecord b) b := by
  induction rs generalizing b with
  | nil => exact .refl b
  | cons r rs ih => exact (ih (b.drainRecord r)).trans (drainRecord_sameRun b r)

instance (eventLen : Nat) : Built TurnAction (drainEvents eventLen : Act S Unit) := by
  refine .act (.report fun b => ?_)
  split
  · exact .refl b
  · exact drainRecords_sameRun b _

instance (turn : Turn) : Built TurnAction (runVm turn : Act S VmExit) := by
  unfold runVm
  infer_instance

instance {α : Type} (question : S → α × S) :
    Built TurnAction (askSource question : Act S (Option α)) :=
  .act (.base (g := fun b => (b.inputSource.map fun source => (question source).1,
    { b with inputSource := b.inputSource.map fun source => (question source).2 }))
    (fun _ => rfl) (fun _ => rfl) fun _ => rfl)

instance (turn : Turn) : Built TurnAction (randomRequest turn : Act S _) := by
  unfold randomRequest
  infer_instance

instance (turn : Turn) : Built TurnAction (onFeedbackBufferRegistered turn : Act S Unit) := by
  unfold onFeedbackBufferRegistered
  infer_instance

instance (turn : Turn) : Built TurnAction (drainIoResponse turn : Act S _) := by
  unfold drainIoResponse
  infer_instance

instance (resp : List UInt8) (output : VmContext → Except IoError (List (List UInt8)) × VmContext) :
    Built TurnAction (bashOutputFromResponse resp output : Act S _) := by
  unfold bashOutputFromResponse
  split
  all_goals infer_instance

variable [InputSource S]

instance (turn : Turn) : Built TurnAction (feedRng turn : Act S _) := by
  refine .bind inferInstance fun answer => ?_
  rcases answer with _ | _ | value
  all_goals infer_instance

instance (turn : Turn) : Built TurnAction (feedRandom turn : Act S _) := by
  refine .bind inferInstance fun request => .bind inferInstance fun answer => ?_
  rcases answer with _ | bytes
  all_goals infer_instance

instance (target : VirtTime) (exit : VmExit) (turn : Turn) :
    Built TurnAction (serve target exit turn : Act S _) := by
  unfold serve
  split
  · exact built_read fun b _ => if b.currentTime < target then none else some RunOutcome.reachedTime
  all_goals infer_instance

/-- The part of a turn after `prepare_next_io_input`. -/
def afterPrepare (target : VirtTime) (turn : Turn) (stopAt : VirtTime) :
    Act S (Option (VirtTime × RunOutcome)) := do
  setStopAt (some stopAt.instructions) turn.stopCopied
  let exit ← runVm turn
  let outcome ← serve target exit turn
  read fun b : Branch S => outcome.map fun o => (b.currentTime, o)

theorem runTurn_eq (target : VirtTime) (turn : Turn) :
    (runTurn target turn : Act S _) =
      (onInputs fun b : Bedrock.Branch S => b.prepareNextIoInput target turn.queue) >>=
        afterPrepare target turn := rfl

theorem runTurn_of_prepare {target stopAt : VirtTime} {turn : Turn} {b : Branch S}
    {base : Bedrock.Branch S}
    (h : b.toBranch.prepareNextIoInput target turn.queue = (.ok stopAt, base)) :
    runTurn target turn b = afterPrepare target turn stopAt { b with toBranch := base } := by
  rw [runTurn_eq]
  apply bind_ok
  exact onInputs_eq_ok_iff.mpr ⟨base, h, rfl⟩

instance (target : VirtTime) (turn : Turn) (stopAt : VirtTime) :
    Built TurnAction (afterPrepare target turn stopAt : Act S _) :=
  .bind inferInstance fun _ => .bind inferInstance fun _ => .bind inferInstance fun outcome =>
    built_read fun b _ => outcome.map fun o => (b.currentTime, o)

theorem afterPrepare_kept (target : VirtTime) (turn : Turn) (stopAt : VirtTime) (b : Branch S) :
    Kept b (afterPrepare target turn stopAt b).2 :=
  rel (A := TurnAction) Kept.refl Kept.trans (fun _ h => h.kept) inferInstance b

/-! ## Calls of a run -/

def turnCalls (target : VirtTime) (turn : Turn) (b : Branch S) : List InputCall :=
  b.toBranch.prepareCalls target turn.queue

/-- The calls of `run_until`. -/
def runUntilCalls (target : VirtTime) (turns : List Turn) (b : Branch S) : List InputCall :=
  if target.frequency ≠ b.tscFrequency ∨ target < b.currentTime ∨ target = b.currentTime then []
  else driveTrace (turnCalls target) (runTurn target) turns b

/-- The calls of one `run_until` after the other, up to one that fails or is still
running. -/
def sessionCalls : List (VirtTime × List Turn) → Branch S → List InputCall
  | [], _ => []
  | (target, turns) :: ops, b => runUntilCalls target turns b ++
    match runUntil target turns b with
    | (.ok (some _), b') => sessionCalls ops b'
    | _ => []

theorem runTurn_slot {target : VirtTime} {turn : Turn} {w : Option IoInput} {log : List InputCall}
    {b : Branch S} (h : Bedrock.Branch.Slot w log b.pendingInputIo) :
    (∃ w', Bedrock.Branch.Slot w (log ++ turnCalls target turn b) w') ∧
      ∀ r b', runTurn target turn b = (.ok r, b') →
        Bedrock.Branch.Slot w (log ++ turnCalls target turn b) b'.pendingInputIo := by
  obtain ⟨w', hslot, hend⟩ := b.toBranch.prepareNextIoInput_slot target turn.queue
  have hlog := h.append hslot
  refine ⟨⟨w', hlog⟩, fun r b' hrun => ?_⟩
  rw [runTurn_eq] at hrun
  obtain ⟨stopAt, b₁, hprepare, hafter⟩ := Program.bind_eq_ok_iff.mp hrun
  have hb₁ : b₁.pendingInputIo = w' := by
    obtain ⟨base, hbase, rfl⟩ := onInputs_eq_ok_iff.mp hprepare
    exact hend stopAt base hbase
  have hkept := (afterPrepare_kept target turn stopAt b₁).pendingInputIo
  rw [hafter] at hkept
  rw [hkept, hb₁]
  exact hlog

section Notes

variable {I : List InputCall → Branch S → Prop} {J : List InputCall → Prop} {log : List InputCall}
  {b : Branch S}

theorem runUntil_notes (hI : ∀ {log b}, I log b → J log)
    (hturn : ∀ target turn log b, I log b → J (log ++ turnCalls target turn b) ∧
      ∀ r b', runTurn target turn b = (.ok r, b') → I (log ++ turnCalls target turn b) b')
    (target : VirtTime) (turns : List Turn) (h : I log b) :
    J (log ++ runUntilCalls target turns b) ∧
      ∀ r b', runUntil target turns b = (.ok r, b') → I (log ++ runUntilCalls target turns b) b' := by
  rw [runUntil_eq]
  unfold runUntilCalls
  by_cases hfreq : target.frequency ≠ b.tscFrequency
  · rw [if_pos hfreq, if_pos (.inl hfreq), append_nil]
    exact ⟨hI h, fun r b' hrun => absurd (congrArg Prod.fst hrun) (by simp)⟩
  by_cases hpast : target < b.currentTime
  · rw [if_neg hfreq, if_pos hpast, if_pos (.inr (.inl hpast)), append_nil]
    exact ⟨hI h, fun r b' hrun => absurd (congrArg Prod.fst hrun) (by simp)⟩
  by_cases hnow : target = b.currentTime
  · rw [if_neg hfreq, if_neg hpast, if_pos hnow, if_pos (.inr (.inr hnow)), append_nil]
    refine ⟨hI h, fun r b' hrun => ?_⟩
    cases hrun
    exact h
  · rw [if_neg hfreq, if_neg hpast, if_neg hnow, if_neg (by tauto)]
    exact drive_notes hI (fun turn _ log b => hturn target turn log b) h

theorem sessionCalls_notes (hI : ∀ {log b}, I log b → J log)
    (hturn : ∀ target turn log b, I log b → J (log ++ turnCalls target turn b) ∧
      ∀ r b', runTurn target turn b = (.ok r, b') → I (log ++ turnCalls target turn b) b')
    (ops : List (VirtTime × List Turn)) (h : I log b) : J (log ++ sessionCalls ops b) := by
  induction ops generalizing log b with
  | nil => exact hI ((append_nil log).symm ▸ h)
  | cons op ops ih =>
    obtain ⟨target, turns⟩ := op
    obtain ⟨hany, hok⟩ := runUntil_notes (I := I) (J := J) hI hturn target turns h
    rw [sessionCalls, ← append_assoc]
    split
    · rename_i b' hrun
      exact ih (hok _ _ hrun)
    · rw [append_nil]
      exact hany

end Notes

theorem sessionCalls_slot (ops : List (VirtTime × List Turn)) (b : Branch S) :
    ∃ w, Bedrock.Branch.Slot b.pendingInputIo (sessionCalls ops b) w := by
  have hnotes := sessionCalls_notes
    (I := fun log (b' : Branch S) => Bedrock.Branch.Slot b.pendingInputIo log b'.pendingInputIo)
    (J := fun log => ∃ w, Bedrock.Branch.Slot b.pendingInputIo log w) (fun h => ⟨_, h⟩)
    (fun target turn log b' h => runTurn_slot h) ops (.nil b.pendingInputIo)
  rwa [nil_append] at hnotes

end Branch

end Lab

end Bedrock
