import Bedrock.Lab.Tree
import Bedrock.Support.Raises
import Mathlib.Data.List.TakeWhile

/-!
# Which ancestor a rewind finds, and where it ends

`rewind` looks for an ancestor among the checkpoints that it can reach over live ones: a
checkpoint that was dropped hides everything above it.  From the ancestor it replays with
`run_until`, and takes a checkpoint wherever that returns.
-/

namespace Bedrock

open Support Program Branch List Option LabError Checkpoint InputSource

namespace Lab

/-- An error that is not about a missing checkpoint. -/
def LabError.Found (e : LabError) : Prop :=
  ∀ t, e ≠ .noCheckpointBefore t

namespace Branch

variable {S : Type}

instance {α : Type} (operation : VmOperation) (call : VmContext → Except IoError α × VmContext) :
    Raises LabError.Found (callVm operation call : Act S α) :=
  .mapExit fun _ _ => nofun

instance {α : Type} (m : Bedrock.Branch S → Except Bedrock.LabError α × Bedrock.Branch S) :
    Raises LabError.Found (onInputs m : Act S α) :=
  .mapExit fun _ _ => nofun

instance (freq : Nat) : Raises LabError.Found (checkFreq freq : Act S Unit) := by
  unfold checkFreq
  infer_instance

instance (value : Option Nat) (copied : Bool) :
    Raises LabError.Found (setStopAt value copied : Act S Unit) := by
  unfold setStopAt
  infer_instance

instance (turn : Turn) : Raises LabError.Found (runVm turn : Act S VmExit) := by
  unfold runVm advanceTime drainEvents
  infer_instance

instance {α : Type} (question : S → α × S) :
    Raises Found (askSource question : Act S (Option α)) := by
  unfold askSource
  infer_instance

instance (resp : List UInt8) (output : VmContext → Except IoError (List (List UInt8)) × VmContext) :
    Raises LabError.Found (bashOutputFromResponse resp output : Act S BashOutput) := by
  unfold bashOutputFromResponse
  split
  · exact .exit fun _ => nofun
  · infer_instance

theorem enable_raises (force : Bool) (host : BranchHost) :
    Raises LabError.Found (enable force host : Act S Unit) := by
  have hmap : ∀ enabled mapped, Raises LabError.Found
      (mapEventBuffer enabled mapped : Act S Unit) := by
    refine fun enabled mapped => ⟨fun {b b' e} h t => ?_⟩
    unfold mapEventBuffer at h
    rw [call_apply] at h
    split at h
    · cases congrArg Prod.fst h
      nofun
    · cases congrArg Prod.fst h
  unfold enable forceExits applyEventConfig sendEventConfig
  infer_instance

variable [InputSource S]

instance (turn : Turn) : Raises LabError.Found (feedRng turn : Act S FeedRng) := by
  refine .bind inferInstance fun answer => ?_
  rcases answer with _ | _ | value
  all_goals infer_instance

instance (turn : Turn) : Raises LabError.Found (feedRandom turn : Act S FeedRng) := by
  unfold feedRandom randomRequest
  refine .bind inferInstance fun request => .bind inferInstance fun answer => ?_
  rcases answer with _ | bytes
  all_goals infer_instance

instance (target : VirtTime) (exit : VmExit) (turn : Turn) :
    Raises LabError.Found (serve target exit turn : Act S (Option RunOutcome)) := by
  unfold serve onFeedbackBufferRegistered drainIoResponse
  split
  all_goals infer_instance

instance (target : VirtTime) (turn : Turn) :
    Raises LabError.Found (runTurn target turn : Act S (Option (VirtTime × RunOutcome))) := by
  unfold runTurn
  infer_instance

theorem runUntil_raises (target : VirtTime) (turns : List Turn) :
    Raises LabError.Found (runUntil target turns : Act S (Option (VirtTime × RunOutcome))) := by
  have hpast : ∀ now, Raises LabError.Found (Program.exit (.targetInPast now target) :
      Act S (Option (VirtTime × RunOutcome))) :=
    fun now => .exit fun _ => nofun
  unfold runUntil
  infer_instance

end Branch

variable {turns : List Turn}

namespace LabInner

variable {S : Type} {lab : LabInner S}

/-! ## The ancestors that can be reached -/

def ancestors (lab : LabInner S) (id : Nat) : List Nat :=
  Parents.chain lab.graph.parent (lab.registered.length + 1) id

theorem Forest.mem_ancestors_iff (h : lab.Forest) {id cp : Nat} (hid : id < lab.registered.length) :
    cp ∈ lab.ancestors id ↔
      Relation.ReflTransGen (fun child parent => lab.graph.parent child = some parent) id cp :=
  h.graded.mem_chain_iff (fun x y hxy => (h.bound x y hxy).2) hid

theorem lineage_eq {id : Nat} (h : lab.live id) :
    lab.lineage id = (lab.ancestors id).takeWhile lab.live :=
  Parents.chain_filter _ h

variable [InputSource S]

theorem replay_error {best : Nat} {target : VirtTime} {host : BranchHost}
    {e : LabError} (h : lab.replay best target host turns = .error e) : e.Found := by
  unfold replay at h
  split at h
  · cases h
  rename_i c _
  split at h
  · rename_i e' hbranch
    cases h
    unfold Checkpoint.branch Checkpoint.branchInner at hbranch
    split at hbranch
    · cases hbranch
      exact fun _ => nofun
    dsimp only at hbranch
    split at hbranch
    · rename_i heq
      cases hbranch
      exact (Branch.enable_raises false host).error heq
    · cases hbranch
  · rename_i b hb
    split at h
    · rename_i e' _ hrun
      cases h
      exact (Branch.runUntil_raises target turns).error hrun
    · cases h
    · cases h

/-- `rewind` reports that there is no checkpoint exactly if all it can reach are later than
the target. -/
theorem rewind_noCheckpointBefore_iff (lab : LabInner S) (id : Nat) (span : VirtDuration)
    (host : BranchHost) (turns : List Turn) :
    (lab.rewind id span host turns).1 = .error (.noCheckpointBefore (lab.time id - span)) ↔
      span.frequency = lab.tscFrequency ∧
        ∀ cp ∈ lab.lineage id, lab.time id - span < lab.time cp := by
  have hnone : lab.rewindCandidates id (lab.time id - span) = [] ↔
      ∀ cp ∈ lab.lineage id, lab.time id - span < lab.time cp := by
    simp [rewindCandidates, filter_eq_nil_iff]
  rw [← hnone]
  unfold rewind
  split
  · rename_i hfreq
    exact iff_of_false (fun h => by cases h) fun h => hfreq h.1
  rename_i hfreq
  rw [and_iff_right (not_not.mp hfreq)]
  dsimp only
  split
  · rename_i cp hcp
    refine iff_of_false (fun h => by cases h) fun h => ?_
    rw [h] at hcp
    cases hcp
  split
  · rename_i hmax
    exact iff_of_true rfl (argmax_eq_none.mp hmax)
  rename_i best hbest
  have hne : lab.rewindCandidates id (lab.time id - span) ≠ [] :=
    ne_nil_of_mem (argmax_mem hbest)
  split
  · rename_i e he
    refine iff_of_false (fun h => ?_) hne
    exact replay_error he _ (Except.error.inj h)
  all_goals exact iff_of_false (fun h => by cases h) hne

/-- In every lab, for every checkpoint that is alive: `rewind` reports that there is no
checkpoint only if no live ancestor is at or before the target, exactly if dropped
ancestors hide none.  A dropped ancestor hides those above it if all checkpoints below it
on the path are alive and later than the target. -/
theorem noCheckpointBefore_iff {P : VmStep → Prop} {c : Checkpoint S} {ops : List (LabOp S)}
    (hreal : ∀ op ∈ ops, op.Real P) {id : Nat}
    (hlive : ((initial c).perform ops).live id = true) (span : VirtDuration) (host : BranchHost)
    (turns : List Turn) :
    let lab := (initial c).perform ops
    let target := lab.time id - span
    ((lab.rewind id span host turns).1 = .error (.noCheckpointBefore target) →
        ∀ cp, Relation.ReflTransGen
          (fun child parent => lab.graph.parent child = some parent) id cp →
            lab.live cp = true → target < lab.time cp) ↔
      (span.frequency = lab.tscFrequency →
        ∀ below dropped above, lab.ancestors id = below ++ dropped :: above →
          (∀ cp ∈ below, lab.live cp = true ∧ target < lab.time cp) → lab.live dropped = false →
            ∀ cp ∈ above, lab.live cp = true → target < lab.time cp) := by
  intro lab target
  have hforest : lab.Forest := (forest_initial c).perform hreal
  have hmem : ∀ cp, cp ∈ lab.ancestors id ↔ _ := fun _ => hforest.mem_ancestors_iff (live_lt hlive)
  rw [rewind_noCheckpointBefore_iff, lineage_eq hlive]
  constructor
  · intro hclaim hfreq below dropped above hpath hbelow hdropped cp hcp hcplive
    refine hclaim ⟨hfreq, fun x hx => ?_⟩ cp ((hmem cp).mp ?_) hcplive
    · have hwhile : (lab.ancestors id).takeWhile lab.live = below := by
        rw [hpath, List.takeWhile_append_of_pos fun x hx => (hbelow x hx).1,
          List.takeWhile_cons_of_neg (by simp [hdropped]), List.append_nil]
      rw [hwhile] at hx
      exact (hbelow x hx).2
    · rw [hpath]
      exact List.mem_append_right _ (List.mem_cons_of_mem _ hcp)
  · rintro hcond ⟨hfreq, hlater⟩ cp hpath hcplive
    have hsplit := List.takeWhile_append_dropWhile (p := lab.live) (l := lab.ancestors id)
    have hcp := (hmem cp).mpr hpath
    rw [← hsplit] at hcp
    rcases List.mem_append.mp hcp with hcp | hcp
    · exact hlater cp hcp
    cases hrest : (lab.ancestors id).dropWhile lab.live with
    | nil =>
      rw [hrest] at hcp
      cases hcp
    | cons dropped above =>
      have hdropped : lab.live dropped = false := by
        have hhead := List.head_dropWhile_not lab.live (l := lab.ancestors id) (by simp [hrest])
        simpa [hrest] using hhead
      rw [hrest] at hsplit hcp
      rcases List.mem_cons.mp hcp with rfl | hcp
      · rw [hcplive] at hdropped
        cases hdropped
      · exact hcond hfreq _ dropped above hsplit.symm
          (fun x hx => ⟨List.mem_takeWhile_imp hx, hlater x hx⟩) hdropped cp hcp hcplive

/-- Checkpoints at 0, 10 and 20; the handle to the one at `id` is dropped. -/
def dropOps (id : Nat) : List (LabOp RecordedInputSource) :=
  [.branch 0 { fork := bareFork }, .perform 0 (.runUntil ⟨10, 1000⟩ [Turn.toStop]), .checkpoint 0,
    .branch 1 { fork := bareFork }, .perform 1 (.runUntil ⟨20, 1000⟩ [Turn.toStop]), .checkpoint 1,
    .dropCheckpoint id]

theorem dropOps_real (id : Nat) : ∀ op ∈ dropOps id, op.Real VmStep.CountsUp := by
  simp [dropOps, LabOp.Real, BranchOp.Real, Turn.toStop_real]

def dropLab (id : Nat) : LabInner RecordedInputSource :=
  (initial (Checkpoint.ofNewVm none)).perform (dropOps id)

/-- With the oldest checkpoint dropped there is none before 5. -/
theorem noCheckpointBefore_oldest :
    let target := (dropLab 0).time 2 - (⟨15, 1000⟩ : VirtDuration)
    target = ⟨5, 1000⟩ ∧
      ((dropLab 0).rewind 2 ⟨15, 1000⟩ { fork := bareFork } []).1 =
        .error (.noCheckpointBefore target) ∧
      ∀ cp, Relation.ReflTransGen
        (fun child parent => (dropLab 0).graph.parent child = some parent) 2 cp →
          (dropLab 0).live cp = true → target < (dropLab 0).time cp := by
  intro target
  have hlive : (dropLab 0).live 2 = true := by decide +kernel
  have hnone : ((dropLab 0).rewind 2 ⟨15, 1000⟩ { fork := bareFork } []).1 =
      .error (.noCheckpointBefore target) := by decide +kernel
  refine ⟨by decide +kernel, hnone,
    (noCheckpointBefore_iff (dropOps_real 0) hlive ⟨15, 1000⟩ { fork := bareFork } []).mpr ?_ hnone⟩
  intro _ below dropped above hsplit _ _ cp hcp hcplive
  have hmem : cp ∈ (dropLab 0).ancestors 2 := by
    rw [show (dropLab 0).ancestors 2 = _ from hsplit]
    exact List.mem_append_right _ (List.mem_cons_of_mem _ hcp)
  have hlater : ∀ cp ∈ (dropLab 0).ancestors 2, (dropLab 0).live cp = true →
      target < (dropLab 0).time cp := by decide +kernel
  exact hlater cp hmem hcplive

/-- With the one in between dropped, `rewind` does not find the oldest. -/
theorem dropped_checkpoint_hides_ancestor :
    ((dropLab 1).rewind 2 ⟨15, 1000⟩ { fork := bareFork } []).1 =
        .error (.noCheckpointBefore ⟨5, 1000⟩) ∧
      (dropLab 1).graph.parent 2 = some 1 ∧ (dropLab 1).graph.parent 1 = some 0 ∧
      (dropLab 1).live 0 = true ∧ (dropLab 1).time 0 ≤ ⟨5, 1000⟩ := by
  decide +kernel

end LabInner

/-! ## Where a replay ends -/

namespace Branch

variable {S : Type}

def SameTime (b b' : Branch S) : Prop :=
  b'.currentTime = b.currentTime ∧ b'.tscFrequency = b.tscFrequency

theorem SameTime.refl (b : Branch S) : SameTime b b :=
  ⟨rfl, rfl⟩

variable {b' b : Branch S} {turn : Turn} {target : VirtTime}

theorem SameTime.trans {b'' : Branch S} (h : SameTime b b') (h' : SameTime b' b'') :
    SameTime b b'' :=
  ⟨h'.1.trans h.1, h'.2.trans h.2⟩

instance {α : Type} (operation : VmOperation) (call : VmContext → Except IoError α × VmContext) :
    Obeys SameTime (callVm operation call : Act S α) :=
  .mapExit _ (.call fun _ => ⟨rfl, rfl⟩)

instance {α : Type} (f : Branch S → α) : Obeys SameTime (read f : Act S α) :=
  .act fun _ => ⟨rfl, rfl⟩

instance {α : Type} (question : S → α × S) :
    Obeys SameTime (askSource question : Act S (Option α)) :=
  .act fun _ => ⟨rfl, rfl⟩

instance (value : Option Nat) (copied : Bool) :
    Obeys SameTime (setStopAt value copied : Act S Unit) := by
  have hnote : Obeys SameTime
      (update fun b : Branch S => { b with lastStopAt := some value } : Act S Unit) :=
    .act fun _ => ⟨rfl, rfl⟩
  unfold setStopAt
  infer_instance

instance (resp : List UInt8) (output : VmContext → Except IoError (List (List UInt8)) × VmContext) :
    Obeys SameTime (bashOutputFromResponse resp output : Act S _) := by
  unfold bashOutputFromResponse
  split
  all_goals infer_instance

variable [InputSource S]

theorem serve_sameTime (target : VirtTime) (exit : VmExit) (turn : Turn) (b : Branch S) :
    SameTime b (serve target exit turn b).2 := by
  have hrng : Obeys SameTime (feedRng turn : Act S _) := by
    refine .bind inferInstance fun answer => ?_
    rcases answer with _ | _ | value
    all_goals infer_instance
  have hrandom : Obeys SameTime (feedRandom turn : Act S _) := by
    unfold feedRandom randomRequest
    refine .bind inferInstance fun request => .bind inferInstance fun answer => ?_
    rcases answer with _ | bytes
    all_goals infer_instance
  have hserve : Obeys SameTime (serve target exit turn : Act S _) := by
    unfold serve onFeedbackBufferRegistered drainIoResponse
    split
    all_goals infer_instance
  exact hserve.keeping SameTime.refl SameTime.trans b

/-- Whether `run_until` goes on after the exit, given the source of the branch then. -/
def goesOn (target : VirtTime) (e : VmExit × Option S) : Bool :=
  match e.1.kind with
  | .continue_ | .eventBufferFull | .feedbackBufferRegistered => true
  | .stopTscReached => e.1.emulatedTsc < target.instructions
  | .rdrand | .rdseed => (e.2.map fun source => (InputSource.nextRngU64 source).1).join.isSome
  | .vmcallGetRandom => e.2.isSome
  | _ => false

theorem feedRng_fed {result : FeedRng} (h : feedRng turn b = (.ok result, b')) (kind : ExitKind) :
    (result.outcome kind).isNone =
      (b.inputSource.map fun source => (InputSource.nextRngU64 source).1).join.isSome := by
  obtain ⟨answer, b₁, hask, hrest⟩ := bind_eq_ok_iff.mp h
  have hanswer : b.inputSource.map (fun source => (InputSource.nextRngU64 source).1) = answer :=
    Except.ok.inj (congrArg Prod.fst hask)
  rw [hanswer]
  rcases answer with _ | _ | value
  · cases hrest
    rfl
  · cases hrest
    rfl
  · obtain ⟨_, b₂, -, hend⟩ := bind_eq_ok_iff.mp hrest
    cases hend
    rfl

theorem feedRandom_fed {result : FeedRng}
    (h : feedRandom turn b = (.ok result, b')) (kind : ExitKind) :
    (result.outcome kind).isNone = b.inputSource.isSome := by
  obtain ⟨request, b₁, hrequest, hrest⟩ := bind_eq_ok_iff.mp h
  obtain ⟨vm, -, rfl⟩ := callVm_eq_ok_iff.mp hrequest
  obtain ⟨answer, b₂, hask, hrest⟩ := bind_eq_ok_iff.mp hrest
  have hanswer : b.inputSource.map (fun source =>
      (InputSource.nextRandom request.1 request.2 source).1) = answer :=
    Except.ok.inj (congrArg Prod.fst hask)
  rw [← isSome_map, hanswer]
  rcases answer with _ | bytes
  · cases hrest
    rfl
  obtain ⟨_, b₃, -, hend⟩ := bind_eq_ok_iff.mp hrest
  cases hend
  rfl

theorem serve_goesOn {exit : VmExit}
    {outcome : Option RunOutcome} (h : serve target exit turn b = (.ok outcome, b'))
    (htime : b.currentTime = ⟨exit.emulatedTsc, target.frequency⟩) :
    outcome.isNone = goesOn target (exit, b.inputSource) := by
  unfold serve at h
  unfold goesOn
  dsimp only
  cases hkind : exit.kind with
  | stopTscReached =>
    rw [hkind] at h
    have houtcome : (if b.currentTime < target then none else some .reachedTime) = outcome :=
      Except.ok.inj (congrArg Prod.fst h)
    have hlt : b.currentTime < target ↔ exit.emulatedTsc < target.instructions := by
      rw [htime]
      exact VirtTime.lt_iff rfl
    rw [← houtcome]
    by_cases hearly : exit.emulatedTsc < target.instructions
    · rw [if_pos (hlt.mpr hearly)]
      exact (decide_eq_true hearly).symm
    · rw [if_neg (mt hlt.mp hearly)]
      exact (decide_eq_false hearly).symm
  | ioResponse =>
    rw [hkind] at h
    obtain ⟨bytes, b₁, -, h⟩ := bind_eq_ok_iff.mp h
    obtain ⟨output, b₂, -, h⟩ := bind_eq_ok_iff.mp h
    cases h
    rfl
  | feedbackBufferRegistered =>
    rw [hkind] at h
    obtain ⟨_, b₁, -, h⟩ := bind_eq_ok_iff.mp h
    cases h
    rfl
  | rdrand | rdseed =>
    rw [hkind] at h
    obtain ⟨result, b₁, hfeed, h⟩ := bind_eq_ok_iff.mp h
    cases h
    exact feedRng_fed hfeed _
  | vmcallGetRandom =>
    rw [hkind] at h
    obtain ⟨result, b₁, hfeed, h⟩ := bind_eq_ok_iff.mp h
    cases h
    exact feedRandom_fed hfeed _
  | _ =>
    rw [hkind] at h
    cases h
    rfl

def enterGuest (target : VirtTime) (turn : Turn) : Act S VmExit := do
  let stopAt ← onInputs fun b : Bedrock.Branch S => b.prepareNextIoInput target turn.queue
  setStopAt (some stopAt.instructions) turn.stopCopied
  runVm turn

def turnExits (target : VirtTime) (turn : Turn) (b : Branch S) : List (VmExit × Option S) :=
  match enterGuest target turn b with
  | (.ok exit, b') => [(exit, b'.inputSource)]
  | (.error _, _) => []

/-- The exits of `run_until`. -/
def runExits (target : VirtTime) (turns : List Turn) (b : Branch S) : List (VmExit × Option S) :=
  driveTrace (turnExits target) (runTurn target) turns b

theorem enterGuest_time {exit : VmExit} (h : enterGuest target turn b = (.ok exit, b')) :
    b'.currentTime = ⟨exit.emulatedTsc, b.tscFrequency⟩ ∧ b'.tscFrequency = b.tscFrequency := by
  obtain ⟨stopAt, b₁, hprepare, h⟩ := bind_eq_ok_iff.mp h
  obtain ⟨⟨⟩, b₂, hstop, hrun⟩ := bind_eq_ok_iff.mp h
  have hfreq₁ : b₁.tscFrequency = b.tscFrequency := by
    obtain ⟨base, hbase, rfl⟩ := onInputs_eq_ok_iff.mp hprepare
    have hlooks := (b.toBranch.prepareNextIoInput_spec target turn.queue).1
    rw [hbase] at hlooks
    exact hlooks.tscFrequency
  have hfreq₂ : b₂.tscFrequency = b₁.tscFrequency := by
    have hset : Obeys SameTime
        (setStopAt (some stopAt.instructions) turn.stopCopied : Act S Unit) := inferInstance
    have hsame := hset.keeping SameTime.refl SameTime.trans b₁
    rw [hstop] at hsame
    exact hsame.2
  obtain ⟨result, b₃, hcall, hrest⟩ := bind_eq_ok_iff.mp hrun
  obtain ⟨vm, -, rfl⟩ := callVm_eq_ok_iff.mp hcall
  obtain ⟨line, recording, sink, hran⟩ := b₂.ran_eq vm result
  have hend : (Except.ok result, b₂.ran vm result) = (Except.ok exit, b') := hrest
  obtain ⟨hexit, rfl⟩ := Prod.mk.inj hend
  obtain rfl := Except.ok.inj hexit
  rw [hran, ← hfreq₁, ← hfreq₂]
  exact ⟨rfl, rfl⟩

theorem runTurn_exit {r : Option (VirtTime × RunOutcome)} (h : runTurn target turn b = (.ok r, b'))
    (hfreq : b.tscFrequency = target.frequency) :
    ∃ exit source, turnExits target turn b = [(exit, source)] ∧
      b'.currentTime = ⟨exit.emulatedTsc, target.frequency⟩ ∧
      b'.tscFrequency = target.frequency ∧ r.isNone = goesOn target (exit, source) := by
  obtain ⟨stopAt, b₀, hprepare, h⟩ := bind_eq_ok_iff.mp h
  obtain ⟨⟨⟩, b₁, hstop, h⟩ := bind_eq_ok_iff.mp h
  obtain ⟨exit, b₂, hrun, h⟩ := bind_eq_ok_iff.mp h
  obtain ⟨outcome, b₃, hserve, hend⟩ := bind_eq_ok_iff.mp h
  have henter : enterGuest target turn b = (.ok exit, b₂) :=
    (bind_ok hprepare).trans ((bind_ok hstop).trans hrun)
  obtain ⟨htime, hfreq'⟩ := enterGuest_time henter
  rw [hfreq] at htime hfreq'
  have hsame := serve_sameTime target exit turn b₂
  rw [hserve] at hsame
  have hgoes := serve_goesOn hserve htime
  refine ⟨exit, b₂.inputSource, by rw [turnExits, henter], ?_⟩
  obtain ⟨hr, rfl⟩ := Prod.mk.inj hend
  obtain rfl := Except.ok.inj hr
  rw [isNone_map]
  exact ⟨hsame.1.trans htime, hsame.2.trans hfreq', hgoes⟩

theorem drive_time_iff {at_ : VirtTime} {outcome : RunOutcome}
    (h : drive (runTurn target) turns b = (.ok (some (at_, outcome)), b'))
    (hfreq : b.tscFrequency = target.frequency) :
    b'.currentTime = target ↔ ∀ e ∈ runExits target turns b,
      goesOn target e ∨ e.1.emulatedTsc = target.instructions := by
  induction turns generalizing b with
  | nil => cases h
  | cons turn turns ih =>
    rcases hturn : runTurn target turn b with ⟨e | _ | a, b₁⟩
    · rw [drive_of_error hturn] at h
      cases h
    · obtain ⟨exit, source, hexits, -, hfreq₁, hgoes⟩ := runTurn_exit hturn hfreq
      rw [drive_of_continued hturn] at h
      rw [ih h hfreq₁, runExits, runExits, driveTrace_of_continued hturn, hexits]
      simp [← hgoes]
    obtain ⟨exit, source, hexits, htime, -, hgoes⟩ := runTurn_exit hturn hfreq
    rw [drive_of_ended hturn] at h
    obtain ⟨-, rfl⟩ := Prod.mk.inj h
    rw [runExits, driveTrace_of_ended hturn (by simp), hexits, htime]
    have heq : (⟨exit.emulatedTsc, target.frequency⟩ : VirtTime) = target ↔
        exit.emulatedTsc = target.instructions :=
      ⟨fun h => congrArg VirtTime.instructions h, fun h => by rw [h]⟩
    simp [← hgoes, heq]

end Branch

namespace LabInner

variable {S : Type} [InputSource S] {lab lab' : LabInner S}

/-- The exits of the replay from `best`. -/
def replayExits (lab : LabInner S) (best : Nat) (target : VirtTime) (host : BranchHost)
    (turns : List Turn) : List (VmExit × Option S) :=
  match lab.registered[best]? with
  | none => []
  | some c =>
    match c.branch best host with
    | .error _ => []
    | .ok tmp => tmp.runExits target turns

/-- The exits of the replay that `rewind` makes, if it makes one. -/
def rewindExits (lab : LabInner S) (id : Nat) (span : VirtDuration) (host : BranchHost)
    (turns : List Turn) : List (VmExit × Option S) :=
  let target := lab.time id - span
  match (lab.rewindCandidates id target).argmax fun cp => toLex (lab.time cp, cp) with
  | none => []
  | some best => lab.replayExits best target host turns

theorem replay_time_iff {best : Nat} {target : VirtTime} {host : BranchHost}
    {tmp : Branch S} (h : lab.replay best target host turns = .ok (some tmp))
    (hbefore : lab.time best < target) :
    tmp.currentTime = target ↔ ∀ e ∈ lab.replayExits best target host turns,
      Branch.goesOn target e ∨ e.1.emulatedTsc = target.instructions := by
  obtain ⟨c, b, ⟨at_, outcome⟩, hc, hb, hrun⟩ := replay_eq_some h
  have hfresh := Checkpoint.branchInner_fresh hb
  have hexits : lab.replayExits best target host turns = b.runExits target turns := by
    rw [replayExits, hc]
    dsimp only
    rw [hb]
  rw [time_of_getElem? hc, ← hfresh.currentTime] at hbefore
  rw [Branch.runUntil_eq] at hrun
  split at hrun
  · cases hrun
  rename_i hfreq
  rw [if_neg hbefore.not_gt, if_neg hbefore.ne'] at hrun
  rw [hexits]
  exact Branch.drive_time_iff hrun (not_not.mp hfreq).symm

omit [InputSource S] in
theorem time_insertRewound (lab : LabInner S) (id best : Nat) (target : VirtTime) (tmp : Branch S) :
    (lab.insertRewound id best target tmp).time lab.registered.length = tmp.currentTime := by
  rw [insertRewound, reparent]
  split
  all_goals exact time_register_self lab tmp.freeze (some best)

theorem rewind_eq_some {id cp : Nat} {span : VirtDuration} {host : BranchHost}
    (h : lab.rewind id span host turns = (.ok (some cp), lab')) :
    (cp ∈ lab.lineage id ∧ lab.time cp = lab.time id - span ∧ lab' = lab.hold cp) ∨
      ∃ best tmp, lab.Replays id best (lab.time id - span) ∧
        lab.replay best (lab.time id - span) host turns = .ok (some tmp) ∧
        cp = lab.registered.length ∧ lab' = lab.insertRewound id best (lab.time id - span) tmp := by
  unfold rewind at h
  split at h
  · cases h
  dsimp only at h
  split at h
  · rename_i found hfind
    cases h
    have hmem := mem_filter.mp (mem_of_find?_eq_some hfind)
    have hexact : decide (lab.time cp = lab.time id - span) :=
      List.find?_some (p := fun cp => decide (lab.time cp = lab.time id - span)) hfind
    exact .inl ⟨hmem.1, of_decide_eq_true hexact, rfl⟩
  rename_i hfind
  split at h
  · cases h
  rename_i best hbest
  split at h
  · cases h
  · cases h
  rename_i tmp htmp
  cases h
  refine .inr ⟨best, tmp, ⟨hbest, fun cp hcp => ?_, sub_le _ _⟩, htmp, rfl, rfl⟩
  simpa using List.find?_eq_none.mp hfind cp hcp

/-- A rewind comes to its target exactly if a checkpoint is there already, or every exit
of the replay lets `run_until` go on or comes at the target. -/
theorem rewind_time_iff {id cp : Nat} {span : VirtDuration} {host : BranchHost} {turns : List Turn}
    (h : lab.rewind id span host turns = (.ok (some cp), lab')) :
    lab'.time cp = lab.time id - span ↔
      (∃ a ∈ lab.lineage id, lab.time a = lab.time id - span) ∨
        ∀ e ∈ lab.rewindExits id span host turns, Branch.goesOn (lab.time id - span) e = true ∨
          e.1.emulatedTsc = (lab.time id - span).instructions := by
  rcases rewind_eq_some h with ⟨hmem, hexact, rfl⟩ | ⟨best, tmp, hreplays, htmp, rfl, rfl⟩
  · exact iff_of_true hexact (.inl ⟨cp, hmem, hexact⟩)
  have hinexact : ¬∃ a ∈ lab.lineage id, lab.time a = lab.time id - span := by
    rintro ⟨a, ha, hexact⟩
    exact hreplays.inexact a (List.mem_filter.mpr ⟨ha, decide_eq_true hexact.le⟩) hexact
  have hexits : lab.rewindExits id span host turns =
      lab.replayExits best (lab.time id - span) host turns := by
    rw [rewindExits, hreplays.chosen]
  rw [time_insertRewound, hexits, or_iff_right hinexact]
  exact replay_time_iff htmp hreplays.time_lt

def tenLab : LabInner RecordedInputSource :=
  (initial (Checkpoint.ofNewVm none)).perform
    [.branch 0 { fork := bareFork }, .perform 0 (.runUntil ⟨10, 1000⟩ [Turn.toStop]), .checkpoint 0]

/-- A replay that is stopped at its target. -/
theorem rewind_time_stopped :
    ((tenLab.rewind 1 ⟨5, 1000⟩ { fork := bareFork } [Turn.toStop]).2.time 2) = ⟨5, 1000⟩ := by
  have hok : (tenLab.rewind 1 ⟨5, 1000⟩ { fork := bareFork } [Turn.toStop]).1 = .ok (some 2) := by
    decide +kernel
  refine ((rewind_time_iff (Prod.ext hok rfl)).mpr (.inr ?_)).trans (by decide +kernel)
  decide +kernel

def readyAt : Turn :=
  Turn.simulate fun ctx => ctx.exitWith 3 (fun | .vmExitReason => 18 | _ => 0) 7 0

theorem readyAt_real : readyAt.Real VmStep.CountsUp := by
  refine Turn.simulate_real (fun ctx => ran_exitWith ctx _ _ _ _) fun it hexited it' hit' => ?_
  cases hit'
  rw [hexited]
  exact Nat.le_add_right _ _

def readyLab : LabInner RecordedInputSource :=
  (initial (Checkpoint.ofNewVm none)).perform
    [.branch 0 { fork := bareFork }, .perform 0 (.runUntil ⟨10, 1000⟩ [readyAt]),
      .perform 0 (.runUntil ⟨10, 1000⟩ [Turn.toStop]), .checkpoint 0]

/-- The replay ends where the guest says that it is ready: the checkpoint is at 3 in place
of 5. -/
theorem rewind_stops_early :
    readyAt.Real VmStep.CountsUp ∧ readyLab.time 1 - (⟨5, 1000⟩ : VirtDuration) = ⟨5, 1000⟩ ∧
      (readyLab.rewind 1 ⟨5, 1000⟩ { fork := bareFork } [readyAt]).1 = .ok (some 2) ∧
      (readyLab.rewind 1 ⟨5, 1000⟩ { fork := bareFork } [readyAt]).2.time 2 = ⟨3, 1000⟩ :=
  ⟨readyAt_real, by decide +kernel, by decide +kernel, by decide +kernel⟩

end LabInner

end Lab

end Bedrock
