import Bedrock.Lab.Graph

/-!
# The tree stays a tree

Whatever is done with a lab, the parents of its checkpoints never lead back to a
checkpoint, and the children are the inverse of the parents.  Times are in order as well,
as long as replays end at their targets: then a rewound checkpoint lies between the
ancestor it was replayed from and the child that is moved below it.
-/

namespace Bedrock

open Support Branch Checkpoint VmStep List Option Function Parents Relation

namespace Lab

/-! ## Parents and children -/

variable {id : Nat}

namespace LabGraph

variable {g : LabGraph} {time : Nat → VirtTime}

/-- The children are the inverse of the parents, by time and id. -/
def Inverse (g : LabGraph) (time : Nat → VirtTime) : Prop :=
  ∀ p t c c', g.children p (t, c) = some c' ↔ c' = c ∧ g.parent c = some p ∧ time c = t

@[simp] theorem setChild_parent (g : LabGraph) (p : Nat) (key : VirtTime × Nat)
    (value : Option Nat) : (g.setChild p key value).parent = g.parent := rfl

theorem setChild_children (g : LabGraph) (p q : Nat) (key key' : VirtTime × Nat)
    (value : Option Nat) : (g.setChild p key value).children q key' =
      if q = p ∧ key' = key then value else g.children q key' := by
  by_cases hq : q = p
  · subst hq
    by_cases hkey : key' = key
    · subst hkey
      simp [setChild]
    · simp [setChild, hkey]
  · simp [setChild, hq]

@[simp] theorem registerCheckpoint_parent (g : LabGraph) (id p : Nat) (t : VirtTime) :
    (g.registerCheckpoint id t (some p)).parent = Function.update g.parent id (some p) := rfl

@[simp] theorem reparent_parent (g : LabGraph) (child newParent : Nat) (t : VirtTime) :
    (g.reparent child t newParent).parent = Function.update g.parent child (some newParent) := by
  unfold reparent
  dsimp only
  split
  · rfl
  · rfl

theorem Inverse.congr (h : g.Inverse time) {time' : Nat → VirtTime}
    (htime : ∀ c p, g.parent c = some p → time' c = time c) : g.Inverse time' := by
  intro p t c c'
  rw [h p t c c']
  refine and_congr_right fun _ => and_congr_right fun hparent => ?_
  rw [htime c p hparent]

theorem Inverse.registerCheckpoint (h : g.Inverse time) (hfresh : g.parent id = none)
    (p : Nat) : (g.registerCheckpoint id (time id) (some p)).Inverse time := by
  intro q t c c'
  have hold := h q t c c'
  change ((setChild _ p (time id, id) (some id)).children q (t, c) = some c') ↔ _
  rw [setChild_children, registerCheckpoint_parent, update_apply]
  split
  · rename_i hnew
    obtain ⟨rfl, hkey⟩ := hnew
    obtain ⟨rfl, rfl⟩ := Prod.mk.inj hkey
    simp [eq_comm]
  rename_i hnew
  rw [hold]
  split
  · rename_i hc
    subst hc
    simp only [hfresh, Option.some.injEq]
    constructor
    · rintro ⟨-, hnone, -⟩
      cases hnone
    · rintro ⟨-, rfl, rfl⟩
      exact absurd ⟨rfl, rfl⟩ hnew
  · exact Iff.rfl

theorem reparent_children (g : LabGraph) (child newParent q : Nat) (t : VirtTime)
    (key : VirtTime × Nat) : (g.reparent child t newParent).children q key =
      if q = newParent ∧ key = (t, child) then some child
      else if g.parent child = some q ∧ key = (t, child) then none
      else g.children q key := by
  unfold reparent
  dsimp only
  rw [setChild_children]
  split
  · rfl
  cases hparent : g.parent child with
  | none => simp
  | some old => simp [setChild_children, eq_comm]

theorem Inverse.reparent (h : g.Inverse time) (child newParent : Nat) :
    (g.reparent child (time child) newParent).Inverse time := by
  intro q t c c'
  have hold := h q t c c'
  rw [reparent_parent, update_apply, reparent_children]
  by_cases hc : c = child
  · subst hc
    rw [if_pos rfl, Option.some.injEq]
    split
    · rename_i hnew
      obtain ⟨rfl, hkey⟩ := hnew
      obtain rfl := (Prod.mk.inj hkey).1
      simp [eq_comm]
    rename_i hnew
    have hgone : ¬(c' = c ∧ newParent = q ∧ time c = t) := by
      rintro ⟨-, rfl, rfl⟩
      exact hnew ⟨rfl, rfl⟩
    refine iff_of_false (fun hsome => ?_) hgone
    split at hsome
    · cases hsome
    rename_i hkept
    obtain ⟨-, hparent, rfl⟩ := hold.mp hsome
    exact hkept ⟨hparent, rfl⟩
  · have hkey : (t, c) ≠ (time child, child) := fun hkey => hc (Prod.mk.inj hkey).2
    rw [if_neg hc, if_neg fun h => hkey h.2, if_neg fun h => hkey h.2]
    exact hold

end LabGraph

variable {target : VirtTime}

namespace LabInner

variable {S : Type} {lab : LabInner S}

/-- What holds of the tree whatever is done: the parents are registered and never lead
back, the children are their inverse, and branches come from registered checkpoints. -/
structure Forest (lab : LabInner S) : Prop where
  bound : ∀ c p, lab.graph.parent c = some p → c < lab.registered.length ∧ p < lab.registered.length
  graded : Graded lab.graph.parent
  inverse : lab.graph.Inverse lab.time
  origins : ∀ b, some b ∈ lab.branches →
    b.origin < lab.registered.length ∧ b.eventMapped = true

theorem time_register_of_lt (c : Checkpoint S) (p : Option Nat)
    (h : id < lab.registered.length) : (lab.register c p).time id = lab.time id := by
  simp [time, register, List.getElem?_append_left h]

theorem time_register_self (lab : LabInner S) (c : Checkpoint S) (p : Option Nat) :
    (lab.register c p).time lab.registered.length = c.time := by
  simp [time, register]

@[simp] theorem register_length (lab : LabInner S) (c : Checkpoint S) (p : Option Nat) :
    (lab.register c p).registered.length = lab.registered.length + 1 := by
  simp [register]

@[simp] theorem register_parent (lab : LabInner S) (c : Checkpoint S) (p : Nat) :
    (lab.register c (some p)).graph.parent =
      Function.update lab.graph.parent lab.registered.length (some p) := rfl

theorem forest_initial (c : Checkpoint S) : (initial c).Forest where
  bound _ _ h := by cases h
  graded := ⟨fun _ => 0, fun _ _ h => by cases h⟩
  inverse p t c c' := by simp [initial]
  origins b h := by cases h

namespace Forest

theorem fresh (h : lab.Forest) : lab.graph.parent lab.registered.length = none := by
  cases hparent : lab.graph.parent lab.registered.length with
  | none => rfl
  | some p => exact absurd (h.bound _ _ hparent).1 (Nat.lt_irrefl _)

theorem leaf (h : lab.Forest) (x : Nat) : lab.graph.parent x ≠ some lab.registered.length :=
  fun hparent => absurd (h.bound _ _ hparent).2 (Nat.lt_irrefl _)

theorem register (h : lab.Forest) (c : Checkpoint S) {p : Nat} (hp : p < lab.registered.length) :
    (lab.register c (some p)).Forest where
  bound x y hxy := by
    rw [register_parent, update_apply] at hxy
    rw [register_length]
    split at hxy
    · cases hxy
      omega
    · have hlt := h.bound x y hxy
      omega
  graded := h.graded.attach h.leaf (Nat.ne_of_lt hp)
  inverse := by
    have htime : lab.graph.Inverse (lab.register c (some p)).time :=
      h.inverse.congr fun x y hxy => time_register_of_lt c _ (h.bound x y hxy).1
    have hnew := htime.registerCheckpoint h.fresh p
    rw [time_register_self] at hnew
    exact hnew
  origins b hb := by
    rw [register_length]
    exact ⟨Nat.lt_succ_of_lt (h.origins b hb).1, (h.origins b hb).2⟩

theorem reparent (h : lab.Forest) {child cp best : Nat} (hparent : lab.graph.parent cp = some best)
    (habove : TransGen (Up lab.graph.parent) child best)
    (hleaf : ∀ x, lab.graph.parent x ≠ some cp) (hne : child ≠ cp) :
    (lab.reparent child cp).Forest := by
  unfold LabInner.reparent
  split
  · obtain ⟨next, hnext, -⟩ := TransGen.head'_iff.mp habove
    refine ⟨fun x y hxy => ?_, ?_, h.inverse.reparent child cp, h.origins⟩
    · rw [LabGraph.reparent_parent, update_apply] at hxy
      split at hxy
      · rename_i hx
        cases hxy
        subst hx
        exact ⟨(h.bound _ _ hnext).1, (h.bound _ _ hparent).1⟩
      · exact h.bound x y hxy
    · rw [LabGraph.reparent_parent]
      exact h.graded.reparent hparent habove hleaf hne
  · exact h

end Forest

/-! ## What rewinding does to the tree -/

theorem graph_parent_of_parent {a b : Nat} (h : lab.parent a = some b) :
    lab.graph.parent a = some b :=
  (filter_eq_some_iff.mp h).1

theorem ancestor_of_mem_lineage {id x : Nat} (h : x ∈ lab.lineage id) :
    ReflTransGen (Up lab.graph.parent) id x :=
  ReflTransGen.mono (fun _ _ => graph_parent_of_parent) _ _
    (reflTransGen_of_mem_chain h)

theorem sub_le (t : VirtTime) (span : VirtDuration) : t - span ≤ t :=
  (VirtTime.le_iff (a := t - span) (b := t) rfl).mpr (Nat.sub_le _ _)

theorem logicalChildAfter_spec {best cp n child d : Nat}
    (h : lab.logicalChildAfter target best n child = some d)
    (hleaf : ∀ x, lab.graph.parent x ≠ some cp) (hne : child ≠ cp)
    (habove : TransGen (Up lab.graph.parent) child best) :
    TransGen (Up lab.graph.parent) d best ∧ target < lab.time d ∧ d ≠ cp := by
  induction n generalizing child with
  | zero => cases h
  | succ n ih =>
    rw [logicalChildAfter] at h
    split at h
    · cases h
    rename_i next hnext
    have hup := graph_parent_of_parent hnext
    split at h
    · rename_i hbetween
      cases h
      exact ⟨habove, hbetween.2, hne⟩
    split at h
    · cases h
    · rename_i hother
      exact ih h (fun heq => hleaf child (heq ▸ hup)) (transGen_parent hup habove hother)

/-- `rewind` finds no checkpoint at the target and replays from `best`. -/
structure Replays (lab : LabInner S) (id best : Nat) (target : VirtTime) : Prop where
  chosen : (lab.rewindCandidates id target).argmax (fun cp => toLex (lab.time cp, cp)) = some best
  inexact : ∀ cp ∈ lab.rewindCandidates id target, lab.time cp ≠ target
  target_le : target ≤ lab.time id

namespace Replays

variable {id best : Nat} {target : VirtTime}

theorem candidate (h : lab.Replays id best target) : best ∈ lab.rewindCandidates id target :=
  argmax_mem h.chosen

theorem time_lt (h : lab.Replays id best target) : lab.time best < target :=
  lt_of_le_of_ne (of_decide_eq_true (mem_filter.mp h.candidate).2) (h.inexact best h.candidate)

theorem target_lt (h : lab.Replays id best target) : target < lab.time id := by
  refine lt_of_le_of_ne h.target_le fun hexact => ?_
  refine h.inexact id (mem_filter.mpr ⟨mem_cons_self, ?_⟩) hexact.symm
  exact decide_eq_true hexact.ge

/-- The replay starts from a proper ancestor. -/
theorem above (h : lab.Replays id best target) :
    TransGen (Up lab.graph.parent) id best := by
  have hancestor := ancestor_of_mem_lineage (mem_filter.mp h.candidate).1
  rcases reflTransGen_iff_eq_or_transGen.mp hancestor with rfl | habove
  · exact absurd (h.time_lt.trans h.target_lt) (lt_irrefl _)
  · exact habove

theorem best_lt (h : lab.Replays id best target) (hforest : lab.Forest) :
    best < lab.registered.length := by
  obtain ⟨x, -, hx⟩ := TransGen.tail'_iff.mp h.above
  exact (hforest.bound _ _ hx).2

theorem id_lt (h : lab.Replays id best target) (hforest : lab.Forest) :
    id < lab.registered.length := by
  obtain ⟨x, hx, -⟩ := TransGen.head'_iff.mp h.above
  exact (hforest.bound _ _ hx).1

end Replays

variable [InputSource S]

theorem rewind_cases (lab : LabInner S) (id : Nat) (span : VirtDuration) (host : BranchHost)
    (turns : List Turn) :
    (lab.rewind id span host turns).2 = lab ∨
      (∃ cp, (lab.rewind id span host turns).2 = lab.hold cp) ∨
      ∃ best tmp, lab.Replays id best (lab.time id - span) ∧
        lab.replay best (lab.time id - span) host turns = .ok (some tmp) ∧
        (lab.rewind id span host turns).2 = lab.insertRewound id best (lab.time id - span) tmp := by
  unfold rewind
  split
  · exact .inl rfl
  dsimp only
  split
  · exact .inr (.inl ⟨_, rfl⟩)
  rename_i hfind
  split
  · exact .inl rfl
  rename_i best hbest
  split
  · exact .inl rfl
  · exact .inl rfl
  rename_i tmp htmp
  refine .inr (.inr ⟨best, tmp, ⟨hbest, fun cp hcp => ?_, sub_le _ _⟩, htmp, rfl⟩)
  simpa using List.find?_eq_none.mp hfind cp hcp

omit [InputSource S] in
theorem above_register (h : lab.Forest) {a b : Nat} (c : Checkpoint S) (p : Nat)
    (habove : TransGen (Up lab.graph.parent) a b) :
    TransGen (Up (lab.register c (some p)).graph.parent) a b := by
  refine TransGen.mono (fun x y hxy => ?_) _ _ habove
  have hx : x ≠ lab.registered.length := Nat.ne_of_lt (h.bound x y hxy).1
  change (lab.register c (some p)).graph.parent x = some y
  rw [register_parent, update_of_ne hx]
  exact hxy

omit [InputSource S] in
theorem leaf_register (h : lab.Forest) (c : Checkpoint S) {p : Nat} (hp : p < lab.registered.length)
    (x : Nat) : (lab.register c (some p)).graph.parent x ≠ some lab.registered.length := by
  intro hx
  rw [register_parent, update_apply] at hx
  split at hx
  · cases hx
    exact absurd hp (Nat.lt_irrefl _)
  · exact h.leaf x hx

omit [InputSource S] in
theorem insertRewound_spec (h : lab.Forest) {id best : Nat}
    (hreplays : lab.Replays id best target) (tmp : Branch S) :
    ∃ child, lab.insertRewound id best target tmp =
        (lab.register tmp.freeze (some best)).reparent child lab.registered.length ∧
      TransGen (Up (lab.register tmp.freeze (some best)).graph.parent) child best ∧
      child < lab.registered.length ∧ target < lab.time child := by
  have hbest := hreplays.best_lt h
  have hid := hreplays.id_lt h
  have habove := above_register h tmp.freeze best hreplays.above
  refine ⟨_, rfl, ?_⟩
  cases hchild : (lab.register tmp.freeze (some best)).logicalChildAfter target best
      ((lab.register tmp.freeze (some best)).registered.length + 1) id with
  | none => exact ⟨habove, hid, hreplays.target_lt⟩
  | some child =>
    obtain ⟨hbelow, hlater, hne⟩ := logicalChildAfter_spec hchild
      (leaf_register h tmp.freeze hbest) (Nat.ne_of_lt hid) habove
    have hlt : child < lab.registered.length := by
      obtain ⟨x, hx, -⟩ := TransGen.head'_iff.mp hbelow
      have hbound := ((h.register tmp.freeze hbest).bound _ _ hx).1
      rw [register_length] at hbound
      omega
    rw [time_register_of_lt _ _ hlt] at hlater
    exact ⟨hbelow, hlt, hlater⟩

namespace Forest

omit [InputSource S] in
theorem insertRewound (h : lab.Forest) {id best : Nat}
    (hreplays : lab.Replays id best target) (tmp : Branch S) :
    (lab.insertRewound id best target tmp).Forest := by
  obtain ⟨child, heq, hbelow, hlt, -⟩ := insertRewound_spec h hreplays tmp
  have hbest := hreplays.best_lt h
  rw [heq]
  refine (h.register tmp.freeze hbest).reparent ?_ hbelow (leaf_register h tmp.freeze hbest)
    (Nat.ne_of_lt hlt)
  rw [register_parent, update_self]

omit [InputSource S] in
/-- The tree does not depend on who holds what. -/
theorem handles {lab' : LabInner S} (h : lab.Forest) (hregistered : lab'.registered = lab.registered)
    (hfreq : lab'.tscFrequency = lab.tscFrequency) (hgraph : lab'.graph = lab.graph)
    (horigins : ∀ b, some b ∈ lab'.branches →
      b.origin < lab.registered.length ∧ b.eventMapped) : lab'.Forest := by
  have htime : lab'.time = lab.time := by
    funext id
    rw [time, time, hregistered, hfreq]
  refine ⟨?_, ?_, ?_, ?_⟩
  · rw [hgraph, hregistered]
    exact h.bound
  · rw [hgraph]
    exact h.graded
  · rw [hgraph, htime]
    exact h.inverse
  · rw [hregistered]
    exact horigins

end Forest

omit [InputSource S] in
theorem mem_set {bs : List (Option (Branch S))} {i : Nat} {new : Option (Branch S)} {b : Branch S}
    (h : some b ∈ bs.set i new) : some b = new ∨ some b ∈ bs := by
  rcases mem_or_eq_of_mem_set h with h | h
  · exact .inr h
  · exact .inl h

omit [InputSource S] in
theorem live_lt (h : lab.live id) : id < lab.registered.length := by
  rw [live, Bool.and_eq_true, decide_eq_true_eq] at h
  exact h.1

omit [InputSource S] in
theorem checkpoint_eq_some {c : Checkpoint S} (h : lab.checkpoint id = some c) :
    lab.live id ∧ lab.registered[id]? = some c := by
  unfold checkpoint at h
  split at h
  · rename_i hlive
    exact ⟨hlive, h⟩
  · cases h

end LabInner

/-! ## Every operation -/

variable {S : Type}

/-- A branch that was just forked from a checkpoint. -/
structure Fresh (c : Checkpoint S) (id : Nat) (b : Branch S) : Prop where
  origin : b.origin = id
  eventMapped : b.eventMapped = true
  currentTime : b.currentTime = c.time
  tscFrequency : b.tscFrequency = c.tscFrequency
  forward : Forward c.vm b.vm

theorem Branch.forcedVm_clock (force copied : Bool) (vm : VmContext) :
    (forcedVm force copied vm).state.clock = vm.state.clock := by
  unfold forcedVm
  split
  · exact vm.ioctl_clock (.setRdrandConfig exitToUserspace copied)
  · rfl

theorem Checkpoint.branchInner_fresh {c : Checkpoint S} {source : Option S}
    {force : Bool} {host : BranchHost} {b : Branch S}
    (h : c.branchInner id source force host = .ok b) : Fresh c id b := by
  obtain ⟨vm, config, hfork, -, -, rfl⟩ := branchInner_spec h
  refine ⟨rfl, rfl, rfl, rfl, (ForkedVm.new_forward hfork).trans (.of_clock ?_)⟩
  refine ((Branch.forcedVm _ _ vm).ioctl_clock (.setEventConfig config _ _)).trans ?_
  exact Branch.forcedVm_clock _ _ vm

def LabOp.Real (P : VmStep → Prop) : LabOp S → Prop
  | .perform _ op => op.Real P
  | .rewind _ _ _ turns => ∀ turn ∈ turns, turn.Real P
  | _ => True

namespace LabInner

variable {lab : LabInner S} [InputSource S]

/-- What an operation can do to the tree. -/
inductive LabStep (P : VmStep → Prop) (lab : LabInner S) : LabOp S → LabInner S → Prop
  | handles {op : LabOp S} (held : Nat → Bool) (branches : List (Option (Branch S)))
      (hkept : ∀ b, some b ∈ branches → some b ∈ lab.branches) :
      LabStep P lab op { lab with held, branches }
  | branched {op : LabOp S} {id : Nat} {c : Checkpoint S} {b : Branch S}
      (hc : lab.registered[id]? = some c) (hfresh : Fresh c id b) :
      LabStep P lab op { lab with branches := lab.branches ++ [some b] }
  | performed {b : Branch S} {op : BranchOp} (i : Nat) (hb : some b ∈ lab.branches)
      (hreal : op.Real P) : LabStep P lab (.perform i op)
        { lab with branches := lab.branches.set i (some (b.perform op).2) }
  | checkpointed {b : Branch S} (i : Nat) (hb : some b ∈ lab.branches) :
      LabStep P lab (.checkpoint i)
        { lab.register b.freeze (some b.origin) with branches := lab.branches.set i none }
  | rewound {id best : Nat} {span : VirtDuration} {host : BranchHost} {turns : List Turn}
      {tmp : Branch S} (hreplays : lab.Replays id best (lab.time id - span))
      (htmp : lab.replay best (lab.time id - span) host turns = .ok (some tmp))
      (hreal : ∀ turn ∈ turns, turn.Real P) : LabStep P lab (.rewind id span host turns)
        (lab.insertRewound id best (lab.time id - span) tmp)

variable {P : VmStep → Prop}

variable {c : Checkpoint S} {op : LabOp S}

theorem addBranch_step (hc : lab.registered[id]? = some c) {r : Except LabError (Branch S)}
    (hfresh : ∀ b, r = .ok b → Fresh c id b) : LabStep P lab op (lab.addBranch r) := by
  cases r with
  | error e => exact .handles lab.held lab.branches fun _ h => h
  | ok b => exact .branched hc (hfresh b rfl)

theorem step_cases (lab : LabInner S) (hreal : op.Real P) : LabStep P lab op (lab.step op) := by
  have hsame : LabStep P lab op lab := .handles lab.held lab.branches fun _ h => h
  cases op with
  | branch id host =>
    rw [step]
    split
    · exact hsame
    · rename_i c hc
      exact addBranch_step (checkpoint_eq_some hc).2 fun b hb => Checkpoint.branchInner_fresh hb
  | branchWithInputSource id source host =>
    rw [step]
    split
    · exact hsame
    rename_i c hc
    refine addBranch_step (checkpoint_eq_some hc).2 fun b hb => ?_
    have hfresh := Checkpoint.branchInner_fresh hb
    exact ⟨hfresh.origin, hfresh.eventMapped, hfresh.currentTime, hfresh.tscFrequency,
      hfresh.forward⟩
  | perform i op =>
    rw [step]
    split
    · rename_i b hb
      exact .performed i (mem_of_getElem? hb) hreal
    · exact hsame
  | checkpoint i =>
    rw [step]
    split
    · rename_i b hb
      exact .checkpointed i (mem_of_getElem? hb)
    · exact hsame
  | rewind id span host turns =>
    rw [step]
    split
    · rcases lab.rewind_cases id span host turns with h | ⟨cp, h⟩ | ⟨best, tmp, hreplays, htmp, h⟩
      · rw [h]
        exact hsame
      · rw [h]
        exact .handles _ lab.branches fun _ h => h
      · rw [h]
        exact .rewound hreplays htmp hreal
    · exact hsame
  | hold id =>
    rw [step]
    split
    · exact .handles _ lab.branches fun _ h => h
    · exact hsame
  | dropCheckpoint id => exact .handles _ lab.branches fun _ h => h
  | dropBranch i =>
    refine .handles lab.held _ fun b hb => ?_
    rcases mem_set hb with h | h
    · cases h
    · exact h

theorem perform_kept {op : BranchOp} (hreal : op.Real P) {b : Branch S} (hmapped : b.eventMapped) :
    (b.perform op).2.origin = b.origin ∧ (b.perform op).2.tscFrequency = b.tscFrequency ∧
      (b.perform op).2.eventMapped := by
  obtain ⟨⟨ts, hsession, hstays⟩, hmapped⟩ := Branch.perform_lasts hreal b hmapped
  obtain ⟨horigin, hfreq⟩ := hsession.kept hstays
  exact ⟨horigin, hfreq, hmapped⟩

theorem Forest.labStep (h : lab.Forest) {lab' : LabInner S} (hstep : LabStep P lab op lab') :
    lab'.Forest := by
  cases hstep with
  | handles held branches hkept => exact h.handles rfl rfl rfl fun b hb => h.origins b (hkept b hb)
  | @branched _ id c b hc hfresh =>
    refine h.handles rfl rfl rfl fun b' hb' => ?_
    rcases mem_append.mp hb' with hb' | hb'
    · exact h.origins b' hb'
    obtain rfl := Option.some.inj (mem_singleton.mp hb')
    obtain ⟨hlt, -⟩ := List.getElem?_eq_some_iff.mp hc
    exact ⟨hfresh.origin ▸ hlt, hfresh.eventMapped⟩
  | @performed b op i hb hreal =>
    refine h.handles rfl rfl rfl fun b' hb' => ?_
    rcases mem_set hb' with heq | hold
    · obtain rfl := Option.some.inj heq
      obtain ⟨hlt, hmapped⟩ := h.origins b hb
      obtain ⟨horigin, -, hmapped⟩ := perform_kept hreal hmapped
      exact ⟨horigin ▸ hlt, hmapped⟩
    · exact h.origins b' hold
  | @checkpointed b i hb =>
    have hforest := h.register b.freeze (h.origins b hb).1
    refine hforest.handles rfl rfl rfl fun b' hb' => ?_
    rcases mem_set hb' with heq | hold
    · cases heq
    · exact hforest.origins b' hold
  | rewound hreplays _ _ => exact h.insertRewound hreplays _

theorem Forest.perform (h : lab.Forest) {ops : List (LabOp S)} (hreal : ∀ op ∈ ops, op.Real P) :
    (lab.perform ops).Forest := by
  induction ops generalizing lab with
  | nil => exact h
  | cons op ops ih =>
    have hstep := h.labStep (lab.step_cases (hreal op mem_cons_self))
    exact ih hstep fun op' hop' => hreal op' (mem_cons_of_mem op hop')

/-! ## The order of times -/

/-- All VMs have reached the times that are noted for them, and no branch and no
checkpoint is earlier than where it comes from. -/
structure Timed (lab : LabInner S) : Prop where
  registered : ∀ c ∈ lab.registered, Timely c.time lab.tscFrequency c.vm ∧
    c.tscFrequency = lab.tscFrequency
  branches : ∀ b, some b ∈ lab.branches → Timely b.currentTime lab.tscFrequency b.vm ∧
    b.tscFrequency = lab.tscFrequency ∧ lab.time b.origin ≤ b.currentTime
  ordered : ∀ c p, lab.graph.parent c = some p → lab.time p ≤ lab.time c

omit [InputSource S] in
theorem time_of_getElem? (h : lab.registered[id]? = some c) : lab.time id = c.time := by
  rw [time, h]
  rfl

theorem perform_later {op : BranchOp} (hreal : op.Real VmStep.CountsUp) {b : Branch S}
    (hmapped : b.eventMapped) (htimely : Timely b.currentTime b.tscFrequency b.vm) :
    Timely (b.perform op).2.currentTime b.tscFrequency (b.perform op).2.vm ∧
      b.currentTime ≤ (b.perform op).2.currentTime := by
  obtain ⟨⟨ts, hsession, hstays⟩, -⟩ := Branch.perform_lasts hreal b hmapped
  obtain ⟨hpost, hle⟩ := hsession.timely hstays htimely
  rw [(hsession.kept hstays).2] at hpost
  exact ⟨hpost, (VirtTime.le_iff (htimely.frequency.trans hpost.frequency.symm)).mpr hle⟩

namespace Timed

omit [InputSource S] in
theorem fresh (h : lab.Timed) (hc : lab.registered[id]? = some c)
    {b : Branch S} (hfresh : Fresh c id b) :
    Timely b.currentTime lab.tscFrequency b.vm ∧ b.tscFrequency = lab.tscFrequency ∧
      lab.time b.origin ≤ b.currentTime := by
  obtain ⟨htimely, hfreq⟩ := h.registered c (mem_of_getElem? hc)
  refine ⟨?_, hfresh.tscFrequency.trans hfreq, ?_⟩
  · rw [hfresh.currentTime]
    exact htimely.forward hfresh.forward
  · rw [hfresh.origin, hfresh.currentTime, time_of_getElem? hc]

omit [InputSource S] in
theorem register (h : lab.Timed) (hforest : lab.Forest) {p : Nat}
    (hc : Timely c.time lab.tscFrequency c.vm ∧ c.tscFrequency = lab.tscFrequency)
    (hp : p < lab.registered.length) (hle : lab.time p ≤ c.time) :
    (lab.register c (some p)).Timed where
  registered c' hc' := by
    rcases mem_append.mp hc' with hc' | hc'
    · exact h.registered c' hc'
    · rw [mem_singleton.mp hc']
      exact hc
  branches b hb := by
    rw [time_register_of_lt c _ (hforest.origins b hb).1]
    exact h.branches b hb
  ordered x y hxy := by
    rw [register_parent, update_apply] at hxy
    split at hxy
    · rename_i hx
      cases hxy
      rw [hx, time_register_self, time_register_of_lt c _ hp]
      exact hle
    · obtain ⟨hx, hy⟩ := hforest.bound x y hxy
      rw [time_register_of_lt c _ hx, time_register_of_lt c _ hy]
      exact h.ordered x y hxy

omit [InputSource S] in
theorem reparent (h : lab.Timed) {child cp : Nat} (hle : lab.time cp ≤ lab.time child) :
    (lab.reparent child cp).Timed := by
  unfold LabInner.reparent
  split
  · refine ⟨h.registered, h.branches, fun x y hxy => ?_⟩
    rw [LabGraph.reparent_parent, update_apply] at hxy
    split at hxy
    · rename_i hx
      cases hxy
      rw [hx]
      exact hle
    · exact h.ordered x y hxy
  · exact h

end Timed

/-- The replay of this rewind, if there is one that ends, ends at its target. -/
def ReplayExact (lab : LabInner S) : LabOp S → Prop
  | .rewind id span host turns => ∀ best tmp, lab.Replays id best (lab.time id - span) →
      lab.replay best (lab.time id - span) host turns = .ok (some tmp) →
        tmp.currentTime = lab.time id - span
  | _ => True

/-- The same for every rewind in a sequence of operations. -/
def ReplaysExact : LabInner S → List (LabOp S) → Prop
  | _, [] => True
  | lab, op :: ops => lab.ReplayExact op ∧ ReplaysExact (lab.step op) ops

theorem replay_eq_some {best : Nat} {host : BranchHost} {turns : List Turn}
    {tmp : Branch S} (h : lab.replay best target host turns = .ok (some tmp)) :
    ∃ c b outcome, lab.registered[best]? = some c ∧ c.branch best host = .ok b ∧
      b.runUntil target turns = (.ok (some outcome), tmp) := by
  unfold replay at h
  split at h
  · cases h
  rename_i c hc
  split at h
  · cases h
  rename_i b hb
  split at h
  · cases h
  · cases h
  rename_i outcome tmp' hrun
  cases h
  exact ⟨c, b, outcome, hc, hb, hrun⟩

namespace Timed

/-- What a replay ends with, as a checkpoint of the lab. -/
theorem replay (h : lab.Timed) {best : Nat} {host : BranchHost}
    {turns : List Turn} {tmp : Branch S} (hreal : ∀ turn ∈ turns, turn.Real VmStep.CountsUp)
    (htmp : lab.replay best target host turns = .ok (some tmp)) :
    Timely tmp.currentTime lab.tscFrequency tmp.vm ∧ tmp.tscFrequency = lab.tscFrequency ∧
      lab.time best ≤ tmp.currentTime := by
  obtain ⟨c, b, outcome, hc, hb, hrun⟩ := replay_eq_some htmp
  have hfresh := Checkpoint.branchInner_fresh hb
  obtain ⟨htimely, hfreq, hle⟩ := h.fresh hc hfresh
  have hlasts := (Branch.runUntil_built target hreal).keeping Lasts.refl Lasts.trans b
  rw [hrun] at hlasts
  obtain ⟨⟨ts, hsession, hstays⟩, -⟩ := hlasts hfresh.eventMapped
  obtain ⟨hpost, hlater⟩ := hsession.timely hstays (hfreq ▸ htimely)
  rw [(hsession.kept hstays).2, hfreq] at hpost
  refine ⟨hpost, (hsession.kept hstays).2.trans hfreq, ?_⟩
  rw [hfresh.origin] at hle
  exact hle.trans ((VirtTime.le_iff (htimely.frequency.trans hpost.frequency.symm)).mpr hlater)

theorem labStep (h : lab.Timed) (hforest : lab.Forest) {lab' : LabInner S}
    (hstep : LabStep CountsUp lab op lab') (hexact : lab.ReplayExact op) : lab'.Timed := by
  cases hstep with
  | handles held branches hkept =>
    exact ⟨h.registered, fun b hb => h.branches b (hkept b hb), h.ordered⟩
  | @branched _ id c b hc hfresh =>
    refine ⟨h.registered, fun b' hb' => ?_, h.ordered⟩
    rcases mem_append.mp hb' with hb' | hb'
    · exact h.branches b' hb'
    · obtain rfl := Option.some.inj (mem_singleton.mp hb')
      exact h.fresh hc hfresh
  | @performed b op i hb hreal =>
    refine ⟨h.registered, fun b' hb' => ?_, h.ordered⟩
    rcases mem_set hb' with heq | hold
    · obtain rfl := Option.some.inj heq
      obtain ⟨htimely, hfreq, hle⟩ := h.branches b hb
      have hmapped := (hforest.origins b hb).2
      obtain ⟨horigin, hfreq', -⟩ := perform_kept hreal hmapped
      obtain ⟨hpost, hlater⟩ := perform_later hreal hmapped (hfreq ▸ htimely)
      refine ⟨hfreq ▸ hpost, hfreq'.trans hfreq, ?_⟩
      rw [horigin]
      exact hle.trans hlater
    · exact h.branches b' hold
  | @checkpointed b i hb =>
    obtain ⟨htimely, hfreq, hle⟩ := h.branches b hb
    have hregister := h.register hforest (c := b.freeze) ⟨htimely, hfreq⟩ (hforest.origins b hb).1 hle
    refine ⟨hregister.registered, fun b' hb' => ?_, hregister.ordered⟩
    rcases mem_set hb' with heq | hold
    · cases heq
    · exact hregister.branches b' hold
  | @rewound id best span host turns tmp hreplays htmp hreal =>
    obtain ⟨htimely, hfreq, hle⟩ := h.replay hreal htmp
    have hregister := h.register hforest (c := tmp.freeze) ⟨htimely, hfreq⟩
      (hreplays.best_lt hforest) hle
    obtain ⟨child, heq, -, hlt, hlater⟩ := insertRewound_spec hforest hreplays tmp
    rw [heq]
    refine hregister.reparent ?_
    rw [time_register_self, time_register_of_lt _ _ hlt]
    exact (hexact best tmp hreplays htmp).trans_le hlater.le

theorem perform (h : lab.Timed) (hforest : lab.Forest) {ops : List (LabOp S)}
    (hreal : ∀ op ∈ ops, op.Real CountsUp) (hexact : lab.ReplaysExact ops) :
    (lab.perform ops).Timed := by
  induction ops generalizing lab with
  | nil => exact h
  | cons op ops ih =>
    have hstep := lab.step_cases (hreal op mem_cons_self)
    exact ih (h.labStep hforest hstep hexact.1) (hforest.labStep hstep)
      (fun op' hop' => hreal op' (mem_cons_of_mem op hop')) hexact.2

end Timed

omit [InputSource S] in
theorem timed_initial (h : Timely c.time c.tscFrequency c.vm) : (initial c).Timed where
  registered c' hc' := by
    rw [mem_singleton.mp hc']
    exact ⟨h, rfl⟩
  branches b hb := by cases hb
  ordered x y hxy := by cases hxy

end LabInner

/-- A checkpoint of a VM that was created and then ran, taken when RUN returned. -/
def Checkpoint.Booted (c : Checkpoint S) : Prop :=
  ∃ vm ts, Created vm ∧ History vm ts c.vm ∧ (∀ t ∈ ts, t.CountsUp) ∧
    c.time = ⟨c.vm.state.clock.emulatedTsc, c.tscFrequency⟩

theorem Checkpoint.Booted.timely {c : Checkpoint S} (h : c.Booted) :
    Timely c.time c.tscFrequency c.vm := by
  obtain ⟨vm, ts, hcreated, hhistory, hcounts, htime⟩ := h
  obtain ⟨-, hsound⟩ := hhistory.forward hcounts hcreated.upToDate.le
  rw [htime]
  exact ⟨rfl, Nat.le_refl _, hsound⟩

namespace LabInner

variable [InputSource S]

/-- For any sequence of operations on a lab in which every replay ends at its target: the
parents never lead back to a checkpoint, the children are their inverse, and no parent is
later than its child. -/
theorem tree_well_formed {c : Checkpoint S} {ops : List (LabOp S)} (hbooted : c.Booted)
    (hreal : ∀ op ∈ ops, op.Real VmStep.CountsUp) (hexact : (initial c).ReplaysExact ops) :
    let lab := (initial c).perform ops
    (∀ id, ¬Relation.TransGen (fun child parent => lab.graph.parent child = some parent) id id) ∧
      (∀ parent t child id, lab.graph.children parent (t, child) = some id ↔
        id = child ∧ lab.graph.parent child = some parent ∧ lab.time child = t) ∧
      ∀ child parent, lab.graph.parent child = some parent →
        child < lab.registered.length ∧ parent < lab.registered.length ∧
          lab.time parent ≤ lab.time child := by
  have hforest := (forest_initial c).perform hreal
  have htimed := (timed_initial hbooted.timely).perform (forest_initial c) hreal hexact
  refine ⟨hforest.graded.acyclic, hforest.inverse, fun child parent hparent => ?_⟩
  obtain ⟨hchild, hlt⟩ := hforest.bound child parent hparent
  exact ⟨hchild, hlt, htimed.ordered child parent hparent⟩

def rewindOps : List (LabOp RecordedInputSource) :=
  [.branch 0 { fork := bareFork }, .perform 0 (.runUntil ⟨10, 1000⟩ [Turn.toStop]), .checkpoint 0,
    .rewind 1 ⟨5, 1000⟩ { fork := bareFork } [Turn.toStop]]

theorem tree_well_formed_rewound :
    let lab := (initial (Checkpoint.ofNewVm none)).perform rewindOps
    (List.range 3).map lab.graph.parent = [none, some 2, some 0] ∧
      ∀ child parent, lab.graph.parent child = some parent → lab.time parent ≤ lab.time child := by
  have hbooted : (Checkpoint.ofNewVm none).Booted :=
    ⟨newVm, [], newVm_created, ⟨rfl, List.forall_mem_nil _⟩, List.forall_mem_nil _, by decide +kernel⟩
  have hreal : ∀ op ∈ rewindOps, op.Real VmStep.CountsUp := by
    simp [rewindOps, LabOp.Real, BranchOp.Real, Turn.toStop_real]
  have hexact : (initial (Checkpoint.ofNewVm none)).ReplaysExact rewindOps := by
    refine ⟨trivial, trivial, trivial, fun best tmp hreplays htmp => ?_, trivial⟩
    let lab := (initial (Checkpoint.ofNewVm none)).perform (rewindOps.take 3)
    have hbest : (lab.rewindCandidates 1 (lab.time 1 - (⟨5, 1000⟩ : VirtDuration))).argmax
        (fun cp => toLex (lab.time cp, cp)) = some 0 := by decide +kernel
    obtain rfl : best = 0 := Option.some.inj (hreplays.chosen.symm.trans hbest)
    have htime : (lab.replay 0 (lab.time 1 - (⟨5, 1000⟩ : VirtDuration)) { fork := bareFork }
        [Turn.toStop]).map (fun tmp => tmp.map fun b => b.currentTime) =
          .ok (some (lab.time 1 - (⟨5, 1000⟩ : VirtDuration))) := by decide +kernel
    have hreplay : lab.replay 0 (lab.time 1 - (⟨5, 1000⟩ : VirtDuration)) { fork := bareFork }
        [Turn.toStop] = .ok (some tmp) := htmp
    rw [hreplay] at htime
    exact Option.some.inj (Except.ok.inj htime)
  exact ⟨by decide +kernel, fun child parent hparent =>
    ((tree_well_formed hbooted hreal hexact).2.2 child parent hparent).2.2⟩

end LabInner

end Lab

end Bedrock
