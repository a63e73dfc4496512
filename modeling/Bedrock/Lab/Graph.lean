import Bedrock.Lab.Session
import Bedrock.Support.Parents
import Mathlib.Data.List.MinMax
import Mathlib.Data.Prod.Lex

/-!
# The tree of checkpoints

A lab keeps the checkpoints of one tree.  It refers to them weakly: a checkpoint is alive
as long as somebody holds a handle to it, or a branch that came from it is alive.  Taking
a checkpoint adds a leaf to the tree; rewinding replays from an ancestor, adds the result
below it, and puts it between the ancestor and the path it was found on.
-/

namespace Bedrock

open Support

namespace VirtTime

instance : LE VirtTime where
  le a b := a < b ∨ a = b

theorem lt_def (a b : VirtTime) : a < b ↔ a.instructions < b.instructions ∨
    (a.instructions = b.instructions ∧ a.frequency < b.frequency) :=
  Iff.rfl

theorem le_def (a b : VirtTime) : a ≤ b ↔ a.instructions < b.instructions ∨
    (a.instructions = b.instructions ∧ a.frequency ≤ b.frequency) := by
  change (a < b ∨ a = b) ↔ _
  rw [lt_def, VirtTime.mk.injEq]
  omega

instance (a b : VirtTime) : Decidable (a ≤ b) :=
  inferInstanceAs (Decidable (_ ∨ _))

instance : LinearOrder VirtTime where
  le_refl a := .inr rfl
  le_trans a b c := by
    rw [le_def, le_def, le_def]
    omega
  lt_iff_le_not_ge a b := by
    rw [lt_def, le_def, le_def]
    omega
  le_antisymm a b := by
    rw [le_def, le_def, VirtTime.mk.injEq]
    omega
  le_total a b := by
    rw [le_def, le_def]
    omega
  toDecidableLE := inferInstance
  toDecidableEq := inferInstance
  toDecidableLT := inferInstance

theorem lt_iff {a b : VirtTime} (h : a.frequency = b.frequency) :
    a < b ↔ a.instructions < b.instructions := by
  rw [lt_def]
  omega

theorem le_iff {a b : VirtTime} (h : a.frequency = b.frequency) :
    a ≤ b ↔ a.instructions ≤ b.instructions := by
  rw [le_def]
  omega

end VirtTime

/-- `VirtDuration` -/
structure VirtDuration where
  instructions : Nat
  frequency : Nat
  deriving DecidableEq, Repr

/-- `VirtTime - VirtDuration`, for equal frequencies. -/
instance : HSub VirtTime VirtDuration VirtTime where
  hSub t d := ⟨t.instructions - d.instructions, t.frequency⟩

namespace Lab

/-! ## The graph -/

/-- `LabGraph`: the parent of a checkpoint, and the children of a checkpoint by time and
id. -/
structure LabGraph where
  parent : Nat → Option Nat := fun _ => none
  children : Nat → VirtTime × Nat → Option Nat := fun _ _ => none

namespace LabGraph

/-- Change one entry among the children of `p`. -/
def setChild (g : LabGraph) (p : Nat) (key : VirtTime × Nat) (value : Option Nat) : LabGraph :=
  { g with children := Function.update g.children p (Function.update (g.children p) key value) }

/-- `register_checkpoint` -/
def registerCheckpoint (g : LabGraph) (id : Nat) (time : VirtTime) : Option Nat → LabGraph
  | none => g
  | some p => { g with parent := Function.update g.parent id (some p) }.setChild p (time, id) (some id)

/-- `reparent`, for a child that is alive. -/
def reparent (g : LabGraph) (child : Nat) (time : VirtTime) (newParent : Nat) : LabGraph :=
  let moved := { g with parent := Function.update g.parent child (some newParent) }
  let removed := match g.parent child with
    | none => moved
    | some old => moved.setChild old (time, child) none
  removed.setChild newParent (time, child) (some child)

end LabGraph

/-- `LabInner`, with the handles to its checkpoints and its branches.  `registered` lists
all checkpoints so far by their ids; `held` says which of them the user has a handle to;
`branches` lists all branches so far, `none` for those dropped or made into a
checkpoint. -/
structure LabInner (S : Type) where
  tscFrequency : Nat
  registered : List (Checkpoint S)
  graph : LabGraph
  held : Nat → Bool
  branches : List (Option (Branch S))

namespace LabInner

variable {S : Type}

def initial (c : Checkpoint S) : LabInner S where
  tscFrequency := c.tscFrequency
  registered := [c]
  graph := {}
  held id := id == 0
  branches := []

def live (lab : LabInner S) (id : Nat) : Bool :=
  id < lab.registered.length &&
    (lab.held id || lab.branches.any fun b => b.any fun b => b.origin == id)

/-- `LabGraph::checkpoint` -/
def checkpoint (lab : LabInner S) (id : Nat) : Option (Checkpoint S) :=
  if lab.live id then lab.registered[id]? else none

/-- `LabGraph::parent`; a handle is the id of its checkpoint. -/
def parent (lab : LabInner S) (id : Nat) : Option Nat :=
  (lab.graph.parent id).filter lab.live

/-- `Checkpoint::time` -/
def time (lab : LabInner S) (id : Nat) : VirtTime :=
  ((lab.registered[id]?).map fun c => c.time).getD ⟨0, lab.tscFrequency⟩

def hold (lab : LabInner S) (id : Nat) : LabInner S :=
  { lab with held := Function.update lab.held id true }

/-- A new checkpoint under a fresh id; the caller gets a handle. -/
def register (lab : LabInner S) (c : Checkpoint S) (parent : Option Nat) : LabInner S :=
  { lab with
    registered := lab.registered ++ [c]
    graph := lab.graph.registerCheckpoint lab.registered.length c.time parent
    held := Function.update lab.held lab.registered.length true }

/-- `reparent` -/
def reparent (lab : LabInner S) (child newParent : Nat) : LabInner S :=
  if lab.live child then
    { lab with graph := lab.graph.reparent child (lab.time child) newParent }
  else lab

/-! ## Rewinding -/

/-- The handles `cp`, `cp.parent()`, and so on. -/
def lineage (lab : LabInner S) (id : Nat) : List Nat :=
  Parents.chain lab.parent (lab.registered.length + 1) id

/-- `rewind_candidates` -/
def rewindCandidates (lab : LabInner S) (id : Nat) (target : VirtTime) : List Nat :=
  (lab.lineage id).filter fun cp => lab.time cp ≤ target

/-- The loop of `logical_child_after`. -/
def logicalChildAfter (lab : LabInner S) (target : VirtTime) (ancestor : Nat) : Nat → Nat → Option Nat
  | 0, _ => none
  | n + 1, child =>
    match lab.parent child with
    | none => none
    | some parent =>
      if lab.time parent ≤ target ∧ target < lab.time child then some child
      else if parent = ancestor then none
      else lab.logicalChildAfter target ancestor n parent

variable [InputSource S]

/-- The replay: a branch of `best` that `run_until` brings to the target.  It is dropped
on an error, and not there yet if the loop is still running. -/
def replay (lab : LabInner S) (best : Nat) (target : VirtTime) (host : BranchHost)
    (turns : List Turn) : Except LabError (Option (Branch S)) :=
  match lab.registered[best]? with
  | none => .ok none
  | some c =>
    match c.branch best host with
    | .error e => .error e
    | .ok tmp =>
      match tmp.runUntil target turns with
      | (.error e, _) => .error e
      | (.ok none, _) => .ok none
      | (.ok (some _), tmp) => .ok (some tmp)

omit [InputSource S] in
/-- The end of `rewind`: the new checkpoint takes its place in the tree. -/
def insertRewound (lab : LabInner S) (id best : Nat) (target : VirtTime) (tmp : Branch S) :
    LabInner S :=
  let cp := lab.registered.length
  let lab := lab.register tmp.freeze (some best)
  let child := (lab.logicalChildAfter target best (lab.registered.length + 1) id).getD id
  lab.reparent child cp

/-- `rewind`; `none` as long as the replay runs. -/
def rewind (lab : LabInner S) (id : Nat) (span : VirtDuration) (host : BranchHost)
    (turns : List Turn) : Except LabError (Option Nat) × LabInner S :=
  if span.frequency ≠ lab.tscFrequency then
    (.error (.input (.frequencyMismatch span.frequency lab.tscFrequency)), lab)
  else
    let target := lab.time id - span
    let candidates := lab.rewindCandidates id target
    match candidates.find? fun cp => lab.time cp = target with
    | some cp => (.ok (some cp), lab.hold cp)
    | none =>
      match candidates.argmax fun cp => toLex (lab.time cp, cp) with
      | none => (.error (.noCheckpointBefore target), lab)
      | some best =>
        match lab.replay best target host turns with
        | .error e => (.error e, lab)
        | .ok none => (.ok none, lab)
        | .ok (some tmp) =>
          (.ok (some lab.registered.length), lab.insertRewound id best target tmp)

end LabInner

/-! ## Operations on a lab -/

/-- `hold` is any way to get one more handle to a checkpoint that is alive: `clone`,
`parent`, `origin`, `tree`. -/
inductive LabOp (S : Type)
  | branch (id : Nat) (host : BranchHost)
  | branchWithInputSource (id : Nat) (source : S) (host : BranchHost)
  | perform (branch : Nat) (op : BranchOp)
  | checkpoint (branch : Nat)
  | rewind (id : Nat) (span : VirtDuration) (host : BranchHost) (turns : List Turn)
  | hold (id : Nat)
  | dropCheckpoint (id : Nat)
  | dropBranch (branch : Nat)

namespace LabInner

variable {S : Type}

def addBranch (lab : LabInner S) : Except LabError (Branch S) → LabInner S
  | .error _ => lab
  | .ok b => { lab with branches := lab.branches ++ [some b] }

variable [InputSource S]

def step (lab : LabInner S) : LabOp S → LabInner S
  | .branch id host =>
    match lab.checkpoint id with
    | none => lab
    | some c => lab.addBranch (c.branch id host)
  | .branchWithInputSource id source host =>
    match lab.checkpoint id with
    | none => lab
    | some c => lab.addBranch (c.branchWithInputSource id source host)
  | .perform i op =>
    match lab.branches[i]? with
    | some (some b) => { lab with branches := lab.branches.set i (some (b.perform op).2) }
    | _ => lab
  | .checkpoint i =>
    match lab.branches[i]? with
    | some (some b) =>
      { lab.register b.freeze (some b.origin) with branches := lab.branches.set i none }
    | _ => lab
  | .rewind id span host turns =>
    if lab.live id then (lab.rewind id span host turns).2 else lab
  | .hold id => if lab.live id then lab.hold id else lab
  | .dropCheckpoint id => { lab with held := Function.update lab.held id false }
  | .dropBranch i => { lab with branches := lab.branches.set i none }

def perform (lab : LabInner S) (ops : List (LabOp S)) : LabInner S :=
  ops.foldl step lab

end LabInner

end Lab

end Bedrock
