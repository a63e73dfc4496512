import Bedrock.Ept.Entry
import Bedrock.Support.Program
import Bedrock.Support.Radix

/-!
# EPT page tables

Four levels of 512-entry tables below a PML4 table.  The operations are those of
the page-table walk in the source; `lookup` after each of them is determined by
`lookup` before it.
-/

namespace Bedrock

open Support Option EptEntry

inductive EptRemapError
  | notMapped
  deriving DecidableEq, Repr

inductive AllocError
  | outOfFrames
  deriving DecidableEq, Repr

/-- The tables of an EPT: the PML4 frame, all frames allocated for it and their
contents. -/
structure EptTables where
  pml4 : HostFrame
  frames : List HostFrame
  tables : Tables HostFrame EptEntry

def EPT_FANOUT : Nat := 512

def tablePath (gpa : Nat) : List Nat :=
  [gpa / 2 ^ 39 % 512, gpa / 2 ^ 30 % 512, gpa / 2 ^ 21 % 512]

def ptIndex (gpa : Nat) : Nat :=
  gpa / 2 ^ 12 % 512

@[simp] theorem tablePath_length (gpa : Nat) : (tablePath gpa).length = 3 := rfl

theorem slot_eq_iff {g g' : Nat} (hg : g < 2 ^ 48) (hg' : g' < 2 ^ 48) :
    tablePath g = tablePath g' ∧ ptIndex g = ptIndex g' ↔ g / 4096 = g' / 4096 := by
  simp only [tablePath, ptIndex, List.cons.injEq, and_true]
  omega

namespace EptTables

/-- `walk` along the entries of the tables. -/
def walkTo (ept : EptTables) (path : List Nat) : Option HostFrame :=
  walk target ept.tables ept.pml4 path

def leaf (e : EptEntry) : Option (HostFrame × EptPermissions) :=
  e.target.map fun frame => (frame, e.permissions)

/-- The mapping in a slot: a last-level table and an index into it. -/
def slot (ept : EptTables) (path : List Nat) (i : Nat) : Option (HostFrame × EptPermissions) :=
  (entryAt target ept.tables ept.pml4 path i).bind leaf

def lookup (ept : EptTables) (gpa : Nat) : Option (HostFrame × EptPermissions) :=
  ept.slot (tablePath gpa) (ptIndex gpa)

/-- Every table is reached along one path only and belongs to `frames`. -/
def Wf (ept : EptTables) : Prop :=
  IsTree target ept.tables ept.pml4 3 ept.frames

def setEntry (ept : EptTables) (table : HostFrame) (i : Nat) (e : EptEntry) : EptTables :=
  { ept with tables := ept.tables.write table i e }

/-- `remap_4k`: replaces the leaf of a mapped page. -/
def remap4k (ept : EptTables) (gpa : Nat) (frame : HostFrame) (perms : EptPermissions) :
    Except EptRemapError EptTables :=
  match ept.walkTo (tablePath gpa) with
  | none => .error .notMapped
  | some pt =>
    if (ept.tables pt (ptIndex gpa)).isPresent then
      .ok (ept.setEntry pt (ptIndex gpa) (.pageEntry4k frame perms))
    else .error .notMapped

theorem leaf_pageEntry4k {perms : EptPermissions} (h : perms.bits ≠ 0) (frame : HostFrame) :
    leaf (.pageEntry4k frame perms) = some (frame, perms) := by
  simp [leaf, target_pageEntry4k h]

theorem leaf_isSome (e : EptEntry) : (leaf e).isSome = e.isPresent := by
  cases h : e.isPresent <;> simp [leaf, target, h]

variable {ept ept' : EptTables} {gpa : Nat} {frame : HostFrame} {perms : EptPermissions}

theorem slot_setEntry (h : ept.Wf) {path : List Nat} {pt : HostFrame}
    (hpath : ept.walkTo path = some pt) (hlen : path.length = 3) (hperms : perms.bits ≠ 0)
    (i : Nat) {p : List Nat} (hp : p.length = 3) (j : Nat) :
    (ept.setEntry pt i (.pageEntry4k frame perms)).slot p j =
      if p = path ∧ j = i then some (frame, perms) else ept.slot p j := by
  simp only [slot, setEntry]
  rw [IsTree.entryAt_write_leaf h hpath hlen i _ (Nat.le_of_eq hp) j]
  split
  · exact leaf_pageEntry4k hperms frame
  · rfl

theorem remap4k_wf (h : ept.Wf) (hok : ept.remap4k gpa frame perms = .ok ept') : ept'.Wf := by
  unfold remap4k at hok
  split at hok
  · cases hok
  rename_i pt hpt
  split at hok
  · cases hok
    exact IsTree.write_leaf h hpt rfl _ _
  · cases hok

theorem slot_remap4k (h : ept.Wf) (hperms : perms.bits ≠ 0)
    (hok : ept.remap4k gpa frame perms = .ok ept') {p : List Nat} (hp : p.length = 3) (j : Nat) :
    ept'.slot p j =
      if p = tablePath gpa ∧ j = ptIndex gpa then some (frame, perms) else ept.slot p j := by
  unfold remap4k at hok
  split at hok
  · cases hok
  rename_i pt hpt
  split at hok
  · cases hok
    exact slot_setEntry h hpt rfl hperms _ hp j
  · cases hok

theorem remap4k_isOk_iff (ept : EptTables) (gpa : Nat) (frame : HostFrame)
    (perms : EptPermissions) :
    (∃ ept', ept.remap4k gpa frame perms = .ok ept') ↔ (ept.lookup gpa).isSome := by
  unfold remap4k lookup slot entryAt walkTo
  cases hpt : walk target ept.tables ept.pml4 (tablePath gpa) with
  | none => simp
  | some pt =>
    simp only [map_some, bind_some, leaf_isSome]
    cases (ept.tables pt (ptIndex gpa)).isPresent <;> simp

theorem lookup_remap4k (h : ept.Wf) (hperms : perms.bits ≠ 0)
    (hok : ept.remap4k gpa frame perms = .ok ept') (hgpa : gpa < 2 ^ 48)
    {g : Nat} (hg : g < 2 ^ 48) :
    ept'.lookup g =
      if g / 4096 = gpa / 4096 then some (frame, perms) else ept.lookup g := by
  rw [lookup, slot_remap4k h hperms hok rfl]
  simp only [slot_eq_iff hg hgpa, lookup]

/-- A page is mapped after a remap exactly if it was before. -/
theorem lookup_isSome_remap4k (h : ept.Wf) (hperms : perms.bits ≠ 0)
    (hok : ept.remap4k gpa frame perms = .ok ept') (g : Nat) :
    (ept'.lookup g).isSome = (ept.lookup g).isSome := by
  rw [lookup, slot_remap4k h hperms hok rfl]
  split
  · rename_i hslot
    have := (remap4k_isOk_iff ept gpa frame perms).mp ⟨ept', hok⟩
    rw [lookup, ← hslot.1, ← hslot.2] at this
    rw [lookup, this]
    rfl
  · rfl

end EptTables

end Bedrock
