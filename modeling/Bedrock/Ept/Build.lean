import Bedrock.Ept.Table
import Bedrock.Support.TreeCopy

/-!
# Building and cloning EPT page tables

Mapping a page allocates the tables that are missing on its path.  A fork clones
the whole tree with every leaf read-execute.  The frames handed out by the host
are distinct and unused; `EptBuild.Ok` is that promise together with the tree
shape built so far.
-/

namespace Bedrock

open Support EptEntry Program EptTables List EptPermissions

/-- Tables under construction and the frames the host will hand out next. -/
structure EptBuild where
  ept : EptTables
  free : List HostFrame

namespace EptBuild

structure Ok (b : EptBuild) : Prop where
  wf : b.ept.Wf
  nodup : b.free.Nodup
  fresh : ∀ f ∈ b.free, f ∉ b.ept.frames

/-- `EptPageTable::new`: one zeroed PML4 table. -/
def new : List HostFrame → Except AllocError EptBuild
  | [] => .error .outOfFrames
  | pml4 :: free => .ok ⟨⟨pml4, [pml4], fun _ _ => .empty⟩, free⟩

/-- `ensure_table`: the table entry `i` points to, allocated and linked if missing. -/
def ensureTable (table : HostFrame) (i : Nat) (perms : EptPermissions) :
    Program AllocError EptBuild HostFrame := fun b =>
  let current := b.ept.tables table i
  if current.isPresent then (.ok current.addr, b)
  else
    match b.free with
    | [] => (.error .outOfFrames, b)
    | frame :: free =>
      (.ok frame,
        ⟨{ b.ept with
            tables := link b.ept.tables table i frame .empty (.tableEntry frame perms)
            frames := frame :: b.ept.frames }, free⟩)

/-- `map_4k` -/
def map4k (gpa : Nat) (frame : HostFrame) (perms : EptPermissions) :
    Program AllocError EptBuild Unit := do
  let pml4 ← read fun b => b.ept.pml4
  let pdpt ← ensureTable pml4 (gpa / 2 ^ 39 % 512) perms
  let pd ← ensureTable pdpt (gpa / 2 ^ 30 % 512) perms
  let pt ← ensureTable pd (gpa / 2 ^ 21 % 512) perms
  update fun b =>
    { b with ept := b.ept.setEntry pt (ptIndex gpa) (.pageEntry4k frame perms) }

variable {b b' : EptBuild} {perms : EptPermissions}

theorem new_ok {free : List HostFrame} (hnodup : free.Nodup) (h : new free = .ok b) :
    b.Ok ∧ ∀ gpa, b.ept.lookup gpa = none := by
  cases free with
  | nil => cases h
  | cons pml4 free =>
    cases h
    refine ⟨⟨isTree_of_unused (fun _ => target_empty) 3,
      (nodup_cons.mp hnodup).2, fun f hf hcon => ?_⟩, fun gpa => ?_⟩
    · rw [mem_singleton.mp hcon] at hf
      exact (nodup_cons.mp hnodup).1 hf
    · cases hpt : walk EptEntry.target (fun _ _ => EptEntry.empty) pml4 (tablePath gpa) <;>
        simp [EptTables.lookup, EptTables.slot, entryAt, hpt, EptTables.leaf]

/-- What one step of a mapping keeps: the shape, the PML4 and every mapping. -/
structure Keeps (b b' : EptBuild) : Prop where
  ok : b'.Ok
  pml4 : b'.ept.pml4 = b.ept.pml4
  slot : ∀ p i, p.length = 3 → b'.ept.slot p i = b.ept.slot p i

theorem Keeps.refl (h : b.Ok) : Keeps b b :=
  ⟨h, rfl, fun _ _ _ => rfl⟩

theorem Keeps.trans {b'' : EptBuild} (h : Keeps b b') (h' : Keeps b' b'') : Keeps b b'' :=
  ⟨h'.ok, h'.pml4.trans h.pml4, fun p i hp => (h'.slot p i hp).trans (h.slot p i hp)⟩

variable {i gpa : Nat} {table frame : HostFrame}

theorem ensureTable_present (h : (b.ept.tables table i).isPresent) :
    ensureTable table i perms b = (.ok (b.ept.tables table i).addr, b) := by
  simp [ensureTable, h]

theorem ensureTable_exhausted (h : (b.ept.tables table i).isPresent = false) (hfree : b.free = []) :
    ensureTable table i perms b = (.error .outOfFrames, b) := by
  simp [ensureTable, h, hfree]

theorem ensureTable_alloc {free : List HostFrame}
    (h : (b.ept.tables table i).isPresent = false) (hfree : b.free = frame :: free) :
    ensureTable table i perms b =
      (.ok frame,
        ⟨{ b.ept with
            tables := link b.ept.tables table i frame .empty (.tableEntry frame perms)
            frames := frame :: b.ept.frames }, free⟩) := by
  simp [ensureTable, h, hfree]

theorem ensureTable_cases (h : b.Ok) (hperms : perms.bits ≠ 0) {q : List Nat}
    (hq : b.ept.walkTo q = some table) (hlen : q.length < 3)
    {r : Except AllocError HostFrame} (hrun : ensureTable table i perms b = (r, b')) :
    (b' = b ∧ ∀ frame, r = .ok frame → b.ept.walkTo (q ++ [i]) = some frame) ∨
    ∃ new free, b.free = new :: free ∧ r = .ok new ∧
      Links target b.ept.tables b.ept.pml4 3 b.ept.frames q table i new .empty
        (.tableEntry new perms) ∧
      b' = ⟨{ b.ept with
        tables := link b.ept.tables table i new .empty (.tableEntry new perms)
        frames := new :: b.ept.frames }, free⟩ := by
  have hq' : walk target b.ept.tables b.ept.pml4 q = some table := hq
  cases hpresent : (b.ept.tables table i).isPresent with
  | true =>
    rw [ensureTable_present hpresent] at hrun
    cases hrun
    refine .inl ⟨rfl, ?_⟩
    rintro frame ⟨⟩
    simp [walkTo, walk_concat, hq', target, hpresent]
  | false =>
    cases hfree : b.free with
    | nil =>
      rw [ensureTable_exhausted hpresent hfree] at hrun
      cases hrun
      exact .inl ⟨rfl, by rintro frame ⟨⟩⟩
    | cons new free =>
      rw [ensureTable_alloc hpresent hfree] at hrun
      cases hrun
      exact .inr ⟨new, free, rfl, rfl, ⟨hq, hlen, by simp [target, hpresent],
        h.fresh new (by simp [hfree]), target_empty,
        target_tableEntry hperms new⟩, rfl⟩

/-- `ensure_table` on a reached table leads to the table one step further and
keeps every mapping, whether or not the allocation succeeds. -/
theorem ensureTable_spec (h : b.Ok) (hperms : perms.bits ≠ 0) {q : List Nat}
    (hq : b.ept.walkTo q = some table) (hlen : q.length < 3)
    {r : Except AllocError HostFrame} (hrun : ensureTable table i perms b = (r, b')) :
    Keeps b b' ∧ ∀ frame, r = .ok frame → b'.ept.walkTo (q ++ [i]) = some frame := by
  obtain ⟨rfl, hframe⟩ | ⟨new, free, hfree, rfl, hlink, rfl⟩ :=
    ensureTable_cases h hperms hq hlen hrun
  · exact ⟨Keeps.refl h, hframe⟩
  have hnodup := h.nodup
  rw [hfree] at hnodup
  refine ⟨⟨⟨h.wf.link hlink, (nodup_cons.mp hnodup).2, fun f hf hcon => ?_⟩, rfl,
    fun p j hp => ?_⟩, ?_⟩
  · rcases mem_cons.mp hcon with rfl | hold
    · exact (nodup_cons.mp hnodup).1 hf
    · exact h.fresh f (by rw [hfree]; exact mem_cons_of_mem _ hf) hold
  · simp only [slot]
    rw [h.wf.entryAt_link hlink (Nat.le_of_eq hp)]
    split
    · -- the slot lay below the missing table, so it was unmapped before
      rename_i hpq
      have : walk target b.ept.tables b.ept.pml4 p = none := by
        rw [hpq, walk_concat, hlink.reached]
        exact hlink.unused
      simp [entryAt, this, leaf]
    · rw [if_neg]
      rintro ⟨rfl, -⟩
      omega
  · rintro frame ⟨⟩
    simp only [walkTo]
    rw [h.wf.walk_link hlink (by simp; omega)]
    simp

theorem map4k_cases {I : EptBuild → Prop} (hI : I b)
    (hensure : ∀ {a a' : EptBuild} {q : List Nat} {i : Nat} {table : HostFrame}
      {r : Except AllocError HostFrame}, I a → a.ept.walkTo q = some table → q.length < 3 →
      (∃ rest, tablePath gpa = q ++ i :: rest) → ensureTable table i perms a = (r, a') →
      I a' ∧ ∀ frame, r = .ok frame → a'.ept.walkTo (q ++ [i]) = some frame)
    {r : Except AllocError Unit} (hrun : map4k gpa frame perms b = (r, b')) :
    (∃ e, r = .error e ∧ I b') ∨
    ∃ a pt, r = .ok () ∧ I a ∧ a.ept.walkTo (tablePath gpa) = some pt ∧
      b' = { a with ept := a.ept.setEntry pt (ptIndex gpa) (.pageEntry4k frame perms) } := by
  unfold map4k at hrun
  rw [read_bind] at hrun
  rcases bind_eq_iff.mp hrun with ⟨pdpt, b₁, h₁, hrun⟩ | ⟨e, b₁, h₁, hr⟩
  · obtain ⟨k₁, w₁⟩ := hensure (q := []) hI rfl (by simp) ⟨_, rfl⟩ h₁
    rcases bind_eq_iff.mp hrun with ⟨pd, b₂, h₂, hrun⟩ | ⟨e, b₂, h₂, hr⟩
    · obtain ⟨k₂, w₂⟩ := hensure k₁ (w₁ pdpt rfl) (by simp) ⟨_, rfl⟩ h₂
      rcases bind_eq_iff.mp hrun with ⟨pt, b₃, h₃, hrun⟩ | ⟨e, b₃, h₃, hr⟩
      · obtain ⟨k₃, w₃⟩ := hensure k₂ (w₂ pd rfl) (by simp) ⟨_, rfl⟩ h₃
        cases hrun
        exact .inr ⟨b₃, pt, rfl, k₃, w₃ pt rfl, rfl⟩
      · cases hr
        exact .inl ⟨e, rfl, (hensure k₂ (w₂ pd rfl) (by simp) ⟨_, rfl⟩ h₃).1⟩
    · cases hr
      exact .inl ⟨e, rfl, (hensure k₁ (w₁ pdpt rfl) (by simp) ⟨_, rfl⟩ h₂).1⟩
  · cases hr
    exact .inl ⟨e, rfl, (hensure (q := []) hI rfl (by simp) ⟨_, rfl⟩ h₁).1⟩

theorem map4k_spec (h : b.Ok) (hperms : perms.bits ≠ 0)
    {r : Except AllocError Unit} (hrun : map4k gpa frame perms b = (r, b')) :
    b'.Ok ∧ b'.ept.pml4 = b.ept.pml4 ∧ ∀ p i, p.length = 3 → b'.ept.slot p i =
      if r = .ok () ∧ p = tablePath gpa ∧ i = ptIndex gpa then some (frame, perms)
      else b.ept.slot p i := by
  have hensure {a a' : EptBuild} {q : List Nat} {i : Nat} {table : HostFrame}
      {r : Except AllocError HostFrame} (hk : Keeps b a) (hq : a.ept.walkTo q = some table)
      (hlen : q.length < 3) (_ : ∃ rest, tablePath gpa = q ++ i :: rest)
      (hrun : ensureTable table i perms a = (r, a')) :
      Keeps b a' ∧ ∀ frame, r = .ok frame → a'.ept.walkTo (q ++ [i]) = some frame :=
    (ensureTable_spec hk.ok hperms hq hlen hrun).imp_left hk.trans
  obtain ⟨e, rfl, hk⟩ | ⟨a, pt, rfl, hk, hpath, rfl⟩ := map4k_cases (Keeps.refl h) hensure hrun
  · exact ⟨hk.ok, hk.pml4, fun p i hp => by simp [hk.slot p i hp]⟩
  refine ⟨⟨hk.ok.wf.write_leaf hpath rfl _ _, hk.ok.nodup, hk.ok.fresh⟩, hk.pml4, fun p i hp => ?_⟩
  rw [slot_setEntry hk.ok.wf hpath rfl hperms _ hp, hk.slot p i hp]
  simp

theorem ensureTable_isOk (table : HostFrame) (i : Nat) (perms : EptPermissions)
    (h : 1 ≤ b.free.length) :
    ∃ frame b', ensureTable table i perms b = (.ok frame, b') ∧
      b.free.length ≤ b'.free.length + 1 := by
  cases hpresent : (b.ept.tables table i).isPresent with
  | true => exact ⟨_, _, ensureTable_present hpresent, by omega⟩
  | false =>
    obtain ⟨frame, free, hfree⟩ := exists_cons_of_length_pos h
    exact ⟨_, _, ensureTable_alloc hpresent hfree, by simp [hfree]⟩

theorem map4k_isOk (gpa : Nat) (frame : HostFrame) (perms : EptPermissions)
    (h : 3 ≤ b.free.length) :
    ∃ b', map4k gpa frame perms b = (.ok (), b') ∧ b.free.length ≤ b'.free.length + 3 := by
  obtain ⟨pdpt, b₁, h₁, hlen₁⟩ := ensureTable_isOk b.ept.pml4 (gpa / 2 ^ 39 % 512) perms
    (show 1 ≤ b.free.length by omega)
  obtain ⟨pd, b₂, h₂, hlen₂⟩ := ensureTable_isOk pdpt (gpa / 2 ^ 30 % 512) perms
    (show 1 ≤ b₁.free.length by omega)
  obtain ⟨pt, b₃, h₃, hlen₃⟩ := ensureTable_isOk pd (gpa / 2 ^ 21 % 512) perms
    (show 1 ≤ b₂.free.length by omega)
  refine ⟨{ b₃ with ept := b₃.ept.setEntry pt (ptIndex gpa) (.pageEntry4k frame perms) }, ?_, ?_⟩
  · rw [map4k, read_bind, bind_ok h₁, bind_ok h₂, bind_ok h₃]
    rfl
  · dsimp only
    omega

theorem lookup_map4k (h : b.Ok) (hperms : perms.bits ≠ 0)
    (hrun : map4k gpa frame perms b = (.ok (), b')) (hgpa : gpa < 2 ^ 48)
    {g : Nat} (hg : g < 2 ^ 48) :
    b'.ept.lookup g = if g / 4096 = gpa / 4096 then some (frame, perms) else b.ept.lookup g := by
  obtain ⟨-, -, hslot⟩ := map4k_spec h hperms hrun
  rw [EptTables.lookup, hslot _ _ rfl]
  simp only [true_and, slot_eq_iff hg hgpa]
  rfl

end EptBuild

namespace EptTables

def forkLeaf (e : EptEntry) : EptEntry :=
  .pageEntry4k e.addr .READ_EXECUTE

def forkTable (frame : HostFrame) (e : EptEntry) : EptEntry :=
  .tableEntry frame e.permissions

/-- `clone_for_fork`, with the frames the host will hand out. -/
def cloneForFork (ept : EptTables) : List HostFrame → Except AllocError EptTables
  | [] => .error .outOfFrames
  | pml4 :: free =>
    match copyTable target forkLeaf forkTable .empty EPT_FANOUT ept.tables 3
        ept.pml4 pml4 ⟨fun _ _ => .empty, free⟩ with
    | none => .error .outOfFrames
    | some st =>
      .ok ⟨pml4, pml4 :: free.take (free.length - st.free.length), st.mem⟩

theorem leaf_copyEntry (e : EptEntry) :
    leaf (copyEntry target forkLeaf .empty e) = (leaf e).map fun m => (m.1, READ_EXECUTE) := by
  cases h : e.isPresent
  · have htarget : e.target = none := by simp [target, h]
    simp [copyEntry, leaf, htarget]
  have htarget : e.target = some e.addr := by simp [target, h]
  rw [copyEntry, htarget, Option.isSome_some, if_pos rfl, forkLeaf,
    leaf_pageEntry4k (by decide), leaf, htarget]
  rfl

theorem tablePath_lt (gpa : Nat) : ∀ j ∈ tablePath gpa ++ [ptIndex gpa], j < EPT_FANOUT := by
  intro j hj
  simp only [tablePath, ptIndex, cons_append, nil_append, mem_cons,
    not_mem_nil, or_false, EPT_FANOUT] at hj ⊢
  omega

theorem lookup_of_copied {src : Tables HostFrame EptEntry} {s d : HostFrame}
    {st₀ st : CopyState HostFrame EptEntry} {taken : List HostFrame}
    (h : Copied target forkLeaf .empty EPT_FANOUT src 3 (· < EPT_FANOUT) s d st₀ st taken)
    (frames frames' : List HostFrame) (g : Nat) :
    (⟨d, frames', st.mem⟩ : EptTables).lookup g =
      ((⟨s, frames, src⟩ : EptTables).lookup g).map fun m => (m.1, READ_EXECUTE) := by
  have hlt := tablePath_lt g
  simp only [lookup, slot]
  rw [h.entries (tablePath g) (ptIndex g) rfl hlt fun j hj => hlt j (mem_of_mem_head? hj)]
  cases entryAt target src s (tablePath g) (ptIndex g) with
  | none => rfl
  | some e => exact leaf_copyEntry e

theorem cloneForFork_spec {ept clone : EptTables} {free : List HostFrame}
    (hnodup : free.Nodup) (hok : ept.cloneForFork free = .ok clone) :
    clone.Wf ∧ ∀ g, clone.lookup g = (ept.lookup g).map fun m => (m.1, READ_EXECUTE) := by
  cases free with
  | nil => cases hok
  | cons pml4 free =>
    obtain ⟨hpml4, hnodup⟩ := nodup_cons.mp hnodup
    rw [cloneForFork] at hok
    generalize hcopy : copyTable target forkLeaf forkTable .empty EPT_FANOUT
      ept.tables 3 ept.pml4 pml4 ⟨fun _ _ => .empty, free⟩ = copy at hok
    cases copy with
    | none => cases hok
    | some st =>
      obtain ⟨taken, hcopied⟩ := copyTable_spec target_empty
        (fun new e he => target_tableEntry (permissions_bits_ne_zero he) new)
        hnodup hpml4 (fun _ => rfl) hcopy
      have htaken : free.take (free.length - st.free.length) = taken := by
        have hfree : free = taken ++ st.free := hcopied.free
        rw [hfree]
        simp
      cases hok
      refine ⟨?_, fun g => lookup_of_copied hcopied ept.frames _ g⟩
      simp only [Wf, htaken]
      exact hcopied.tree

end EptTables

/-- The EPT of a VM: tables that form a tree. -/
structure EptPageTable extends EptTables where
  wf : toEptTables.Wf

namespace EptPageTable

/-- `remap_4k` on a page table in use. -/
def remap (ept : EptPageTable) (gpa : Nat) (frame : HostFrame) (perms : EptPermissions) :
    Except EptRemapError EptPageTable :=
  match h : ept.remap4k gpa frame perms with
  | .error e => .error e
  | .ok tables => .ok ⟨tables, remap4k_wf ept.wf h⟩

theorem remap_eq_ok {ept ept' : EptPageTable} {gpa : Nat} {frame : HostFrame}
    {perms : EptPermissions} (h : ept.remap gpa frame perms = .ok ept') :
    ept.remap4k gpa frame perms = .ok ept'.toEptTables := by
  unfold remap at h
  split at h
  · cases h
  rename_i htables
  cases h
  exact htables

theorem remap_isOk_iff (ept : EptPageTable) (gpa : Nat) (frame : HostFrame)
    (perms : EptPermissions) :
    (∃ ept', ept.remap gpa frame perms = .ok ept') ↔ (ept.lookup gpa).isSome := by
  rw [← remap4k_isOk_iff ept.toEptTables gpa frame perms]
  constructor
  · rintro ⟨ept', h⟩
    exact ⟨_, remap_eq_ok h⟩
  rintro ⟨tables, h⟩
  unfold remap
  split
  · rename_i h'
    rw [h] at h'
    cases h'
  · exact ⟨_, rfl⟩

variable {ept ept' : EptPageTable} {gpa : Nat} {frame : HostFrame} {perms : EptPermissions}

theorem lookup_remap (hperms : perms.bits ≠ 0) (hok : ept.remap gpa frame perms = .ok ept')
    (hgpa : gpa < 2 ^ 48) {g : Nat} (hg : g < 2 ^ 48) :
    ept'.lookup g =
      if g / 4096 = gpa / 4096 then some (frame, perms) else ept.lookup g :=
  lookup_remap4k ept.wf hperms (remap_eq_ok hok) hgpa hg

theorem lookup_isSome_remap (hperms : perms.bits ≠ 0)
    (hok : ept.remap gpa frame perms = .ok ept') (g : Nat) :
    (ept'.lookup g).isSome = (ept.lookup g).isSome :=
  lookup_isSome_remap4k ept.wf hperms (remap_eq_ok hok) g

end EptPageTable

end Bedrock
