import Bedrock.Support.Program
import Bedrock.Support.Radix

/-!
# Copying radix tables

A deep copy of a tree of tables to fresh frames: entries of the last level are copied in
place, every other used entry gets a fresh table.  The copy is a tree of the same shape,
and nothing else in the heap changes, so it does not matter that the source is read from
the heap that is being written.
-/

namespace Support

open Tables Program List Option

variable {F E : Type} {next : E → Option F} [DecidableEq F]

variable (next) (leaf : E → E) (table : F → E → E) (empty : E) (fanout : Nat) (src : Tables F E)

/-- Tables written so far and the frames still to be handed out. -/
structure CopyState (F E : Type) where
  mem : Tables F E
  free : List F

/-- Copy the table at `s` to the empty table at `d`.  A table of level `0` holds
leaf entries; entries of a higher level point to tables that are copied in turn
to frames taken from `free`.  `none` means the frames ran out. -/
def copyTable : (level : Nat) → (s d : F) → CopyState F E → Option (CopyState F E)
  | 0, s, d, st =>
    (List.range fanout).foldlM
      (fun st i =>
        match next (src s i) with
        | none => some st
        | some _ => some { st with mem := st.mem.write d i (leaf (src s i)) })
      st
  | level + 1, s, d, st =>
    (List.range fanout).foldlM
      (fun st i =>
        match next (src s i) with
        | none => some st
        | some child =>
          match st.free with
          | [] => none
          | new :: free =>
            copyTable level child new
              ⟨link st.mem d i new empty (table new (src s i)), free⟩)
      st

variable {next leaf table empty fanout src}

def copyEntry (next : E → Option F) (leaf : E → E) (empty e : E) : E :=
  if (next e).isSome then leaf e else empty

variable (next leaf empty fanout src)

/-- Entries `i` with `done i` of the table at `s` have been copied to `d`, which
was empty in `st₀`; the copy is a tree on fresh frames and nothing else changed. -/
structure Copied (level : Nat) (done : Nat → Prop) (s d : F)
    (st₀ st : CopyState F E) (taken : List F) : Prop where
  free : st₀.free = taken ++ st.free
  frame : ∀ g, g ≠ d → g ∉ taken → st.mem g = st₀.mem g
  tree : IsTree next st.mem d level (d :: taken)
  pending : ∀ i, ¬done i → st.mem d i = empty
  entries : ∀ p i, p.length = level → (∀ j ∈ p ++ [i], j < fanout) →
    (∀ j, (p ++ [i]).head? = some j → done j) →
    entryAt next st.mem d p i = (entryAt next src s p i).map (copyEntry next leaf empty)

variable {next leaf empty fanout src}

omit [DecidableEq F] in
/-- A root whose entries are all unused is a tree by itself. -/
theorem isTree_of_unused {mem : Tables F E} {d : F} (h : ∀ i, next (mem d i) = none)
    (depth : Nat) : IsTree next mem d depth [d] := by
  have hnil : ∀ {p g}, walk next mem d p = some g → p = [] := by
    intro p g hg
    cases p with
    | nil => rfl
    | cons i p => simp [walk_cons, h i] at hg
  constructor
  · intro p g _ hg
    rw [hnil hg, walk_nil] at hg
    cases hg
    exact mem_singleton_self _
  · intro p q g _ _ hp hq
    rw [hnil hp, hnil hq]

omit [DecidableEq F] in
theorem isTree_zero (mem : Tables F E) (d : F) : IsTree next mem d 0 [d] := by
  constructor
  · intro p g hp hg
    rw [length_eq_zero_iff.mp (Nat.le_zero.mp hp), walk_nil] at hg
    cases hg
    exact mem_singleton_self _
  · intro p q g hp hq _ _
    rw [length_eq_zero_iff.mp (Nat.le_zero.mp hp), length_eq_zero_iff.mp (Nat.le_zero.mp hq)]

omit [DecidableEq F] in
theorem foldlM_range_invariant {σ : Type} {step : σ → Nat → Option σ} (P : Nat → σ → Prop)
    {n : Nat} {st st' : σ} (hstart : P 0 st)
    (hstep : ∀ k st st', k < n → P k st → step st k = some st' → P (k + 1) st')
    (hrun : (List.range n).foldlM step st = some st') : P n st' := by
  induction n generalizing st' with
  | zero =>
    cases hrun
    exact hstart
  | succ n ih =>
    rw [range_succ, foldlM_append] at hrun
    obtain ⟨mid, hmid, hlast⟩ := bind_eq_some_iff.mp hrun
    have hP := ih (fun k st st' hk => hstep k st st' (by omega)) hmid
    refine hstep n mid st' (Nat.lt_succ_self n) hP ?_
    simpa using hlast

omit [DecidableEq F] in
/-- A path that starts below `k + 1` starts below `k`, or it starts with `k`. -/
theorem head_lt_succ_cases {k i : Nat} {p : List Nat}
    (h : ∀ j, (p ++ [i]).head? = some j → j < k + 1) :
    (∀ j, (p ++ [i]).head? = some j → j < k) ∨ (p = [] ∧ i = k) ∨ ∃ q, p = k :: q := by
  cases p with
  | nil =>
    have hi := h i rfl
    simp only [nil_append, List.head?_cons, Option.some.injEq, forall_eq', true_and]
    omega
  | cons j p =>
    have hj := h j rfl
    simp only [cons_append, List.head?_cons, Option.some.injEq, forall_eq', List.cons.injEq]
    rcases Nat.lt_succ_iff_lt_or_eq.mp hj with hlt | rfl
    · exact .inl hlt
    · exact .inr (.inr ⟨p, rfl, rfl⟩)

variable {st' : CopyState F E}

section Step

variable {level k : Nat} {s d : F} {st₀ st : CopyState F E} {taken : List F}

omit [DecidableEq F] in
theorem Copied.start (hd : ∀ i, st₀.mem d i = empty) (hempty : next empty = none) :
    Copied next leaf empty fanout src level (· < 0) s d st₀ st₀ [] where
  free := rfl
  frame _ _ _ := rfl
  tree := isTree_of_unused (fun i => by rw [hd i, hempty]) level
  pending i _ := hd i
  entries p i _ _ hhead := by
    cases p with
    | nil => exact absurd (hhead i rfl) (Nat.not_lt_zero i)
    | cons j p => exact absurd (hhead j rfl) (Nat.not_lt_zero j)

omit [DecidableEq F] in
/-- An unused entry needs no copy. -/
theorem Copied.skip (hempty : next empty = none)
    (h : Copied next leaf empty fanout src level (· < k) s d st₀ st taken)
    (hunused : next (src s k) = none) :
    Copied next leaf empty fanout src level (· < k + 1) s d st₀ st taken where
  free := h.free
  frame := h.frame
  tree := h.tree
  pending i hi := h.pending i (by omega)
  entries p i hp hlt hhead := by
    have hk : st.mem d k = empty := h.pending k (Nat.lt_irrefl k)
    obtain hold | ⟨rfl, rfl⟩ | ⟨q, rfl⟩ := head_lt_succ_cases hhead
    · exact h.entries p i hp hlt hold
    · simp [entryAt, hk, copyEntry, hunused]
    · simp [entryAt, walk_cons, hk, hempty, hunused]

theorem Copied.leaf_entry {child : F}
    (h : Copied next leaf empty fanout src 0 (· < k) s d st₀ st taken)
    (hused : next (src s k) = some child) :
    Copied next leaf empty fanout src 0 (· < k + 1) s d st₀
      { st with mem := st.mem.write d k (leaf (src s k)) } taken where
  free := h.free
  frame g hg hgt := by
    rw [← h.frame g hg hgt]
    funext i
    exact write_of_ne _ _ _ _ (Or.inl hg)
  tree := by
    refine ⟨fun hp hg => ?_, (isTree_zero _ d).unshared⟩
    exact mem_cons.mpr (Or.inl (mem_singleton.mp ((isTree_zero _ d).reach hp hg)))
  pending i hi := by
    rw [← h.pending i (by omega)]
    exact write_of_ne _ _ _ _ (Or.inr (by omega))
  entries p i hp hlt hhead := by
    obtain rfl := length_eq_zero_iff.mp hp
    obtain hold | ⟨-, rfl⟩ | ⟨q, hq⟩ := head_lt_succ_cases hhead
    · have := h.entries [] i hp hlt hold
      simp only [entryAt, walk_nil, map_some] at this ⊢
      rw [← this, write_of_ne _ _ _ _ (Or.inr (Nat.ne_of_lt (hold i rfl)))]
    · simp [entryAt, copyEntry, hused]
    · cases hq

/-- What the copy of one entry does to the table at `d` and around it, once the table below
has been copied to `new`. -/
structure ChildCopied (d new : F) (k : Nat) (e : E) (taken block : List F)
    (st st' : CopyState F E) : Prop where
  apart : ∀ g ∈ new :: block, g ∉ d :: taken
  slot : st'.mem d k = e
  others : ∀ j, j ≠ k → st'.mem d j = st.mem d j
  rest : ∀ g, g ≠ d → g ∉ new :: block → st'.mem g = st.mem g

omit [DecidableEq F] in
theorem ChildCopied.kept {new : F} {block : List F} {e : E}
    (h : ChildCopied d new k e taken block st st') :
    ∀ g ∈ d :: taken, g ≠ d → st'.mem g = st.mem g :=
  fun g hg hgd => h.rest g hgd fun hcon => h.apart g hcon hg

omit [DecidableEq F] in
theorem ChildCopied.entryAt_eq {new : F} {block : List F} {e : E} {n : Nat}
    (h : ChildCopied d new k e taken block st st')
    (htree : IsTree next st.mem d (n + 1) (d :: taken)) {j : Nat} (hj : j ≠ k) {p : List Nat}
    (hp : p.length ≤ n) (i : Nat) :
    entryAt next st'.mem d (j :: p) i = entryAt next st.mem d (j :: p) i := by
  have hlen : (j :: p).length ≤ n + 1 := by
    rw [length_cons]
    omega
  rw [entryAt, entryAt, htree.walk_graft h.others h.kept hj hp]
  cases hg : walk next st.mem d (j :: p) with
  | none => rfl
  | some g =>
    have hgd : g ≠ d := by
      rintro rfl
      exact absurd (htree.unshared hlen (Nat.zero_le _) hg (walk_nil st.mem g)) (by simp)
    rw [map_some, map_some, h.kept g (htree.reach hlen hg) hgd]

theorem Copied.child_copied {new : F} {free block : List F} {child : F} {e : E}

    (h : Copied next leaf empty fanout src (level + 1) (· < k) s d st₀ st taken)
    (hnodup : st₀.free.Nodup) (hdfree : d ∉ st₀.free) (hfree : st.free = new :: free)
    (hsub : Copied next leaf empty fanout src level (· < fanout) child new
      ⟨link st.mem d k new empty e, free⟩ st' block) :
    ChildCopied d new k e taken block st st' := by
  have hall : st₀.free = taken ++ new :: (block ++ st'.free) := by
    rw [h.free, hfree, show free = block ++ st'.free from hsub.free]
  have hdis : ∀ g ∈ new :: block, g ∉ d :: taken := by
    intro g hg hcon
    have hgfree : g ∈ st₀.free := by
      rw [hall, ← List.cons_append]
      exact List.mem_append_right _ (List.mem_append_left _ hg)
    rcases List.mem_cons.mp hcon with rfl | ht
    · exact hdfree hgfree
    · rw [hall, ← List.cons_append, ← List.append_assoc] at hnodup
      exact (List.nodup_append.mp (List.nodup_append.mp hnodup).1).2.2 g ht g hg rfl
  have hdnew : d ≠ new := fun hcon => hdis new List.mem_cons_self (by simp [hcon])
  have hdblock : d ∉ block := fun hcon =>
    hdis d (List.mem_cons_of_mem _ hcon) List.mem_cons_self
  refine ⟨hdis, ?_, fun j hj => ?_, fun g hgd hg => ?_⟩
  · rw [hsub.frame d hdnew hdblock]
    simp [link]
  · rw [hsub.frame d hdnew hdblock]
    simp [link, Tables.write_of_ne _ _ _ _ (Or.inr hj), Tables.fill_of_ne _ _ _ hdnew]
  · have hgnew : g ≠ new := fun hcon => hg (by simp [hcon])
    rw [hsub.frame g hgnew fun hcon => hg (List.mem_cons_of_mem _ hcon)]
    funext i
    simp [link, Tables.write_of_ne _ _ _ _ (Or.inl hgd), Tables.fill_of_ne _ _ _ hgnew]

/-- A used entry of a higher table gets a fresh table, filled by a copy of the
table below it. -/
theorem Copied.child_entry {new : F} {free block : List F} {child : F} {e : E}

    (h : Copied next leaf empty fanout src (level + 1) (· < k) s d st₀ st taken)
    (hnodup : st₀.free.Nodup) (hdfree : d ∉ st₀.free) (hfree : st.free = new :: free)
    (hused : next (src s k) = some child) (hentry : next e = some new)
    (hsub : Copied next leaf empty fanout src level (· < fanout) child new
      ⟨link st.mem d k new empty e, free⟩ st' block) :
    Copied next leaf empty fanout src (level + 1) (· < k + 1) s d st₀ st'
      (taken ++ new :: block) := by
  have hcopied := h.child_copied hnodup hdfree hfree hsub
  have hslot : next (st'.mem d k) = some new := by rw [hcopied.slot, hentry]
  refine ⟨?_, fun g hgd hg => ?_, ?_, fun i hi => ?_, fun p i hp hlt hhead => ?_⟩
  · rw [h.free, hfree, show free = block ++ st'.free from hsub.free]
    simp
  · rw [List.mem_append, not_or] at hg
    rw [hcopied.rest g hgd hg.2, h.frame g hgd hg.1]
  · exact h.tree.graft hslot hcopied.others hcopied.kept hsub.tree hcopied.apart
  · rw [hcopied.others i (by omega), h.pending i (by omega)]
  obtain hold | ⟨rfl, -⟩ | ⟨q, rfl⟩ := head_lt_succ_cases hhead
  · cases p with
    | nil => simp at hp
    | cons j p =>
      rw [hcopied.entryAt_eq h.tree (Nat.ne_of_lt (hold j rfl)) (Nat.le_of_eq (Nat.succ.inj hp))]
      exact h.entries (j :: p) i hp hlt hold
  · simp at hp
  · -- the entry just copied: both walks go one table down
    have := hsub.entries q i (Nat.succ.inj hp)
      (fun j' hj' => hlt j' (List.mem_cons_of_mem _ hj')) fun j' hj' =>
        hlt j' (List.mem_cons_of_mem _ (List.mem_of_mem_head? hj'))
    simpa [entryAt, walk_cons, hslot, hused] using this

end Step

/-! ### The tables above the last level -/

variable (next table empty fanout src)

/-- An entry above the last level and its copy. -/
def CopiedEntry (e e' : E) : Prop :=
  next e = none ∧ e' = empty ∨ (next e).isSome ∧ ∃ new, e' = table new e

/-- The tables copied so far: all that were taken are reached, and the entries above the last
level are copies of those of the source. -/
structure CopiedTables (level : Nat) (done : Nat → Prop) (s d : F) (st : CopyState F E)
    (taken : List F) : Prop where
  reached : ∀ f ∈ d :: taken, ∃ p, p.length ≤ level ∧ (∀ j ∈ p, j < fanout) ∧
    walk next st.mem d p = some f
  inner : ∀ p i, p.length < level → (∀ j ∈ p ++ [i], j < fanout) →
    (∀ j, (p ++ [i]).head? = some j → done j) →
    Option.Rel (CopiedEntry next table empty) (entryAt next src s p i) (entryAt next st.mem d p i)

variable {next table empty fanout src}

section Tables

variable {level k : Nat} {s d : F} {st₀ st : CopyState F E} {taken : List F}

omit [DecidableEq F] in
theorem CopiedTables.start : CopiedTables next table empty fanout src level (· < 0) s d st [] where
  reached f hf := by
    rw [mem_singleton.mp hf]
    exact ⟨[], Nat.zero_le _, by simp, rfl⟩
  inner p i _ _ hhead := by
    cases p with
    | nil => exact absurd (hhead i rfl) (Nat.not_lt_zero i)
    | cons j p => exact absurd (hhead j rfl) (Nat.not_lt_zero j)

omit [DecidableEq F] in
theorem CopiedTables.skip (hempty : next empty = none)
    (h : CopiedTables next table empty fanout src level (· < k) s d st taken)
    (hpending : st.mem d k = empty) (hunused : next (src s k) = none) :
    CopiedTables next table empty fanout src level (· < k + 1) s d st taken where
  reached := h.reached
  inner p i hp hlt hhead := by
    obtain hold | ⟨rfl, rfl⟩ | ⟨q, rfl⟩ := head_lt_succ_cases hhead
    · exact h.inner p i hp hlt hold
    · rw [entryAt, entryAt, walk_nil, walk_nil, map_some, map_some, hpending]
      exact .some (.inl ⟨hunused, rfl⟩)
    · simp only [entryAt, walk_cons, hpending, hempty, hunused, bind_none, map_none]
      exact .none

omit [DecidableEq F] in
theorem CopiedTables.of_level_zero {done done' : Nat → Prop}
    (h : CopiedTables next table empty fanout src 0 done s d st taken) :
    CopiedTables next table empty fanout src 0 done' s d st' taken where
  reached f hf := by
    obtain ⟨p, hp, hlt, hwalk⟩ := h.reached f hf
    obtain rfl := length_eq_zero_iff.mp (Nat.le_zero.mp hp)
    exact ⟨[], hp, hlt, hwalk⟩
  inner p i hp := absurd hp (Nat.not_lt_zero _)

omit [DecidableEq F] in
theorem CopiedTables.child_entry {new : F} {block : List F} {child : F}
    (h : CopiedTables next table empty fanout src (level + 1) (· < k) s d st taken)
    (htree : IsTree next st.mem d (level + 1) (d :: taken)) (hk : k < fanout)
    (hempty : next empty = none) (hpending : st.mem d k = empty)
    (hused : next (src s k) = some child) (hentry : next (table new (src s k)) = some new)
    (hcopied : ChildCopied d new k (table new (src s k)) taken block st st')
    (hsub : CopiedTables next table empty fanout src level (· < fanout) child new st' block) :
    CopiedTables next table empty fanout src (level + 1) (· < k + 1) s d st'
      (taken ++ new :: block) := by
  have hslot : next (st'.mem d k) = some new := by rw [hcopied.slot, hentry]
  constructor
  · intro f hf
    rw [← cons_append, mem_append] at hf
    rcases hf with hold | hnew
    · obtain ⟨p, hp, hlt, hwalk⟩ := h.reached f hold
      refine ⟨p, hp, hlt, ?_⟩
      cases p with
      | nil => exact hwalk
      | cons j p =>
        have hjk : j ≠ k := by
          rintro rfl
          rw [walk_cons, hpending, hempty] at hwalk
          cases hwalk
        rw [length_cons] at hp
        rw [htree.walk_graft hcopied.others hcopied.kept hjk (by omega), hwalk]
    · obtain ⟨p, hp, hlt, hwalk⟩ := hsub.reached f hnew
      refine ⟨k :: p, by rw [length_cons]; omega, forall_mem_cons.mpr ⟨hk, hlt⟩, ?_⟩
      rw [walk_cons, hslot, bind_some, hwalk]
  · intro p i hp hlt hhead
    obtain hold | ⟨rfl, rfl⟩ | ⟨q, rfl⟩ := head_lt_succ_cases hhead
    · cases p with
      | nil =>
        have hsame := h.inner [] i hp hlt hold
        simp only [entryAt, walk_nil, map_some] at hsame ⊢
        rwa [hcopied.others i (Nat.ne_of_lt (hold i rfl))]
      | cons j p =>
        rw [hcopied.entryAt_eq htree (Nat.ne_of_lt (hold j rfl))
          (Nat.le_of_lt (Nat.lt_of_succ_lt_succ hp))]
        exact h.inner (j :: p) i hp hlt hold
    · rw [entryAt, entryAt, walk_nil, walk_nil, map_some, map_some, hcopied.slot]
      exact .some (.inr ⟨by rw [hused]; rfl, new, rfl⟩)
    · -- the entry just copied: both walks go one table down
      have hbelow := hsub.inner q i (Nat.lt_of_succ_lt_succ hp)
        (fun j' hj' => hlt j' (mem_cons_of_mem _ hj')) fun j' hj' =>
          hlt j' (mem_cons_of_mem _ (mem_of_mem_head? hj'))
      simpa only [entryAt, walk_cons, hslot, hused, bind_some] using hbelow

omit [DecidableEq F] in
/-- The source and the copy have the same paths. -/
theorem CopiedTables.walk_isSome (htable : ∀ new e, (next e).isSome → next (table new e) = some new)
    (hempty : next empty = none)
    (h : CopiedTables next table empty fanout src level (· < fanout) s d st taken) {p : List Nat}
    (hp : p.length ≤ level) (hlt : ∀ j ∈ p, j < fanout) :
    (walk next st.mem d p).isSome = (walk next src s p).isSome := by
  have hwalk : ∀ (mem : Tables F E) (root : F) (q : List Nat) (j : Nat),
      walk next mem root (q ++ [j]) = (entryAt next mem root q j).bind next := by
    intro mem root q j
    rw [walk_concat, entryAt, bind_map]
    rfl
  rcases p.eq_nil_or_concat' with rfl | ⟨q, j, rfl⟩
  · rfl
  rw [length_append, length_singleton] at hp
  rw [hwalk, hwalk]
  have hinner := h.inner q j (by omega) hlt fun i hi => hlt i (mem_of_mem_head? hi)
  generalize entryAt next src s q j = e, entryAt next st.mem d q j = e' at hinner
  cases hinner with
  | none => rfl
  | some hentry =>
    rcases hentry with ⟨hunused, rfl⟩ | ⟨hused, new, rfl⟩
    · rw [bind_some, bind_some, hunused, hempty]
    · rw [bind_some, bind_some, htable new _ hused, hused]
      rfl

end Tables

/-- A successful copy, down to the tables it is made of. -/
theorem copyTable_copies (hempty : next empty = none)
    (htable : ∀ new e, (next e).isSome → next (table new e) = some new) :
    ∀ {level : Nat} {s d : F} {st₀ st : CopyState F E},
      st₀.free.Nodup → d ∉ st₀.free → (∀ i, st₀.mem d i = empty) →
      copyTable next leaf table empty fanout src level s d st₀ = some st →
      ∃ taken, Copied next leaf empty fanout src level (· < fanout) s d st₀ st taken ∧
        CopiedTables next table empty fanout src level (· < fanout) s d st taken
  | 0, s, d, st₀, st, _, _, hd, hrun => by
    refine foldlM_range_invariant
      (fun k st => ∃ taken, Copied next leaf empty fanout src 0 (· < k) s d st₀ st taken ∧
        CopiedTables next table empty fanout src 0 (· < k) s d st taken)
      ⟨[], Copied.start hd hempty, CopiedTables.start⟩ ?_ hrun
    rintro k st st' - ⟨taken, h, htables⟩ hstep
    cases hk : next (src s k) with
    | none =>
      simp only [hk] at hstep
      cases hstep
      exact ⟨taken, h.skip hempty hk, htables.of_level_zero⟩
    | some child =>
      simp only [hk] at hstep
      cases hstep
      exact ⟨taken, h.leaf_entry hk, htables.of_level_zero⟩
  | level + 1, s, d, st₀, st, hnodup, hdfree, hd, hrun => by
    refine foldlM_range_invariant
      (fun k st => ∃ taken,
        Copied next leaf empty fanout src (level + 1) (· < k) s d st₀ st taken ∧
        CopiedTables next table empty fanout src (level + 1) (· < k) s d st taken)
      ⟨[], Copied.start hd hempty, CopiedTables.start⟩ ?_ hrun
    rintro k st st' hlt ⟨taken, h, htables⟩ hstep
    have hpending : st.mem d k = empty := h.pending k (Nat.lt_irrefl k)
    cases hk : next (src s k) with
    | none =>
      simp only [hk] at hstep
      cases hstep
      exact ⟨taken, h.skip hempty hk, htables.skip hempty hpending hk⟩
    | some child =>
      simp only [hk] at hstep
      cases hfree : st.free with
      | nil => simp [hfree] at hstep
      | cons new free =>
        simp only [hfree] at hstep
        have hsuffix : (new :: free).Nodup ∧ ∀ g ∈ new :: free, g ∈ st₀.free := by
          rw [h.free, hfree] at hnodup
          refine ⟨(nodup_append.mp hnodup).2.1, fun g hg => ?_⟩
          rw [h.free, hfree]
          exact mem_append_right _ hg
        have hnewd : new ≠ d := by
          rintro rfl
          exact hdfree (hsuffix.2 new mem_cons_self)
        have hentry := htable new (src s k) (by simp [hk])
        obtain ⟨block, hsub, hsubtables⟩ := copyTable_copies hempty htable
          (nodup_cons.mp hsuffix.1).2 (nodup_cons.mp hsuffix.1).1
          (fun i => by simp [link, write_of_ne _ _ _ _ (Or.inl hnewd)]) hstep
        exact ⟨_, h.child_entry hnodup hdfree hfree hk hentry hsub,
          htables.child_entry h.tree hlt hempty hpending hk hentry
            (h.child_copied hnodup hdfree hfree hsub) hsubtables⟩

/-- A successful copy of the table at `s` to the empty table at `d` is a tree on
frames taken from `free`; its entries are those of the source, with every leaf
entry replaced by its copy. -/
theorem copyTable_spec (hempty : next empty = none)
    (htable : ∀ new e, (next e).isSome → next (table new e) = some new)
    {level : Nat} {s d : F} {st₀ st : CopyState F E}
    (hnodup : st₀.free.Nodup) (hdfree : d ∉ st₀.free) (hd : ∀ i, st₀.mem d i = empty)
    (hrun : copyTable next leaf table empty fanout src level s d st₀ = some st) :
    ∃ taken, Copied next leaf empty fanout src level (· < fanout) s d st₀ st taken := by
  obtain ⟨taken, hcopied, -⟩ := copyTable_copies hempty htable hnodup hdfree hd hrun
  exact ⟨taken, hcopied⟩

/-! ### Copying within one heap -/

variable (next leaf table empty)

def takeFrame {ε : Type} (exhausted : ε) : Program ε (CopyState F E) F := fun st =>
  match st.free with
  | [] => (.error exhausted, st)
  | new :: free => (.ok new, { st with free })

def copyLeaf {ε : Type} (s d : F) (i : Nat) : Program ε (CopyState F E) Unit := do
  let e ← read fun st => st.mem s i
  match next e with
  | none => pure ()
  | some _ => update fun st => { st with mem := st.mem.write d i (leaf e) }

/-- Copy an entry above the last level: `below` copies the table it points to. -/
def copyChild {ε : Type} (exhausted : ε) (below : F → F → Program ε (CopyState F E) Unit)
    (s d : F) (i : Nat) : Program ε (CopyState F E) Unit := do
  let e ← read fun st => st.mem s i
  match next e with
  | none => pure ()
  | some child => do
    let new ← takeFrame exhausted
    update fun st => { st with mem := link st.mem d i new empty (table new e) }
    below child new

variable (fanout)

/-- The copy as a program on one heap: the source is read from the heap that is written, and
what has been written stays when the frames run out. -/
def copyInPlace {ε : Type} (exhausted : ε) : (level : Nat) → (s d : F) →
    Program ε (CopyState F E) Unit
  | 0, s, d => .forEach (List.range fanout) (copyLeaf next leaf s d)
  | level + 1, s, d => .forEach (List.range fanout)
      (copyChild next table empty exhausted (copyInPlace exhausted level) s d)

variable {next leaf table empty fanout}

/-- Only the table `d` and frames that were free have been written. -/
structure WritesWithin (d : F) (st st' : CopyState F E) : Prop where
  free : st'.free <:+ st.free
  mem : ∀ g, g ∉ d :: st.free → st'.mem g = st.mem g

omit [DecidableEq F] in
theorem WritesWithin.refl (d : F) (st : CopyState F E) : WritesWithin d st st :=
  ⟨suffix_rfl, fun _ _ => rfl⟩

omit [DecidableEq F] in
theorem WritesWithin.trans {d : F} {a b c : CopyState F E} (hab : WritesWithin d a b)
    (hbc : WritesWithin d b c) : WritesWithin d a c := by
  refine ⟨hbc.free.trans hab.free, fun g hg => ?_⟩
  have hsub : d :: b.free ⊆ d :: a.free := cons_subset_cons d hab.free.subset
  rw [hbc.mem g fun hcon => hg (hsub hcon), hab.mem g hg]

theorem WritesWithin.write (d : F) (st : CopyState F E) (i : Nat) (e : E) :
    WritesWithin d st { st with mem := st.mem.write d i e } := by
  refine ⟨suffix_rfl, fun g hg => ?_⟩
  have hgd : g ≠ d := fun hcon => hg (by simp [hcon])
  funext j
  exact write_of_ne _ _ _ _ (.inl hgd)

theorem WritesWithin.of_child {d new : F} {i : Nat} {e : E} {free : List F} {st st' : CopyState F E}
    (hfree : st.free = new :: free)
    (h : WritesWithin new ⟨link st.mem d i new empty e, free⟩ st') : WritesWithin d st st' := by
  refine ⟨?_, fun g hg => ?_⟩
  · rw [hfree]
    exact h.free.trans (suffix_cons new free)
  rw [hfree, mem_cons, not_or] at hg
  have hgnew : g ≠ new := fun hcon => hg.2 (by simp [hcon])
  rw [h.mem g hg.2]
  funext j
  exact (write_of_ne _ _ _ _ (.inl hg.1)).trans (fill_of_ne _ _ _ hgnew)

section InPlace

variable {ε : Type} (exhausted : ε) {s d : F} {i : Nat} {st : CopyState F E}
  {below : F → F → Program ε (CopyState F E) Unit}

theorem copyLeaf_apply : copyLeaf (ε := ε) next leaf s d i st =
    (.ok (), if (next (st.mem s i)).isSome then
      { st with mem := st.mem.write d i (leaf (st.mem s i)) } else st) := by
  rw [copyLeaf, read_bind]
  cases next (st.mem s i) with
  | none | some child => rfl

theorem copyChild_unused (h : next (st.mem s i) = none) :
    copyChild next table empty exhausted below s d i st = (.ok (), st) := by
  rw [copyChild, read_bind, h]
  rfl

theorem copyChild_exhausted {child : F} (h : next (st.mem s i) = some child)
    (hfree : st.free = []) :
    copyChild next table empty exhausted below s d i st = (.error exhausted, st) := by
  have htake : takeFrame exhausted st = (.error exhausted, st) := by rw [takeFrame, hfree]
  rw [copyChild, read_bind, h]
  exact bind_error htake

theorem copyChild_taken {child new : F} {free : List F} (h : next (st.mem s i) = some child)
    (hfree : st.free = new :: free) :
    copyChild next table empty exhausted below s d i st =
      below child new ⟨link st.mem d i new empty (table new (st.mem s i)), free⟩ := by
  have htake : takeFrame exhausted st = (.ok new, { st with free }) := by rw [takeFrame, hfree]
  rw [copyChild, read_bind, h]
  dsimp only
  rw [bind_ok htake, bind_ok (update_apply _ _)]

theorem copyLeaf_within : WritesWithin d st (copyLeaf (ε := ε) next leaf s d i st).2 := by
  rw [copyLeaf_apply]
  dsimp only
  split
  · exact .write d st i _
  · exact .refl d st

theorem copyChild_within (hbelow : ∀ child new st, WritesWithin new st (below child new st).2) :
    WritesWithin d st (copyChild next table empty exhausted below s d i st).2 := by
  cases hused : next (st.mem s i) with
  | none =>
    rw [copyChild_unused exhausted hused]
    exact .refl d st
  | some child =>
    cases hfree : st.free with
    | nil =>
      rw [copyChild_exhausted exhausted hused hfree]
      exact .refl d st
    | cons new free =>
      rw [copyChild_taken exhausted hused hfree]
      exact .of_child hfree (hbelow child new _)

end InPlace

/-- The copy writes the table at `d` and fresh tables only, also when it fails. -/
theorem copyInPlace_within {ε : Type} (exhausted : ε) :
    ∀ (level : Nat) (s d : F) (st : CopyState F E), WritesWithin d st
      (copyInPlace next leaf table empty fanout exhausted level s d st).2
  | 0, _, d, st =>
    forEach_rel (WritesWithin.refl d) WritesWithin.trans (fun _ _ => copyLeaf_within) _ st
  | level + 1, _, d, st =>
    forEach_rel (WritesWithin.refl d) WritesWithin.trans
      (fun _ _ => copyChild_within exhausted (copyInPlace_within exhausted level)) _ st

/-- The tables below `s` are out of reach of the copy and still as in `src`. -/
def Unwritten (next : E → Option F) (src : Tables F E) (level : Nat) (s d : F)
    (st : CopyState F E) : Prop :=
  ∀ p f, p.length ≤ level → walk next src s p = some f → f ∉ d :: st.free ∧ st.mem f = src f

omit [DecidableEq F] in
theorem Unwritten.mono {level : Nat} {s d : F} {st st' : CopyState F E}
    (h : Unwritten next src level s d st) (hwithin : WritesWithin d st st') :
    Unwritten next src level s d st' := by
  intro p f hp hf
  obtain ⟨hfresh, hmem⟩ := h p f hp hf
  refine ⟨fun hcon => hfresh ?_, by rw [hwithin.mem f hfresh, hmem]⟩
  exact cons_subset_cons d hwithin.free.subset hcon

omit [DecidableEq F] in
theorem Unwritten.source {level : Nat} {s d : F} {st : CopyState F E}
    (h : Unwritten next src level s d st) : st.mem s = src s :=
  (h [] s (Nat.zero_le _) rfl).2

/-- The table an entry points to is out of reach of its own copy. -/
theorem Unwritten.child {level : Nat} {s d child new : F} {i : Nat} {e : E} {free : List F}
    {st : CopyState F E} (h : Unwritten next src (level + 1) s d st)
    (hused : next (src s i) = some child) (hfree : st.free = new :: free) :
    Unwritten next src level child new ⟨link st.mem d i new empty e, free⟩ := by
  intro p f hp hf
  obtain ⟨hfresh, hmem⟩ := h (i :: p) f (by rw [length_cons]; omega)
    (by rw [walk_cons, hused]; exact hf)
  rw [hfree, mem_cons, not_or] at hfresh
  refine ⟨hfresh.2, ?_⟩
  have hfnew : f ≠ new := fun hcon => hfresh.2 (by simp [hcon])
  rw [← hmem]
  funext j
  exact (write_of_ne _ _ _ _ (.inl hfresh.1)).trans (fill_of_ne _ _ _ hfnew)

omit [DecidableEq F] in
theorem foldlM_congr_of_invariant {σ : Type} {f g : σ → Nat → Option σ} {P : σ → Prop}
    (hfg : ∀ st i, P st → f st i = g st i)
    (hstep : ∀ st st' i, P st → f st i = some st' → P st') (l : List Nat) {st : σ} (hst : P st) :
    l.foldlM f st = l.foldlM g st := by
  induction l generalizing st with
  | nil => rfl
  | cons i l ih =>
    rw [foldlM_cons, foldlM_cons, ← hfg st i hst]
    cases hf : f st i with
    | none => rfl
    | some st' => exact ih (hstep st st' i hst hf)

/-- Reading the source from the heap that is written makes no difference. -/
theorem copyInPlace_done {ε : Type} (exhausted : ε) :
    ∀ {level : Nat} {s d : F} {st : CopyState F E}, Unwritten next src level s d st →
      (copyInPlace next leaf table empty fanout exhausted level s d).done? st =
        copyTable next leaf table empty fanout src level s d st
  | 0, s, d, st, h => by
    rw [copyInPlace, done?_forEach, copyTable]
    refine foldlM_congr_of_invariant (P := Unwritten next src 0 s d) ?_ ?_ _ h
    · intro st i hst
      rw [done?, copyLeaf_apply, hst.source]
      cases next (src s i) with
      | none | some child => rfl
    · intro st st' i hst hrun
      obtain ⟨u, hrun⟩ := done?_eq_some_iff.mp hrun
      have hwithin : WritesWithin d st (copyLeaf (ε := ε) next leaf s d i st).2 := copyLeaf_within
      rw [hrun] at hwithin
      exact hst.mono hwithin
  | level + 1, s, d, st, h => by
    rw [copyInPlace, done?_forEach, copyTable]
    refine foldlM_congr_of_invariant (P := Unwritten next src (level + 1) s d) ?_ ?_ _ h
    · intro st i hst
      rw [done?]
      cases hused : next (src s i) with
      | none =>
        rw [copyChild_unused exhausted (by rw [hst.source, hused])]
      | some child =>
        have hread : next (st.mem s i) = some child := by rw [hst.source, hused]
        cases hfree : st.free with
        | nil => rw [copyChild_exhausted exhausted hread hfree]
        | cons new free =>
          rw [copyChild_taken exhausted hread hfree, hst.source]
          exact copyInPlace_done exhausted (hst.child hused hfree)
    · intro st st' i hst hrun
      obtain ⟨u, hrun⟩ := done?_eq_some_iff.mp hrun
      have hwithin : WritesWithin d st (copyChild next table empty exhausted
          (copyInPlace next leaf table empty fanout exhausted level) s d i st).2 :=
        copyChild_within exhausted (copyInPlace_within exhausted level)
      rw [hrun] at hwithin
      exact hst.mono hwithin

-- unfolding them unrolls the loops over all entries; their lemmas are all that is needed
attribute [irreducible] copyTable copyInPlace

end Support
