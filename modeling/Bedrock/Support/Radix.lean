import Mathlib.Data.List.Induction
import Mathlib.Data.List.Nodup
import Mathlib.Data.List.Perm.Subperm
import Mathlib.Tactic.Common

/-!
# Radix tables kept in a heap

Tables live at frames of a heap; an entry may point to the table of the next
level.  A set of tables reachable from a root is a tree when every frame is
reached along one path only.  The results say what writing a leaf entry and linking
a fresh table do to the walks from the root.
-/

namespace Support

open List Option

/-- A heap of tables: the entry at each index of each frame. -/
def Tables (F E : Type) : Type :=
  F → Nat → E

namespace Tables

variable {F E : Type} [DecidableEq F]

def write (mem : Tables F E) (f : F) (i : Nat) (e : E) : Tables F E :=
  fun f' i' => if f' = f ∧ i' = i then e else mem f' i'

/-- Fill a frame with one entry, as zeroing a page does. -/
def fill (mem : Tables F E) (f : F) (e : E) : Tables F E :=
  fun f' i' => if f' = f then e else mem f' i'

variable (mem : Tables F E)

@[simp] theorem write_self (f : F) (i : Nat) (e : E) : mem.write f i e f i = e := by
  simp [write]

theorem write_of_ne {f f' : F} (i i' : Nat) (e : E)
    (h : f' ≠ f ∨ i' ≠ i) : mem.write f i e f' i' = mem f' i' := by
  simp only [write]
  rw [if_neg]
  rintro ⟨rfl, rfl⟩
  simp at h

@[simp] theorem fill_self (f : F) (e : E) (i : Nat) : mem.fill f e f i = e := by
  simp [fill]

theorem fill_of_ne {f f' : F} (e : E) (i : Nat) (h : f' ≠ f) : mem.fill f e f' i = mem f' i := by
  simp [fill, h]

end Tables

section Walks

variable {F E : Type} (next : E → Option F)

/-- Follow a path of indices from a frame. -/
def walk (mem : Tables F E) (f : F) : List Nat → Option F
  | [] => some f
  | i :: path => (next (mem f i)).bind fun g => walk mem g path

variable {next} (mem : Tables F E)

@[simp] theorem walk_nil (f : F) : walk next mem f [] = some f := rfl

theorem walk_cons (f : F) (i : Nat) (path : List Nat) :
    walk next mem f (i :: path) = (next (mem f i)).bind fun g => walk next mem g path :=
  rfl

theorem walk_append (f : F) (p q : List Nat) :
    walk next mem f (p ++ q) = (walk next mem f p).bind fun g => walk next mem g q := by
  induction p generalizing f with
  | nil => rfl
  | cons i p ih =>
    rw [cons_append, walk_cons, walk_cons, bind_assoc]
    exact Option.bind_congr fun g _ => ih g

theorem walk_concat (f : F) (p : List Nat) (i : Nat) :
    walk next mem f (p ++ [i]) = (walk next mem f p).bind fun g => next (mem g i) := by
  rw [walk_append]
  refine Option.bind_congr fun g _ => ?_
  rw [walk_cons]
  cases next (mem g i) <;> rfl

variable {p : List Nat}

theorem walk_congr {mem mem' : Tables F E} {root : F}
    (h : ∀ r g, r <+: p → r.length < p.length → walk next mem root r = some g → mem' g = mem g) :
    walk next mem' root p = walk next mem root p := by
  induction p using List.reverseRecOn with
  | nil => rfl
  | append_singleton p j ih =>
    rw [walk_concat, walk_concat, ih]
    · refine Option.bind_congr fun g hg => ?_
      rw [h p g (prefix_append _ _) (by simp) hg]
    intro r g hr hlt hg
    exact h r g (hr.trans (prefix_append _ _)) (by rw [length_append, length_singleton]; omega) hg

variable (next)

/-- The entry at index `i` of the table a path leads to. -/
def entryAt (mem : Tables F E) (root : F) (p : List Nat) (i : Nat) : Option E :=
  (walk next mem root p).map fun g => mem g i

/-- The tables within `depth` steps of `root` form a tree on the frames `owned`. -/
structure IsTree (mem : Tables F E) (root : F) (depth : Nat) (owned : List F) : Prop where
  reach : ∀ {p f}, p.length ≤ depth → walk next mem root p = some f → f ∈ owned
  unshared : ∀ {p q f}, p.length ≤ depth → q.length ≤ depth →
    walk next mem root p = some f → walk next mem root q = some f → p = q

/-- A tree on exactly the frames it reaches, by indices below `fanout`. -/
structure IsExactTree (mem : Tables F E) (root : F) (depth fanout : Nat) (owned : List F) : Prop
    extends IsTree next mem root depth owned where
  nodup : owned.Nodup
  reached : ∀ f ∈ owned, ∃ p, p.length ≤ depth ∧ (∀ j ∈ p, j < fanout) ∧
    walk next mem root p = some f

variable {next}

section Agree

variable {mem mem' : Tables F E} {root : F} {depth fanout : Nat} {owned : List F}

/-- A tree does not depend on the heap outside its frames. -/
theorem IsTree.walk_of_agree (h : IsTree next mem root depth owned)
    (hsame : ∀ f ∈ owned, mem' f = mem f) (hp : p.length ≤ depth + 1) :
    walk next mem' root p = walk next mem root p :=
  walk_congr fun _ g _ hlt hg => hsame g (h.reach (by omega) hg)

theorem IsTree.entryAt_of_agree (h : IsTree next mem root depth owned)
    (hsame : ∀ f ∈ owned, mem' f = mem f) (hp : p.length ≤ depth) (i : Nat) :
    entryAt next mem' root p i = entryAt next mem root p i := by
  rw [entryAt, entryAt, h.walk_of_agree hsame (by omega)]
  cases hg : walk next mem root p with
  | none => rfl
  | some g => rw [map_some, map_some, hsame g (h.reach hp hg)]

theorem IsTree.of_agree (h : IsTree next mem root depth owned)
    (hsame : ∀ f ∈ owned, mem' f = mem f) : IsTree next mem' root depth owned where
  reach hp hf := h.reach hp (by rwa [h.walk_of_agree hsame (by omega)] at hf)
  unshared hp hq hf hf' := by
    rw [h.walk_of_agree hsame (by omega)] at hf hf'
    exact h.unshared hp hq hf hf'

theorem IsExactTree.of_agree (h : IsExactTree next mem root depth fanout owned)
    (hsame : ∀ f ∈ owned, mem' f = mem f) : IsExactTree next mem' root depth fanout owned where
  toIsTree := h.toIsTree.of_agree hsame
  nodup := h.nodup
  reached f hf := by
    obtain ⟨p, hp, hlt, hwalk⟩ := h.reached f hf
    exact ⟨p, hp, hlt, by rwa [h.walk_of_agree hsame (by omega)]⟩

/-- A tree has at most as many tables as one that has all its paths. -/
theorem IsExactTree.length_le {root' : F} {owned' : List F}
    (h : IsExactTree next mem root depth fanout owned) (h' : IsTree next mem' root' depth owned')
    (hpaths : ∀ p : List Nat, p.length ≤ depth → (∀ j ∈ p, j < fanout) →
      (walk next mem root p).isSome → (walk next mem' root' p).isSome) :
    owned.length ≤ owned'.length := by
  classical
  choose! path hlen hlt hwalk using h.reached
  -- each frame is sent to the frame at the same path of the other tree
  have himage : ∀ f ∈ owned, ∃ g, walk next mem' root' (path f) = some g := by
    intro f hf
    refine isSome_iff_exists.mp (hpaths _ (hlen f hf) (hlt f hf) ?_)
    rw [hwalk f hf]
    rfl
  choose! image himage using himage
  have hinj : ∀ f ∈ owned, ∀ g ∈ owned, image f = image g → f = g := by
    intro f hf g hg heq
    have hpath : path f = path g :=
      h'.unshared (hlen f hf) (hlen g hg) (himage f hf) (by rw [heq]; exact himage g hg)
    have hwalks := hwalk f hf
    rw [hpath, hwalk g hg] at hwalks
    exact (Option.some.inj hwalks).symm
  have hsubset : owned.map image ⊆ owned' := by
    intro g hg
    obtain ⟨f, hf, rfl⟩ := mem_map.mp hg
    exact h'.reach (hlen f hf) (himage f hf)
  have hnodup : (owned.map image).Nodup := h.nodup.map_on hinj
  calc owned.length = (owned.map image).length := (length_map image).symm
    _ ≤ owned'.length := (subperm_of_subset hnodup hsubset).length_le

end Agree

variable [DecidableEq F]

section Leaf

variable {mem : Tables F E} {root f : F} {depth : Nat} {owned : List F} {q : List Nat}

/-- Writing into a table of the last level changes no walk to a table. -/
theorem IsTree.walk_write_leaf (h : IsTree next mem root depth owned)
    (hq : walk next mem root q = some f) (hlen : q.length = depth) (i : Nat) (e : E)
 (hp : p.length ≤ depth) :
    walk next (mem.write f i e) root p = walk next mem root p := by
  induction p using List.reverseRecOn with
  | nil => rfl
  | append_singleton p j ih =>
    rw [length_append, length_singleton] at hp
    rw [walk_concat, walk_concat, ih (by omega)]
    refine Option.bind_congr fun g hg => ?_
    have hne : g ≠ f := by
      rintro rfl
      have := h.unshared (by omega) (by omega) hg hq
      rw [this] at hp
      omega
    rw [Tables.write_of_ne mem i j e (Or.inl hne)]

omit [DecidableEq F] in
/-- Different slots lie in different tables or at different entries. -/
theorem IsTree.slot_ne (h : IsTree next mem root depth owned) {g : F} {i j : Nat}
    (hp : p.length ≤ depth) (hg : walk next mem root p = some g) (hlen : q.length ≤ depth)
    (hq : walk next mem root q = some f) (hslot : ¬(p = q ∧ j = i)) : g ≠ f ∨ j ≠ i := by
  by_contra hcon
  push Not at hcon
  obtain ⟨rfl, rfl⟩ := hcon
  exact hslot ⟨h.unshared hp hlen hg hq, rfl⟩

theorem IsTree.entryAt_write_leaf (h : IsTree next mem root depth owned)
    (hq : walk next mem root q = some f) (hlen : q.length = depth) (i : Nat) (e : E)
 (hp : p.length ≤ depth) (j : Nat) :
    entryAt next (mem.write f i e) root p j =
      if p = q ∧ j = i then some e else entryAt next mem root p j := by
  rw [entryAt, h.walk_write_leaf hq hlen i e hp, entryAt]
  cases hg : walk next mem root p with
  | none =>
    rw [if_neg]
    · rfl
    rintro ⟨rfl, -⟩
    rw [hq] at hg
    cases hg
  | some g =>
    by_cases hslot : p = q ∧ j = i
    · obtain ⟨rfl, rfl⟩ := hslot
      rw [hq] at hg
      cases hg
      simp
    · rw [if_neg hslot, map_some, map_some,
        Tables.write_of_ne mem i j e (h.slot_ne hp hg (Nat.le_of_eq hlen) hq hslot)]

theorem IsTree.write_leaf (h : IsTree next mem root depth owned)
    (hq : walk next mem root q = some f) (hlen : q.length = depth) (i : Nat) (e : E) :
    IsTree next (mem.write f i e) root depth owned where
  reach hp hf := h.reach hp (by rwa [h.walk_write_leaf hq hlen i e hp] at hf)
  unshared hp hp' hf hf' := by
    rw [h.walk_write_leaf hq hlen i e hp] at hf
    rw [h.walk_write_leaf hq hlen i e hp'] at hf'
    exact h.unshared hp hp' hf hf'

theorem IsExactTree.write_leaf {fanout : Nat} (h : IsExactTree next mem root depth fanout owned)
    (hq : walk next mem root q = some f) (hlen : q.length = depth) (i : Nat) (e : E) :
    IsExactTree next (mem.write f i e) root depth fanout owned where
  toIsTree := h.toIsTree.write_leaf hq hlen i e
  nodup := h.nodup
  reached g hg := by
    obtain ⟨p, hp, hlt, hwalk⟩ := h.reached g hg
    exact ⟨p, hp, hlt, by rwa [h.walk_write_leaf hq hlen i e hp]⟩

end Leaf

section Link

variable {mem : Tables F E} {root f new : F} {depth : Nat} {owned : List F}
  {q : List Nat} {i : Nat} {empty entry : E}

/-- Zero the frame `new` and let entry `i` of `f` point to it. -/
def link (mem : Tables F E) (f : F) (i : Nat) (new : F) (empty entry : E) : Tables F E :=
  (mem.fill new empty).write f i entry

/-- Entry `i` of the table at `q` is unused, and `entry` makes it point to a frame that is not
a table yet. -/
structure Links (next : E → Option F) (mem : Tables F E) (root : F) (depth : Nat)
    (owned : List F) (q : List Nat) (f : F) (i : Nat) (new : F) (empty entry : E) : Prop where
  reached : walk next mem root q = some f
  inner : q.length < depth
  unused : next (mem f i) = none
  fresh : new ∉ owned
  zeroed : next empty = none
  pointing : next entry = some new

omit [DecidableEq F] in
/-- The new table is not one that is reached already. -/
theorem IsTree.ne_new (h : IsTree next mem root depth owned) {g : F}
    (hp : p.length ≤ depth) (hg : walk next mem root p = some g)
    (hl : Links next mem root depth owned q f i new empty entry) : g ≠ new :=
  fun hgn => hl.fresh (hgn ▸ h.reach hp hg)

theorem IsTree.walk_link (h : IsTree next mem root depth owned)
    (hl : Links next mem root depth owned q f i new empty entry)
 (hp : p.length ≤ depth) :
    walk next (link mem f i new empty entry) root p =
      if p = q ++ [i] then some new else walk next mem root p := by
  have hfnew : f ≠ new := h.ne_new (Nat.le_of_lt hl.inner) hl.reached hl
  induction p using List.reverseRecOn with
  | nil => simp
  | append_singleton p j ih =>
    rw [length_append, length_singleton] at hp
    rw [walk_concat, ih (by omega)]
    by_cases hpq : p = q ++ [i]
    · -- one step below the new table: it is empty now, and was absent before
      have hold : walk next mem root p = none := by
        rw [hpq, walk_concat, hl.reached]
        exact hl.unused
      have hlong : p ++ [j] ≠ q ++ [i] := by
        intro heq
        have := congrArg List.length heq
        simp only [hpq, length_append, length_singleton] at this
        omega
      rw [if_pos hpq, if_neg hlong, walk_concat, hold]
      simp [link, Tables.write_of_ne _ _ _ _ (Or.inl hfnew.symm), hl.zeroed]
    · rw [if_neg hpq, walk_concat]
      cases hg : walk next mem root p with
      | none =>
        have hne : p ++ [j] ≠ q ++ [i] := by
          intro heq
          have := (append_inj' heq rfl).1
          rw [this, hl.reached] at hg
          cases hg
        rw [if_neg hne]
        rfl
      | some g =>
        by_cases hstep : p = q ∧ j = i
        · obtain ⟨rfl, rfl⟩ := hstep
          rw [hl.reached] at hg
          cases hg
          rw [if_pos rfl]
          simp [link, hl.pointing]
        · have hslot := h.slot_ne (by omega) hg (Nat.le_of_lt hl.inner) hl.reached hstep
          rw [if_neg (by simpa using hstep)]
          simp [link, Tables.write_of_ne _ _ _ _ hslot,
            Tables.fill_of_ne _ _ _ (h.ne_new (by omega) hg hl)]

theorem IsTree.entryAt_link (h : IsTree next mem root depth owned)
    (hl : Links next mem root depth owned q f i new empty entry)
 (hp : p.length ≤ depth) (j : Nat) :
    entryAt next (Support.link mem f i new empty entry) root p j =
      if p = q ++ [i] then some empty
      else if p = q ∧ j = i then some entry else entryAt next mem root p j := by
  have hfnew : f ≠ new := h.ne_new (Nat.le_of_lt hl.inner) hl.reached hl
  rw [entryAt, h.walk_link hl hp, entryAt]
  by_cases hpq : p = q ++ [i]
  · simp [hpq, Support.link, Tables.write_of_ne _ _ _ _ (Or.inl hfnew.symm)]
  rw [if_neg hpq, if_neg hpq]
  by_cases hslot : p = q ∧ j = i
  · obtain ⟨rfl, rfl⟩ := hslot
    simp [hl.reached, Support.link]
  rw [if_neg hslot]
  cases hg : walk next mem root p with
  | none => rfl
  | some g =>
    have hne := h.slot_ne hp hg (Nat.le_of_lt hl.inner) hl.reached hslot
    simp [Support.link, Tables.write_of_ne _ _ _ _ hne, Tables.fill_of_ne _ _ _ (h.ne_new hp hg hl)]

theorem IsTree.link (h : IsTree next mem root depth owned)
    (hl : Links next mem root depth owned q f i new empty entry) :
    IsTree next (link mem f i new empty entry) root depth (new :: owned) where
  reach {p g} hp hg := by
    rw [h.walk_link hl hp] at hg
    split at hg
    · cases hg
      exact mem_cons_self
    · exact mem_cons_of_mem _ (h.reach hp hg)
  unshared {p p' g} hp hp' hg hg' := by
    rw [h.walk_link hl hp] at hg
    rw [h.walk_link hl hp'] at hg'
    split at hg <;> split at hg'
    · simp_all
    · cases hg
      exact absurd (h.reach hp' hg') hl.fresh
    · cases hg'
      exact absurd (h.reach hp hg) hl.fresh
    · exact h.unshared hp hp' hg hg'

theorem IsExactTree.link {fanout : Nat} (h : IsExactTree next mem root depth fanout owned)
    (hl : Links next mem root depth owned q f i new empty entry)
    (hlt : ∀ j ∈ q ++ [i], j < fanout) :
    IsExactTree next (Support.link mem f i new empty entry) root depth fanout (new :: owned) where
  toIsTree := h.toIsTree.link hl
  nodup := nodup_cons.mpr ⟨hl.fresh, h.nodup⟩
  reached g hg := by
    have hinner := hl.inner
    rcases mem_cons.mp hg with rfl | hold
    · refine ⟨q ++ [i], by simp; omega, hlt, ?_⟩
      rw [h.walk_link hl (by simp; omega), if_pos rfl]
    obtain ⟨p, hp, hplt, hwalk⟩ := h.reached g hold
    refine ⟨p, hp, hplt, ?_⟩
    rw [h.walk_link hl hp, if_neg, hwalk]
    rintro rfl
    rw [walk_concat, hl.reached, bind_some, hl.unused] at hwalk
    cases hwalk

end Link

section Graft

variable {mem mem' : Tables F E} {d new : F} {n k : Nat} {owned block : List F}

omit [DecidableEq F] in
/-- A walk that leaves `d` by another entry than the one that changed is unchanged. -/
theorem IsTree.walk_graft (h : IsTree next mem d (n + 1) owned)
    (hd : ∀ j, j ≠ k → mem' d j = mem d j) (hsame : ∀ g ∈ owned, g ≠ d → mem' g = mem g)
    {j : Nat} (hj : j ≠ k) (hp : p.length ≤ n) :
    walk next mem' d (j :: p) = walk next mem d (j :: p) := by
  rw [walk_cons, walk_cons, hd j hj]
  refine Option.bind_congr fun c hc => walk_congr fun r g hr _ hg => ?_
  have hpath : walk next mem d (j :: r) = some g := by
    rw [walk_cons, hc]
    exact hg
  have hlen : (j :: r).length ≤ n + 1 := by
    have := hr.length_le
    rw [length_cons]
    omega
  refine hsame g (h.reach hlen hpath) ?_
  rintro rfl
  exact absurd (h.unshared hlen (Nat.zero_le _) hpath (walk_nil mem g)) (by simp)

omit [DecidableEq F] in
/-- Hanging a tree on fresh frames below an unused entry gives a tree. -/
theorem IsTree.graft (h : IsTree next mem d (n + 1) owned) (hslot : next (mem' d k) = some new)
    (hd : ∀ j, j ≠ k → mem' d j = mem d j) (hsame : ∀ g ∈ owned, g ≠ d → mem' g = mem g)
    (hsub : IsTree next mem' new n (new :: block)) (hfresh : ∀ g ∈ new :: block, g ∉ owned) :
    IsTree next mem' d (n + 1) (owned ++ new :: block) := by
  have hroot : d ∈ owned := h.reach (Nat.zero_le _) (walk_nil mem d)
  have hbelow : ∀ p, walk next mem' d (k :: p) = walk next mem' new p := by
    intro p
    rw [walk_cons, hslot]
    rfl
  -- frames reached through the new entry are fresh, all others were owned before
  have hnewside : ∀ {p g}, p.length ≤ n → walk next mem' d (k :: p) = some g →
      g ∈ new :: block := by
    intro p g hp hg
    rw [hbelow] at hg
    exact hsub.reach hp hg
  have holdside : ∀ {p g}, p.length ≤ n + 1 → p.head? ≠ some k →
      walk next mem' d p = some g → walk next mem d p = some g := by
    intro p g hp hhead hg
    cases p with
    | nil => simpa using hg
    | cons j p =>
      rw [length_cons] at hp
      rwa [h.walk_graft hd hsame (by simpa using hhead) (by omega)] at hg
  have hside : ∀ {p g}, p.length ≤ n + 1 → walk next mem' d p = some g →
      (p.head? ≠ some k ∧ walk next mem d p = some g) ∨
        ∃ q, p = k :: q ∧ q.length ≤ n ∧ walk next mem' new q = some g := by
    intro p g hp hg
    by_cases hhead : p.head? = some k
    · obtain ⟨q, rfl⟩ : ∃ q, p = k :: q := by
        cases p with
        | nil => simp at hhead
        | cons j q => exact ⟨q, by simpa using hhead⟩
      rw [length_cons] at hp
      exact Or.inr ⟨q, rfl, by omega, by rwa [hbelow] at hg⟩
    · exact Or.inl ⟨hhead, holdside hp hhead hg⟩
  constructor
  · intro p g hp hg
    rcases hside hp hg with ⟨-, hg'⟩ | ⟨q, rfl, hq, -⟩
    · exact mem_append_left _ (h.reach hp hg')
    · exact mem_append_right _ (hnewside hq hg)
  · intro p p' g hp hp' hg hg'
    rcases hside hp hg with ⟨-, ho⟩ | ⟨q, rfl, hq, hw⟩ <;>
      rcases hside hp' hg' with ⟨-, ho'⟩ | ⟨q', rfl, hq', hw'⟩
    · exact h.unshared hp hp' ho ho'
    · exact absurd (h.reach hp ho) (hfresh g (hnewside hq' hg'))
    · exact absurd (h.reach hp' ho') (hfresh g (hnewside hq hg))
    · rw [hsub.unshared hq hq' hw hw']

end Graft

end Walks

end Support
