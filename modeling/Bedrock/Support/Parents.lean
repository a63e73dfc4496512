import Mathlib.Data.List.Nodup
import Mathlib.Data.List.Perm.Subperm
import Mathlib.Logic.Relation

/-!
# Parent pointers

A partial function gives every element at most one parent.  It is graded if some rank
falls from every element to its parent; then there are no cycles, and the walk from an
element to its ancestors ends.  A new leaf, and a new element put between an element and
one of its ancestors, keep it graded.
-/

namespace Support

open List Function Relation

namespace Parents

variable {α : Type} {up : α → Option α} {a b c : α}

def Up (up : α → Option α) (a b : α) : Prop :=
  up a = some b

/-- Some rank falls from every element to its parent. -/
def Graded (up : α → Option α) : Prop :=
  ∃ rank : α → Nat, ∀ a b, up a = some b → rank b < rank a

theorem rank_lt {rank : α → Nat} (hrank : ∀ a b, up a = some b → rank b < rank a)
    (h : TransGen (Up up) a b) : rank b < rank a := by
  induction h with
  | single h => exact hrank _ _ h
  | tail _ h ih => exact Nat.lt_trans (hrank _ _ h) ih

theorem Graded.acyclic (h : Graded up) (a : α) : ¬TransGen (Up up) a a := by
  obtain ⟨rank, hrank⟩ := h
  intro hcycle
  exact Nat.lt_irrefl _ (rank_lt hrank hcycle)

/-- Above an element comes its parent, and then what is above the parent. -/
theorem transGen_parent (hup : up a = some b) (h : TransGen (Up up) a c) (hne : b ≠ c) :
    TransGen (Up up) b c := by
  obtain ⟨d, hd, hrest⟩ := TransGen.head'_iff.mp h
  obtain rfl : d = b := Option.some.inj (hd.symm.trans hup)
  rcases reflTransGen_iff_eq_or_transGen.mp hrest with heq | hrest
  · exact absurd heq.symm hne
  · exact hrest

section Update

variable [DecidableEq α]

/-- A new leaf. -/
theorem Graded.attach (h : Graded up) (hfresh : ∀ x, up x ≠ some a) (hne : b ≠ a) :
    Graded (Function.update up a (some b)) := by
  obtain ⟨rank, hrank⟩ := h
  refine ⟨Function.update rank a (rank b + 1), fun x y hxy => ?_⟩
  by_cases hx : x = a
  · subst hx
    rw [update_self] at hxy
    obtain rfl := Option.some.inj hxy
    rw [update_self, update_of_ne hne]
    exact Nat.lt_succ_self _
  · rw [update_of_ne hx] at hxy
    have hy : y ≠ a := fun hy => hfresh x (hy ▸ hxy)
    rw [update_of_ne hx, update_of_ne hy]
    exact hrank x y hxy

/-- An element moves under `c`, a leaf whose parent is one of its ancestors. -/
theorem Graded.reparent (h : Graded up) (hparent : up c = some b)
    (habove : TransGen (Up up) a b) (hleaf : ∀ x, up x ≠ some c) (hne : a ≠ c) :
    Graded (Function.update up a (some c)) := by
  obtain ⟨rank, hrank⟩ := h
  have hab := rank_lt hrank habove
  -- the leaf gets a rank of its own between those of its parent and of the element
  refine ⟨Function.update (fun x => 2 * rank x) c (2 * rank b + 1), fun x y hxy => ?_⟩
  by_cases hx : x = a
  · subst hx
    rw [update_self] at hxy
    obtain rfl := Option.some.inj hxy
    rw [update_self, update_of_ne hne]
    omega
  rw [update_of_ne hx] at hxy
  have hy : y ≠ c := fun hy => hleaf x (hy ▸ hxy)
  rw [update_of_ne hy]
  by_cases hxc : x = c
  · subst hxc
    obtain rfl : b = y := Option.some.inj (hparent.symm.trans hxy)
    rw [update_self]
    omega
  · rw [update_of_ne hxc]
    have hlt := hrank x y hxy
    omega

end Update

/-! ## Walking up -/

/-- An element and its ancestors, nearest first, at most `n` of them. -/
def chain (up : α → Option α) : Nat → α → List α
  | 0, _ => []
  | n + 1, a => a :: match up a with
    | none => []
    | some b => chain up n b

theorem chain_of_parent (n : Nat) (h : up a = some b) : chain up (n + 1) a = a :: chain up n b := by
  rw [chain, h]

theorem chain_of_root (n : Nat) (h : up a = none) : chain up (n + 1) a = [a] := by
  rw [chain, h]

theorem reflTransGen_of_mem_chain {n : Nat} {x : α} (h : x ∈ chain up n a) :
    ReflTransGen (Up up) a x := by
  induction n generalizing a with
  | zero => cases h
  | succ n ih =>
    cases hup : up a with
    | none =>
      rw [chain_of_root n hup] at h
      rw [mem_singleton.mp h]
    | some b =>
      rw [chain_of_parent n hup] at h
      rcases mem_cons.mp h with rfl | h
      · exact .refl
      · exact .head hup (ih h)

theorem mem_chain_of_reflTransGen {n : Nat} {x : α} (hended : (chain up n a).length < n)
    (h : ReflTransGen (Up up) a x) : x ∈ chain up n a := by
  induction n generalizing a with
  | zero => cases hended
  | succ n ih =>
    rcases ReflTransGen.cases_head h with rfl | ⟨b, hb, hrest⟩
    · exact mem_cons_self
    · rw [chain_of_parent n hb] at hended ⊢
      exact mem_cons_of_mem a (ih (Nat.lt_of_succ_lt_succ hended) hrest)

theorem Graded.nodup_chain (h : Graded up) (n : Nat) (a : α) : (chain up n a).Nodup := by
  induction n generalizing a with
  | zero => exact nodup_nil
  | succ n ih =>
    cases hup : up a with
    | none =>
      rw [chain_of_root n hup]
      exact nodup_singleton a
    | some b =>
      rw [chain_of_parent n hup]
      refine nodup_cons.mpr ⟨fun hmem => ?_, ih b⟩
      exact h.acyclic a (.head' hup (reflTransGen_of_mem_chain hmem))

/-- Walking up among `N` elements ends within `N` steps. -/
theorem Graded.mem_chain_iff {up : Nat → Option Nat} {a x N : Nat} (h : Graded up)
    (hbound : ∀ x y, up x = some y → y < N) (ha : a < N) :
    x ∈ chain up (N + 1) a ↔ ReflTransGen (Up up) a x := by
  refine ⟨reflTransGen_of_mem_chain, mem_chain_of_reflTransGen ?_⟩
  have hsubset : chain up (N + 1) a ⊆ List.range N := by
    intro y hy
    rcases ReflTransGen.cases_tail (reflTransGen_of_mem_chain hy) with rfl | ⟨z, -, hz⟩
    · exact mem_range.mpr ha
    · exact mem_range.mpr (hbound z y hz)
  have hlength := (subperm_of_subset (h.nodup_chain (N + 1) a) hsubset).length_le
  rw [length_range] at hlength
  exact Nat.lt_succ_of_le hlength

/-- Walking up while a condition holds. -/
theorem chain_filter {p : α → Bool} (n : Nat) (h : p a) :
    chain (fun x => (up x).filter p) n a = (chain up n a).takeWhile p := by
  induction n generalizing a with
  | zero => rfl
  | succ n ih =>
    cases hup : up a with
    | none =>
      rw [chain_of_root n hup, chain_of_root n (by rw [hup]; rfl), takeWhile_cons_of_pos h]
      rfl
    | some b =>
      rw [chain_of_parent n hup, takeWhile_cons_of_pos h]
      by_cases hb : p b
      · rw [chain_of_parent (b := b) n (by simp [hup, hb]), ih hb]
      rw [chain_of_root n (by simp [hup, hb])]
      cases n with
      | zero => rfl
      | succ n => rw [chain, takeWhile_cons_of_neg hb]

end Parents

end Support
