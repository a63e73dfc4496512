import Mathlib.Algebra.Group.Nat.Defs
import Mathlib.Data.List.Nodup
import Mathlib.Logic.Function.Basic

/-!
# Identifiers handed out from a bitmap

A bitmap of 64-bit words marks the identifiers in use.  The first half reads it as a
set.  The second half says when the identifiers in use are exactly those that somebody
holds, each held once, and what one change to the set or to the holders does to that.
-/

namespace Support

open List Function

/-- Number of zero bits below the lowest set bit. -/
def trailingZeros (w : UInt64) : Nat :=
  ((List.range 64).find? w.toNat.testBit).getD 64

theorem testBit_not (w : UInt64) {i : Nat} (hi : i < 64) :
    (~~~w).toNat.testBit i = !w.toNat.testBit i := by
  have hnot : (~~~w).toNat = 2 ^ 64 - (w.toNat + 1) := by
    rw [UInt64.toNat_not, UInt64.size]
    omega
  rw [hnot, Nat.testBit_two_pow_sub_succ w.toNat_lt, decide_eq_true hi, Bool.true_and]

/-- A word that is not full has a clear bit, and `trailingZeros` of its complement finds
one. -/
theorem testBit_trailingZeros_not {w : UInt64} (h : w ≠ 0xFFFFFFFFFFFFFFFF) :
    trailingZeros (~~~w) < 64 ∧ w.toNat.testBit (trailingZeros (~~~w)) = false := by
  unfold trailingZeros
  cases hfind : (List.range 64).find? (~~~w).toNat.testBit with
  | none =>
    refine absurd (UInt64.toNat_inj.mp (Nat.eq_of_testBit_eq fun i => ?_)) h
    have hmax : (0xFFFFFFFFFFFFFFFF : UInt64).toNat = 2 ^ 64 - 1 := rfl
    rw [hmax, Nat.testBit_two_pow_sub_one]
    by_cases hi : i < 64
    · have hclear := List.find?_eq_none.mp hfind i (mem_range.mpr hi)
      rw [testBit_not w hi] at hclear
      simpa [hi] using hclear
    · rw [decide_eq_false hi]
      exact Nat.testBit_lt_two_pow (Nat.lt_of_lt_of_le w.toNat_lt
        (Nat.pow_le_pow_right (by decide) (Nat.not_lt.mp hi)))
  | some i =>
    have hi : i < 64 := mem_range.mp (mem_of_find?_eq_some hfind)
    have hset := List.find?_some hfind
    rw [testBit_not w hi, Bool.not_eq_true'] at hset
    exact ⟨hi, hset⟩

theorem trailingZeros_not_of_clear {w : UInt64} (h : w.toNat.testBit 0 = false) :
    trailingZeros (~~~w) = 0 := by
  have hset : (~~~w).toNat.testBit 0 := by
    rw [testBit_not w (by decide), h]
    rfl
  rw [trailingZeros, range_succ_eq_map, List.find?_cons_of_pos hset]
  rfl

/-- Bit `i` of word `w` stands for `64 * w + i`. -/
structure Bitmap where
  words : Nat → UInt64

namespace Bitmap

def empty : Bitmap :=
  ⟨fun _ => 0⟩

def mem (b : Bitmap) (n : Nat) : Bool :=
  (b.words (n / 64)).toNat.testBit (n % 64)

def mask (n : Nat) : UInt64 :=
  UInt64.ofNat (2 ^ (n % 64))

/-- `fetch_or` with the mask of `n`. -/
def insert (b : Bitmap) (n : Nat) : Bitmap :=
  ⟨Function.update b.words (n / 64) (b.words (n / 64) ||| mask n)⟩

/-- `fetch_and` with the complement of the mask of `n`. -/
def erase (b : Bitmap) (n : Nat) : Bitmap :=
  ⟨Function.update b.words (n / 64) (b.words (n / 64) &&& ~~~mask n)⟩

theorem testBit_mask (n : Nat) (i : Nat) : (mask n).toNat.testBit i = decide (n % 64 = i) := by
  have hlt : 2 ^ (n % 64) < 2 ^ 64 :=
    Nat.pow_lt_pow_right (by decide) (Nat.mod_lt n (by decide))
  rw [mask, UInt64.toNat_ofNat', Nat.mod_eq_of_lt hlt, Nat.testBit_two_pow]

@[simp] theorem mem_empty (n : Nat) : empty.mem n = false := by
  simp [mem, empty]

variable (b : Bitmap)

theorem mem_insert (n m : Nat) : (b.insert n).mem m = (decide (m = n) || b.mem m) := by
  unfold mem insert
  dsimp only
  by_cases hword : m / 64 = n / 64
  · rw [hword, update_self, UInt64.toNat_or, Nat.testBit_or, testBit_mask, Bool.or_comm]
    congr 1
    exact decide_eq_decide.mpr (by omega)
  · rw [update_of_ne hword, decide_eq_false (by rintro rfl; exact hword rfl),
      Bool.false_or]

theorem mem_erase (n m : Nat) : (b.erase n).mem m = (decide (m ≠ n) && b.mem m) := by
  unfold mem erase
  dsimp only
  by_cases hword : m / 64 = n / 64
  · rw [hword, update_self, UInt64.toNat_and, Nat.testBit_and,
      testBit_not _ (Nat.mod_lt m (by decide)), testBit_mask, Bool.and_comm, ← decide_not]
    congr 1
    exact decide_eq_decide.mpr (by omega)
  · rw [update_of_ne hword, decide_eq_true (by rintro rfl; exact hword rfl), Bool.true_and]

theorem mem_word (w : Nat) {i : Nat} (hi : i < 64) :
    b.mem (w * 64 + i) = (b.words w).toNat.testBit i := by
  have hdiv : (w * 64 + i) / 64 = w := by omega
  have hmod : (w * 64 + i) % 64 = i := by omega
  rw [mem, hdiv, hmod]

end Bitmap

/-- The identifiers in use are those on the list of holders, and nobody shares one. -/
structure Issued {α : Type} (used : α → Prop) (held : List α) : Prop where
  used_iff : ∀ a, used a ↔ a ∈ held
  nodup : held.Nodup

namespace Issued

variable {α : Type} {used used' : α → Prop} {held : List α} {a : α}

theorem congr (h : Issued used held) (hused : ∀ b, used' b ↔ used b) : Issued used' held :=
  ⟨fun b => (hused b).trans (h.used_iff b), h.nodup⟩

/-- A free identifier is taken and held. -/
theorem take (h : Issued used held) (hfree : ¬used a) (hused : ∀ b, used' b ↔ b = a ∨ used b) :
    Issued used' (held ++ [a]) := by
  refine ⟨fun b => ?_, ?_⟩
  · rw [hused, h.used_iff, mem_append, mem_singleton, or_comm]
  rw [h.used_iff] at hfree
  refine nodup_append.mpr ⟨h.nodup, nodup_singleton a, fun b hb c hc heq => ?_⟩
  rw [heq, mem_singleton.mp hc] at hb
  exact hfree hb

/-- A free identifier is taken and nobody holds it. -/
theorem not_leak (h : Issued used held) (hfree : ¬used a) (hused : used' a) :
    ¬Issued used' held := fun h' =>
  hfree ((h.used_iff a).mpr ((h'.used_iff a).mp hused))

theorem not_share (ha : a ∈ held) : ¬Issued used' (held ++ [a]) := by
  intro h
  exact (nodup_append.mp h.nodup).2.2 a ha a mem_cons_self rfl

/-- A holder gives its identifier back. -/
theorem release {before after : List α} (h : Issued used (before ++ a :: after))
    (hused : ∀ b, used' b ↔ b ≠ a ∧ used b) : Issued used' (before ++ after) := by
  have hnodup := h.nodup
  rw [nodup_middle, nodup_cons] at hnodup
  refine ⟨fun b => ?_, hnodup.2⟩
  rw [hused, h.used_iff, mem_append, mem_append, mem_cons]
  constructor
  · rintro ⟨hne, hb | rfl | hb⟩
    · exact .inl hb
    · exact absurd rfl hne
    · exact .inr hb
  · intro hb
    refine ⟨?_, hb.imp_right .inr⟩
    rintro rfl
    exact hnodup.1 (mem_append.mpr hb)

/-- A holder goes away without giving its identifier back. -/
theorem not_forget {before after : List α} (h : Issued used (before ++ a :: after))
    (hused : used' a) : ¬Issued used' (before ++ after) := by
  intro h'
  have hnodup := h.nodup
  rw [nodup_middle, nodup_cons] at hnodup
  exact hnodup.1 ((h'.used_iff a).mp hused)

end Issued

end Support
