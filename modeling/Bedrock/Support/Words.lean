import Mathlib.Algebra.Group.Nat.Defs
import Mathlib.Logic.Function.Iterate

/-!
# Machine words

Disjoint bit fields of a 64-bit word, as needed to take packed entries apart, shifts that can
be undone, and counters of a fixed width that wrap.
-/

namespace Support

theorem or_and_distrib (x y z : UInt64) : (x ||| y) &&& z = (x &&& z) ||| (y &&& z) := by
  apply UInt64.eq_of_toBitVec_eq
  simp [BitVec.and_or_distrib_right]

variable (x m : UInt64)

theorem or_and_cancel : (x ||| m) &&& m = m := by
  apply UInt64.eq_of_toBitVec_eq
  ext i hi
  cases hm : m.toBitVec[i] <;> simp [hm]

theorem and_not_and : x &&& ~~~m &&& m = 0 := by
  apply UInt64.eq_of_toBitVec_eq
  ext i hi
  cases hm : m.toBitVec[i] <;> simp [hm]

/-- Clearing bits that are clear changes nothing. -/
theorem and_not_of_and_eq_zero {x m : UInt64} (h : x &&& m = 0) : x &&& ~~~m = x := by
  apply UInt64.eq_of_toBitVec_eq
  ext i hi
  have hbit : (x.toBitVec[i] && m.toBitVec[i]) = false := by
    rw [← BitVec.getElem_and, ← UInt64.toBitVec_and, h]
    simp
  cases hm : m.toBitVec[i] <;> simp_all

/-- A value that lies within mask `m` vanishes under a mask disjoint from `m`. -/
theorem and_eq_zero_of_disjoint {x m m' : UInt64} (hx : x &&& m = x) (h : m &&& m' = 0) :
    x &&& m' = 0 := by
  rw [← hx, UInt64.and_assoc, h, UInt64.and_zero]

theorem and_mask_idem : (x &&& m) &&& m = x &&& m := by
  rw [UInt64.and_assoc, UInt64.and_self]

/-- A left shift is undone from the lowest bit up. -/
theorem xor_shiftLeft_injective {w k : Nat} (hk : 0 < k) :
    Function.Injective fun x : BitVec w => x ^^^ x <<< k := by
  intro x y h
  have hbits : ∀ i, x.getLsbD i = y.getLsbD i := by
    intro i
    induction i using Nat.strongRecOn with
    | _ i ih =>
      have hbit := congrArg (fun z : BitVec w => z.getLsbD i) h
      simp only [BitVec.getLsbD_xor, BitVec.getLsbD_shiftLeft] at hbit
      by_cases hi : i < k
      · simpa [hi] using hbit
      · rw [ih (i - k) (by omega)] at hbit
        exact Bool.xor_left_inj.mp hbit
  exact BitVec.eq_of_getLsbD_eq fun i _ => hbits i

/-- A right shift is undone from the highest bit down. -/
theorem xor_shiftRight_injective {w k : Nat} (hk : 0 < k) :
    Function.Injective fun x : BitVec w => x ^^^ x >>> k := by
  intro x y h
  have hbits : ∀ n i, w ≤ i + n → x.getLsbD i = y.getLsbD i := by
    intro n
    induction n with
    | zero =>
      intro i hi
      rw [BitVec.getLsbD_of_ge x i hi, BitVec.getLsbD_of_ge y i hi]
    | succ n ih =>
      intro i hi
      have hbit := congrArg (fun z : BitVec w => z.getLsbD i) h
      simp only [BitVec.getLsbD_xor, BitVec.getLsbD_ushiftRight] at hbit
      rw [ih (k + i) (by omega)] at hbit
      exact Bool.xor_left_inj.mp hbit
  exact BitVec.eq_of_getLsbD_eq fun i _ => hbits w i (Nat.le_add_left w i)

/-- One increment of a counter of `w` bits. -/
def tick (w c : Nat) : Nat :=
  (c + 1) % 2 ^ w

theorem iterate_tick {w c : Nat} (hc : c < 2 ^ w) (n : Nat) : (tick w)^[n] c = (c + n) % 2 ^ w := by
  induction n with
  | zero => exact (Nat.mod_eq_of_lt hc).symm
  | succ n ih =>
    rw [Function.iterate_succ_apply', ih, tick, Nat.mod_add_mod]
    rfl

/-- The counter wraps to zero at the `n`-th increment and not before. -/
def OverflowsAfter (w c n : Nat) : Prop :=
  0 < n ∧ (tick w)^[n] c = 0 ∧ ∀ k, 0 < k → k < n → (tick w)^[k] c ≠ 0

/-- A counter that starts at `-n` overflows after `n` increments. -/
theorem overflowsAfter_neg {w n : Nat} (hpos : 0 < n) (hn : n ≤ 2 ^ w) :
    OverflowsAfter w (2 ^ w - n) n := by
  have hlt : 2 ^ w - n < 2 ^ w := by omega
  refine ⟨hpos, ?_, fun k _ hk => ?_⟩
  · rw [iterate_tick hlt, Nat.sub_add_cancel hn, Nat.mod_self]
  · rw [iterate_tick hlt, Nat.mod_eq_of_lt (by omega)]
    omega

end Support
