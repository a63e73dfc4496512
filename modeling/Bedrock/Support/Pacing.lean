import Mathlib.Algebra.Order.BigOperators.Group.List
import Mathlib.Algebra.Order.Ring.Nat
import Mathlib.Tactic.Common

/-!
# Intervals that are opened at a bounded rate

A list of intervals, the latest first, each with its beginning and its length.  If an interval
is begun only while the earlier ones make up at most a given percentage of the time since some
epoch, the percentage is exceeded by no more than one interval at any time.
-/

namespace Support

/-- The sum of the lengths. -/
def totalLength (intervals : List (Nat × Nat)) : Nat :=
  (intervals.map (·.2)).sum

/-- How much of the intervals is over at time `t`. -/
def elapsedAt (t : Nat) (intervals : List (Nat × Nat)) : Nat :=
  (intervals.map fun i => min i.2 (t - i.1)).sum

/-- Each interval has a bounded length and was begun within `pct` percent of the time. -/
def Paced (pct epoch bound : Nat) : List (Nat × Nat) → Prop
  | [] => True
  | i :: earlier => i.2 ≤ bound ∧ totalLength earlier * 100 ≤ (i.1 - epoch) * pct ∧
    Paced pct epoch bound earlier

theorem elapsedAt_le_totalLength (t : Nat) (intervals : List (Nat × Nat)) :
    elapsedAt t intervals ≤ totalLength intervals :=
  List.sum_le_sum fun _ _ => Nat.min_le_left _ _

theorem Paced.elapsedAt_le {pct epoch bound : Nat} {intervals : List (Nat × Nat)}
    (h : Paced pct epoch bound intervals) (t : Nat) :
    elapsedAt t intervals * 100 ≤ (t - epoch) * pct + bound * 100 := by
  induction intervals with
  | nil => exact Nat.zero_le _
  | cons i earlier ih =>
    obtain ⟨hlength, hbegun, hearlier⟩ := h
    have hsum : elapsedAt t (i :: earlier) = min i.2 (t - i.1) + elapsedAt t earlier := rfl
    rcases Nat.le_total t i.1 with hbefore | hafter
    · -- The latest interval has not begun.
      rw [hsum, Nat.sub_eq_zero_of_le hbefore, Nat.min_zero, Nat.zero_add]
      exact ih hearlier
    have htime : (i.1 - epoch) * pct ≤ (t - epoch) * pct :=
      Nat.mul_le_mul_right pct (Nat.sub_le_sub_right hafter epoch)
    have hall := elapsedAt_le_totalLength t earlier
    have hlatest := Nat.min_le_left i.2 (t - i.1)
    omega

end Support
