import Mathlib.Algebra.BigOperators.Intervals

/-!
# The Gregorian calendar

The calendar of today, carried back to year 1.  Days are numbered from 1 January of
year 1, which is day 1 and a Monday; Unix time counts seconds from the start of 1970.
-/

namespace Support

namespace Gregorian

def IsLeap (y : Nat) : Prop := 4 ∣ y ∧ (100 ∣ y → 400 ∣ y)

instance : DecidablePred IsLeap := fun _ => inferInstanceAs (Decidable (_ ∧ _))

def yearLength (y : Nat) : Nat := if IsLeap y then 366 else 365

def monthLength (y m : Nat) : Nat :=
  if m = 2 then if IsLeap y then 29 else 28
  else if m = 4 ∨ m = 6 ∨ m = 9 ∨ m = 11 then 30 else 31

def daysBeforeYear (y : Nat) : Nat :=
  365 * (y - 1) + (y - 1) / 4 + (y - 1) / 400 - (y - 1) / 100

def daysBeforeMonth (y m : Nat) : Nat := ∑ k ∈ Finset.Ico 1 m, monthLength y k

theorem yearLength_pos (y : Nat) : 0 < yearLength y := by
  unfold yearLength
  split <;> omega

theorem daysBeforeYear_succ (y : Nat) :
    daysBeforeYear (y + 1 + 1) = daysBeforeYear (y + 1) + yearLength (y + 1) := by
  unfold yearLength daysBeforeYear
  by_cases hleap : IsLeap (y + 1)
  · rw [if_pos hleap]
    unfold IsLeap at hleap
    omega
  · rw [if_neg hleap]
    unfold IsLeap at hleap
    omega

end Gregorian

open Gregorian

/-- A date and a time of day. -/
structure CivilTime where
  year : Nat
  month : Nat
  day : Nat
  hour : Nat
  minute : Nat
  second : Nat
  year_pos : 1 ≤ year
  month_mem : 1 ≤ month ∧ month ≤ 12
  day_mem : 1 ≤ day ∧ day ≤ monthLength year month
  hour_lt : hour < 24
  minute_lt : minute < 60
  second_lt : second < 60

namespace CivilTime

variable (t : CivilTime)

def ordinalDay : Nat := daysBeforeYear t.year + daysBeforeMonth t.year t.month + t.day

/-- The day of the week, with 1 for Sunday. -/
def weekday : Nat := t.ordinalDay % 7 + 1

def unixTime : Int :=
  (t.ordinalDay - (daysBeforeYear 1970 + 1) : Int) * 86400 +
    (t.hour * 3600 + t.minute * 60 + t.second : Nat)

end CivilTime

end Support
