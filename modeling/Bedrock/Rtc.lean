import Bedrock.Devices
import Bedrock.Support.Calendar

/-!
# The clock chip

The date loops of the CMOS clock, compared with the Gregorian calendar: after BCD
decoding, the registers show the date and time of the Unix time they are read at.
-/

namespace Bedrock

open Support Gregorian List

namespace RtcState

/-- The number that a byte in binary-coded decimal stands for. -/
def fromBcd (byte : UInt8) : Nat := 10 * (byte.toNat / 16) + byte.toNat % 16

theorem fromBcd_toBcd : ∀ v < 100, fromBcd (toBcd v) = v := by
  decide

variable (year : Nat)

theorem isLeapYear_iff : isLeapYear year ↔ IsLeap year := by
  simp only [isLeapYear, Bool.or_eq_true, Bool.and_eq_true, beq_iff_eq, bne_iff_ne, IsLeap]
  omega

theorem daysInYear_eq : daysInYear year = yearLength year := by
  simp only [daysInYear, yearLength, isLeapYear_iff]

theorem exists_yearLoop {fuel : Nat} : ∀ (y remaining : Nat), remaining ≤ fuel →
    ∃ Y rest, yearLoop fuel (y + 1) remaining = (Y + 1, rest) ∧ rest < yearLength (Y + 1) ∧
      daysBeforeYear (Y + 1) + rest = daysBeforeYear (y + 1) + remaining := by
  induction fuel with
  | zero =>
    intro y remaining h
    obtain rfl := Nat.le_zero.mp h
    exact ⟨y, 0, rfl, yearLength_pos _, rfl⟩
  | succ fuel ih =>
    intro y remaining h
    have hpos := yearLength_pos (y + 1)
    rw [yearLoop, daysInYear_eq]
    split
    next hlt => exact ⟨y, remaining, rfl, hlt, rfl⟩
    next hge =>
      obtain ⟨Y, rest, heq, hrest, hdays⟩ :=
        ih (y + 1) (remaining - yearLength (y + 1)) (by omega)
      rw [daysBeforeYear_succ y] at hdays
      exact ⟨Y, rest, heq, hrest, by omega⟩

theorem exists_monthLoop {months : List Nat} : ∀ (month remaining : Nat),
    remaining < months.sum → ∃ i rest, monthLoop months month remaining = (month + i, rest) ∧
      i < months.length ∧ (months.take i).sum + rest = remaining ∧ rest < months.getD i 0 := by
  induction months with
  | nil => simp
  | cons d months ih =>
    intro month remaining h
    rw [sum_cons] at h
    rw [monthLoop]
    split
    next hlt => exact ⟨0, remaining, by simpa using hlt⟩
    next hge =>
      obtain ⟨i, rest, heq, hi, hsum, hrest⟩ :=
        ih (month + 1) (remaining - d) (by omega)
      refine ⟨i + 1, rest, by rw [heq, Nat.add_assoc, Nat.add_comm 1], ?_⟩
      simp only [length_cons, take_succ_cons, sum_cons, getD_cons_succ]
      omega

theorem monthLengths_spec : (monthLengths year).sum = yearLength year ∧
    ∀ i < 12, (monthLengths year).getD i 0 = monthLength year (i + 1) ∧
      ((monthLengths year).take i).sum = daysBeforeMonth year (i + 1) := by
  by_cases hleap : IsLeap year <;>
    simp only [monthLengths, daysBeforeMonth, monthLength, yearLength, isLeapYear_iff, hleap,
      if_true, if_false] <;>
    decide

theorem exists_daysToDate (days hour minute second : Nat) (hhour : hour < 24)
    (hminute : minute < 60) (hsecond : second < 60) :
    ∃ t : CivilTime, daysToDate days = (t.year, t.month, t.day, t.weekday) ∧
      t.ordinalDay = daysBeforeYear 1970 + 1 + days ∧
      t.hour = hour ∧ t.minute = minute ∧ t.second = second := by
  obtain ⟨Y, rest, hyear, hlt, hdays⟩ := exists_yearLoop 1969 days le_rfl
  obtain ⟨hsum, hmonths⟩ := monthLengths_spec (Y + 1)
  obtain ⟨i, rest', hmonth, hi, hrest, hlt'⟩ := exists_monthLoop 1 rest (hsum ▸ hlt)
  obtain ⟨hlength, hbefore⟩ := hmonths i hi
  have hordinal : daysBeforeYear (Y + 1) + daysBeforeMonth (Y + 1) (1 + i) + (rest' + 1) =
      daysBeforeYear 1970 + 1 + days := by
    change _ = daysBeforeYear 1970 + days at hdays
    rw [Nat.add_comm 1 i, ← hbefore]
    omega
  refine ⟨⟨Y + 1, 1 + i, rest' + 1, hour, minute, second, by omega,
    ⟨by omega, Nat.add_comm 1 i ▸ hi⟩, ⟨by omega, ?_⟩, hhour, hminute, hsecond⟩, ?_, hordinal,
    rfl, rfl, rfl⟩
  · rw [Nat.add_comm 1 i, ← hlength]
    exact hlt'
  simp only [daysToDate, hyear, hmonth, CivilTime.weekday, CivilTime.ordinalDay, hordinal]
  simp only [daysBeforeYear, Prod.mk.injEq, true_and]
  omega

theorem registers_show_calendar (rtc : RtcState) (emulatedTsc tscFrequency : Nat)
    (hbefore : rtc.baseTime + emulatedTsc / tscFrequency < 253402300800) :
    let secs := rtc.baseTime + emulatedTsc / tscFrequency
    let shown (r : UInt8) :=
      fromBcd ({ rtc with index := r }.readRegisterWithTsc emulatedTsc tscFrequency)
    ∃ t : CivilTime, t.unixTime = secs ∧
      shown 0x00 = t.second ∧ shown 0x02 = t.minute ∧ shown 0x04 = t.hour ∧
        shown 0x06 = t.weekday ∧ shown 0x07 = t.day ∧ shown 0x08 = t.month ∧
        shown 0x09 = t.year % 100 ∧ shown 0x32 = t.year / 100 := by
  intro secs shown
  obtain ⟨t, hdate, hordinal, hhour, hminute, hsecond⟩ := exists_daysToDate (secs / 86400)
    (secs % 86400 / 3600) (secs % 86400 % 3600 / 60) (secs % 86400 % 60) (by omega) (by omega)
    (by omega)
  have hday := t.day_mem
  have hlength : monthLength t.year t.month ≤ 31 := by unfold monthLength; split_ifs <;> omega
  have hweek : t.weekday < 100 := by unfold CivilTime.weekday; omega
  have hmonth := t.month_mem
  have hyear : t.year < 10000 := by
    simp only [CivilTime.ordinalDay, daysBeforeYear] at hordinal
    omega
  refine ⟨t, by simp only [CivilTime.unixTime]; omega, ?_⟩
  change fromBcd (toBcd (secs % 86400 % 60)) = _ ∧
    fromBcd (toBcd (secs % 86400 % 3600 / 60)) = _ ∧ fromBcd (toBcd (secs % 86400 / 3600)) = _ ∧
    fromBcd (toBcd (daysToDate (secs / 86400)).2.2.2) = _ ∧
    fromBcd (toBcd (daysToDate (secs / 86400)).2.2.1) = _ ∧
    fromBcd (toBcd (daysToDate (secs / 86400)).2.1) = _ ∧
    fromBcd (toBcd ((daysToDate (secs / 86400)).1 % 100)) = _ ∧
    fromBcd (toBcd ((daysToDate (secs / 86400)).1 / 100)) = _
  rw [hdate]
  dsimp only
  refine ⟨?_, ?_, ?_, ?_, ?_, ?_, ?_, ?_⟩ <;> rw [fromBcd_toBcd _ (by omega)] <;> omega

theorem registers_show_newYear2024 :
    ∃ t : CivilTime, t.unixTime = 1704067200 ∧ t.year % 100 = 24 := by
  obtain ⟨t, ht, -, -, -, -, -, -, hyear, -⟩ := registers_show_calendar {} 0 1 (by decide)
  exact ⟨t, ht, hyear.symm⟩

end RtcState

end Bedrock
