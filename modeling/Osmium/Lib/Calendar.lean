import Mathlib.Data.Int.Basic
import Mathlib.Data.List.Basic
import Mathlib.Data.UInt
import Mathlib.Tactic.IntervalCases
import Mathlib.Tactic.Linarith
import Mathlib.Tactic.Ring

/-! Dates as text. Days are counted from 1970-01-01 in the proleptic Gregorian calendar, whose
400-year eras start in March, so that the leap day is the last day of its year; numerals are ASCII
digits of fixed width. -/

namespace Calendar

section Civil

/-- The year, month and day of a day number. -/
def civilFromDays (days : ℤ) : ℤ × ℤ × ℤ :=
  let shifted := days + 719468
  let era := shifted / 146097
  let dayOfEra := shifted - era * 146097
  let yearOfEra := (dayOfEra - dayOfEra / 1460 + dayOfEra / 36524 - dayOfEra / 146096) / 365
  let dayOfYear := dayOfEra - (365 * yearOfEra + yearOfEra / 4 - yearOfEra / 100)
  let shiftedMonth := (5 * dayOfYear + 2) / 153
  let day := dayOfYear - (153 * shiftedMonth + 2) / 5 + 1
  let month := shiftedMonth + if shiftedMonth < 10 then 3 else -9
  (yearOfEra + era * 400 + (if month ≤ 2 then 1 else 0), month, day)

/-- The day number of a date. -/
def daysFromCivil (year month day : ℤ) : ℤ :=
  let year := year - if month ≤ 2 then 1 else 0
  let era := year / 400
  let yearOfEra := year - era * 400
  let shiftedMonth := month + if 2 < month then -3 else 9
  let dayOfYear := (153 * shiftedMonth + 2) / 5 + day - 1
  let dayOfEra := yearOfEra * 365 + yearOfEra / 4 - yearOfEra / 100 + dayOfYear
  era * 146097 + dayOfEra - 719468

def isLeapYear (year : ℕ) : Bool := year % 4 = 0 && (year % 100 ≠ 0 || year % 400 = 0)

def daysInMonth (year month : ℕ) : Option ℕ :=
  match month with
  | 1 | 3 | 5 | 7 | 8 | 10 | 12 => some 31
  | 4 | 6 | 9 | 11 => some 30
  | 2 => some (if isLeapYear year then 29 else 28)
  | _ => none

/-- One century of an era, after the leap days the centuries before it left out. -/
theorem century_bounds (century rest : ℤ) (hc : 0 ≤ century ∧ century ≤ 3)
    (hr : 0 ≤ rest ∧ rest ≤ 36523) :
    let year := (rest - (rest + 24 * century) / 1460) / 365
    let dayOfYear := rest - (365 * year + year / 4)
    0 ≤ year ∧ year ≤ 99 ∧ 0 ≤ dayOfYear ∧ dayOfYear ≤ 365 ∧
    (dayOfYear = 365 → (year + 1) % 4 = 0 ∧ year ≠ 99) := by
  intro year dayOfYear
  have hyear : 0 ≤ year ∧ year ≤ 99 := by omega
  have hday : 0 ≤ dayOfYear ∧ dayOfYear ≤ 365 := by omega
  refine ⟨hyear.1, hyear.2, hday.1, hday.2, fun h => ?_⟩
  have hquarter : (rest + 24 * century) / 1460 = year / 4 + 1 := by omega
  have hlast : year = 4 * ((rest + 24 * century) / 1460) - 1 := by omega
  omega

/-- The year and the day of the year of a day of an era. The last day is there in leap years only.
-/
theorem era_bounds (dayOfEra : ℤ) (h : 0 ≤ dayOfEra ∧ dayOfEra ≤ 146096) :
    let year := (dayOfEra - dayOfEra / 1460 + dayOfEra / 36524 - dayOfEra / 146096) / 365
    let dayOfYear := dayOfEra - (365 * year + year / 4 - year / 100)
    0 ≤ year ∧ year ≤ 399 ∧ 0 ≤ dayOfYear ∧ dayOfYear ≤ 365 ∧
      (dayOfYear = 365 → (year + 1) % 4 = 0 ∧ ((year + 1) % 100 ≠ 0 ∨ (year + 1) % 400 = 0)) := by
  intro year dayOfYear
  rcases eq_or_lt_of_le h.2 with rfl | hlt
  · decide
  obtain ⟨century, hcentury⟩ : ∃ century, century = dayOfEra / 36524 := ⟨_, rfl⟩
  obtain ⟨rest, hrest⟩ : ∃ rest, rest = dayOfEra - 36524 * century := ⟨_, rfl⟩
  obtain ⟨hlow, hhigh, hday, hlast, hleap⟩ := century_bounds century rest (by omega) (by omega)
  have hfours : dayOfEra / 1460 = 25 * century + (rest + 24 * century) / 1460 := by omega
  have hyear : year = 100 * century + (rest - (rest + 24 * century) / 1460) / 365 := by omega
  have hquarter : year / 4 = 25 * century + (rest - (rest + 24 * century) / 1460) / 365 /
      4 := by omega
  have hhundred : year / 100 = century := by omega
  have hdayOfYear : dayOfYear = rest - (365 * ((rest - (rest + 24 * century) / 1460) / 365) +
      (rest - (rest + 24 * century) / 1460) / 365 / 4) := by omega
  rw [← hdayOfYear] at hday hlast hleap
  refine ⟨by omega, by omega, hday, hlast, fun hfull => ?_⟩
  have hfour := hleap hfull
  omega

/-- What a day number is split into. -/
theorem civilFromDays_parts (days : ℤ) : ∃ era year dayOfYear month : ℤ,
    days = era * 146097 + (year * 365 + year / 4 - year / 100 + dayOfYear) - 719468 ∧ 0 ≤ year ∧
    year ≤ 399 ∧
    0 ≤ dayOfYear ∧ dayOfYear ≤ 365 ∧
    (dayOfYear = 365 → (year + 1) % 4 = 0 ∧ ((year + 1) % 100 ≠ 0 ∨ (year + 1) % 400 = 0)) ∧
    month = (5 * dayOfYear + 2) / 153 ∧
    civilFromDays days =
      (year + era * 400 + (if month < 10 then 0 else 1), month + (if month < 10 then 3 else -9),
      dayOfYear - (153 * month + 2) / 5 + 1) := by
  obtain ⟨era, hera⟩ : ∃ era, era = (days + 719468) / 146097 := ⟨_, rfl⟩
  obtain ⟨dayOfEra, hdayOfEra⟩ : ∃ dayOfEra, dayOfEra = days + 719468 - era * 146097 := ⟨_, rfl⟩
  obtain ⟨hlow, hhigh, hday, hlast, hleap⟩ := era_bounds dayOfEra (by omega)
  refine ⟨era, _, _, _, ?_, hlow, hhigh, hday, hlast, hleap, rfl, ?_⟩
  · omega
  simp only [civilFromDays, ← hera, ← hdayOfEra]
  congr 2
  split_ifs with hmonth hlate
  · omega
  · rfl
  · rfl
  · omega

/-- Going to the date and back is the identity. -/
theorem daysFromCivil_civilFromDays (days : ℤ) :
    daysFromCivil (civilFromDays days).1 (civilFromDays days).2.1
      (civilFromDays days).2.2 = days := by
  obtain ⟨era, year, dayOfYear, month, hdays, hlow, hhigh, hday, hlast, -, hmonth, hcivil⟩ :=
    civilFromDays_parts days
  rw [hcivil]
  simp only [daysFromCivil]
  have hera : (year + era * 400) / 400 = era := by omega
  by_cases hearly : month < 10
  · rw [if_pos hearly, if_pos hearly, if_neg (by omega), if_pos (by omega), add_zero, sub_zero,
      add_neg_cancel_right, hera, add_sub_cancel_right]
    omega
  · rw [if_neg hearly, if_neg hearly, if_pos (by omega), if_neg (by omega), add_sub_cancel_right,
      neg_add_cancel_right, hera, add_sub_cancel_right]
    omega

/-- The date of a day of the years 0 to 9999 is one of the calendar. -/
theorem civilFromDays_valid {days : ℤ} (h : -719528 ≤ days ∧ days ≤ 2932896) :
    ∃ year month day limit : ℕ,
    civilFromDays days = ((year : ℤ), (month : ℤ), (day : ℤ)) ∧ year ≤ 9999 ∧ month ≤ 12 ∧
    daysInMonth year month = some limit ∧ 1 ≤ day ∧ day ≤ limit ∧ limit ≤ 31 := by
  obtain ⟨era, year, dayOfYear, month, hdays, hlow, hhigh, hday, hlast, hleap, hmonth, hcivil⟩ :=
    civilFromDays_parts days
  have hrange : 0 ≤ month ∧ month ≤ 11 := by omega
  have hyear : 0 ≤ year + era * 400 + (if month < 10 then 0 else 1) := by
    rcases (by omega : 0 ≤ era ∨ era = -1) with hera | rfl
    · split_ifs <;> omega
    -- year zero begins with the last two months of the era before it
    · have hfirst : year = 399 := by omega
      subst hfirst
      rw [if_neg (by omega)]
      omega
  obtain ⟨y, hy⟩ := Int.eq_ofNat_of_zero_le hyear
  obtain ⟨d, hd⟩ := Int.eq_ofNat_of_zero_le (a := dayOfYear - (153 * month + 2) / 5 + 1) (by omega)
  rw [hcivil, hy, hd]
  have hbound : y ≤ 9999 := by
    split_ifs at hy <;> omega
  -- the months from March to December, then the two of the year that has begun
  have hmonth : month = 0 ∨ month = 1 ∨ month = 2 ∨ month = 3 ∨ month = 4 ∨ month = 5 ∨
      month = 6 ∨ month = 7 ∨ month = 8 ∨ month = 9 ∨ month = 10 ∨ month = 11 := by omega
  rcases hmonth with rfl | rfl | rfl | rfl | rfl | rfl | rfl | rfl | rfl | rfl | rfl | rfl
  · exact ⟨y, 3, d, 31, rfl, hbound, by omega, rfl, by omega, by omega, by omega⟩
  · exact ⟨y, 4, d, 30, rfl, hbound, by omega, rfl, by omega, by omega, by omega⟩
  · exact ⟨y, 5, d, 31, rfl, hbound, by omega, rfl, by omega, by omega, by omega⟩
  · exact ⟨y, 6, d, 30, rfl, hbound, by omega, rfl, by omega, by omega, by omega⟩
  · exact ⟨y, 7, d, 31, rfl, hbound, by omega, rfl, by omega, by omega, by omega⟩
  · exact ⟨y, 8, d, 31, rfl, hbound, by omega, rfl, by omega, by omega, by omega⟩
  · exact ⟨y, 9, d, 30, rfl, hbound, by omega, rfl, by omega, by omega, by omega⟩
  · exact ⟨y, 10, d, 31, rfl, hbound, by omega, rfl, by omega, by omega, by omega⟩
  · exact ⟨y, 11, d, 30, rfl, hbound, by omega, rfl, by omega, by omega, by omega⟩
  · exact ⟨y, 12, d, 31, rfl, hbound, by omega, rfl, by omega, by omega, by omega⟩
  · exact ⟨y, 1, d, 31, rfl, hbound, by omega, rfl, by omega, by omega, by omega⟩
  · refine ⟨y, 2, d, _, rfl, hbound, by omega, rfl, by omega, ?_, by split_ifs <;> omega⟩
    by_cases hfull : dayOfYear = 365
    · have hyear' : year + era * 400 + 1 = y := hy
      have hleap' : isLeapYear y = true := by
        have := hleap hfull
        simp only [isLeapYear, Bool.and_eq_true, Bool.or_eq_true, decide_eq_true_eq]
        omega
      rw [if_pos hleap']
      omega
    · split_ifs <;> omega

end Civil

section Count

def daysInYear (year : ℕ) : ℕ := if isLeapYear year then 366 else 365

/-- The days of all years before a year, counted from year zero. -/
def daysBeforeYear : ℕ → ℕ
  | 0 => 0
  | year + 1 => daysBeforeYear year + daysInYear year

/-- The days of the months before a month of a year. -/
def daysBeforeMonth (year : ℕ) : ℕ → ℕ
  | 0 => 0
  | month + 1 => daysBeforeMonth year month + (daysInMonth year month).getD 0

/-- The number of a day, counted one by one through the calendar; 1970-01-01 is day zero. -/
def dayNumber (year month day : ℕ) : ℤ :=
  daysBeforeYear year + daysBeforeMonth year month + day - 1 - daysBeforeYear 1970

theorem daysInMonth_bounds {year month limit : ℕ} (h : daysInMonth year month = some limit) :
    1 ≤ month ∧ month ≤ 12 ∧ limit ≤ 31 := by
  unfold daysInMonth at h
  split at h
  all_goals first
    | (rw [Option.some_inj] at h; omega)
    | (rw [Option.some_inj] at h; split_ifs at h <;> omega)
    | cases h

/-- How many leap years there are up to a year. -/
def leapYears (year : ℤ) : ℤ := year / 4 - year / 100 + year / 400

theorem leapYears_of_nat (year : ℕ) :
    leapYears year = leapYears (year - 1) + if isLeapYear year then 1 else 0 := by
  have hleap : isLeapYear year = true ↔ year % 4 = 0 ∧ (year % 100 ≠ 0 ∨ year % 400 = 0) := by
    simp [isLeapYear]
  unfold leapYears
  split_ifs with h <;> rw [hleap] at h <;> omega

theorem daysBeforeYear_eq (year : ℕ) :
    (daysBeforeYear year : ℤ) = 365 * year + leapYears (year - 1) + 1 := by
  induction year with
  | zero => rfl
  | succ year ih =>
    have hleap := leapYears_of_nat year
    rw [daysBeforeYear, daysInYear, Nat.cast_succ, add_sub_cancel_right, hleap, Nat.cast_add, ih]
    split_ifs <;> push_cast <;> ring

/-- The days of whole eras and of the years of the last one. -/
theorem era_days (year : ℤ) :
    year / 400 * 146097 + ((year - year / 400 * 400) * 365 + (year - year / 400 * 400) / 4 -
    (year - year / 400 * 400) / 100) = 365 * year + leapYears year := by
  unfold leapYears
  omega

/-- The conversion by eras counts the days of the calendar. -/
theorem daysFromCivil_eq_dayNumber {year month limit : ℕ} (day : ℕ)
    (h : daysInMonth year month = some limit) :
    daysFromCivil year month day = dayNumber year month day := by
  obtain ⟨hfirst, hlast, -⟩ := daysInMonth_bounds h
  have hbefore := daysBeforeYear_eq year
  have hepoch : (daysBeforeYear 1970 : ℤ) = 719528 := (daysBeforeYear_eq 1970).trans rfl
  have hleap := leapYears_of_nat year
  have hcurrent := era_days year
  have hprevious := era_days (year - 1)
  rw [dayNumber, hbefore, hepoch]
  simp only [daysFromCivil]
  -- the years start in March, so January and February are those of the year before
  interval_cases month <;>
    simp only [daysBeforeMonth, daysInMonth, Option.getD_some, Option.getD_none] <;> norm_num <;>
      split_ifs at hleap ⊢ <;>
    linarith

end Count
section Numerals

def isDigit (byte : UInt8) : Bool := 48 ≤ byte && byte ≤ 57

/-- The number a sequence of digits stands for. -/
def digitsValue (digits : List UInt8) : ℕ :=
  digits.foldl (fun value digit => value * 10 + (digit.toNat - 48)) 0

/-- The last `width` digits of a number, with leading zeros. -/
def padded : ℕ → ℕ → List UInt8
  | 0, _ => []
  | width + 1, n => padded width (n / 10) ++ [UInt8.ofNat (48 + n % 10)]

/-- The number written at a place of a text, if there are only digits. -/
def parseDigits (bytes : List UInt8) (start length : ℕ) : Option ℕ :=
  let digits := (bytes.drop start).take length
  if digits.length = length ∧ digits.all isDigit = true then some (digitsValue digits) else none

theorem length_padded (width n : ℕ) : (padded width n).length = width := by
  induction width generalizing n with
  | zero => rfl
  | succ width ih => rw [padded, List.length_append, ih, List.length_singleton]

theorem toNat_digit (n : ℕ) : (UInt8.ofNat (48 + n % 10)).toNat = 48 + n % 10 := by
  rw [UInt8.toNat_ofNat', Nat.mod_eq_of_lt (by omega)]

theorem isDigit_digit (n : ℕ) : isDigit (UInt8.ofNat (48 + n % 10)) = true := by
  simp only [isDigit, Bool.and_eq_true, decide_eq_true_eq, UInt8.le_iff_toNat_le, toNat_digit]
  refine ⟨?_, ?_⟩
  · change 48 ≤ 48 + n % 10
    omega
  · change 48 + n % 10 ≤ 57
    omega

theorem all_isDigit_padded (width n : ℕ) : (padded width n).all isDigit = true := by
  induction width generalizing n with
  | zero => rfl
  | succ width ih => rw [padded, List.all_append, ih, List.all_cons, isDigit_digit]; rfl

theorem digitsValue_padded (width n : ℕ) (h : n < 10 ^ width) :
    digitsValue (padded width n) = n := by
  induction width generalizing n with
  | zero =>
    obtain rfl : n = 0 := by omega
    rfl
  | succ width ih =>
    have hrest : n / 10 < 10 ^ width := by
      rw [Nat.pow_succ] at h
      omega
    rw [padded, digitsValue, List.foldl_append, ← digitsValue, ih _ hrest]
    simp only [List.foldl_cons, List.foldl_nil, toNat_digit]
    omega

/-- A numeral is read back wherever it stands. -/
theorem parseDigits_padded {width n : ℕ} (h : n < 10 ^ width) (before rest : List UInt8) :
    parseDigits (before ++ (padded width n ++ rest)) before.length width = some n := by
  have hdigits : ((before ++ (padded width n ++ rest)).drop before.length).take width =
      padded width n := by
    rw [List.drop_left, List.take_left' (length_padded width n)]
  simp only [parseDigits, hdigits, length_padded, all_isDigit_padded, digitsValue_padded width n h,
    and_self, if_true]

end Numerals

end Calendar
