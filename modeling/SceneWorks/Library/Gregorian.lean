import Mathlib.Order.Basic
import Mathlib.Tactic.IntervalCases

/-!
The Gregorian calendar, run backwards and forwards without end: its leap years, the length of its
months, and the number of each of its days, counted from the first of January 1970.
-/

namespace Gregorian

def isLeap (year : Int) : Bool := year % 4 = 0 && (year % 100 ≠ 0 || year % 400 = 0)

def yearLength (year : Int) : Int := if isLeap year then 366 else 365

/-- The days of a year before each month, and before the month after the last. -/
def monthStart (year month : Int) : Int :=
  match month with
  | 1 => 0
  | 2 => 31
  | 3 => yearLength year - 306
  | 4 => yearLength year - 275
  | 5 => yearLength year - 245
  | 6 => yearLength year - 214
  | 7 => yearLength year - 184
  | 8 => yearLength year - 153
  | 9 => yearLength year - 122
  | 10 => yearLength year - 92
  | 11 => yearLength year - 61
  | 12 => yearLength year - 31
  | _ => yearLength year

def monthLength (year month : Int) : Int := monthStart year (month + 1) - monthStart year month

example : ([1, 2, 3, 4, 5, 6, 7, 8, 9, 10, 11, 12].map (monthLength 2023)) =
    [31, 28, 31, 30, 31, 30, 31, 31, 30, 31, 30, 31] := by decide

/-- The number of the first day of a year. -/
def yearStart (year : Int) : Int :=
  365 * year + (year + 3) / 4 - (year + 99) / 100 + (year + 399) / 400 - 719528

theorem yearStart_succ (year : Int) : yearStart (year + 1) = yearStart year + yearLength year := by
  simp only [yearStart, yearLength, isLeap, Bool.and_eq_true, Bool.or_eq_true, decide_eq_true_eq]
  split <;> omega

/-- A day of the calendar. -/
structure Date where
  year : Int
  month : Int
  day : Int
  month_range : 1 ≤ month ∧ month ≤ 12
  day_range : 1 ≤ day ∧ day ≤ monthLength year month

def Date.number (date : Date) : Int :=
  yearStart date.year + monthStart date.year date.month + date.day - 1

theorem monthLength_le (year : Int) {month : Int} (h : 1 ≤ month ∧ month ≤ 12) :
    monthLength year month ≤ 31 := by
  have hlength : yearLength year ≤ 366 := by
    unfold yearLength
    split <;> decide
  obtain ⟨hfirst, hlast⟩ := h
  interval_cases month <;> simp [monthLength, monthStart]
  omega

theorem monthStart_last (year : Int) : monthStart year 13 = yearLength year := rfl

theorem monthStart_mono {year a b : Int} (ha : 1 ≤ a) (hab : a ≤ b) (hb : b ≤ 13) :
    monthStart year a ≤ monthStart year b := by
  have hlength : 365 ≤ yearLength year := by
    unfold yearLength
    split <;> decide
  have hlast : a ≤ 13 := hab.trans hb
  interval_cases a <;> interval_cases b <;> simp only [monthStart] <;> omega

theorem yearStart_mono {a b : Int} (h : a ≤ b) : yearStart a ≤ yearStart b := by
  simp only [yearStart]
  omega

theorem Date.number_lt_monthEnd (date : Date) :
    date.number < yearStart date.year + monthStart date.year (date.month + 1) := by
  have hday := date.day_range.2
  rw [monthLength] at hday
  rw [Date.number]
  omega

theorem Date.monthStart_le_number (date : Date) :
    yearStart date.year + monthStart date.year date.month ≤ date.number := by
  have hday := date.day_range.1
  rw [Date.number]
  omega

theorem Date.yearStart_le_number (date : Date) : yearStart date.year ≤ date.number := by
  have hfirst : monthStart date.year 1 ≤ monthStart date.year date.month :=
    monthStart_mono (Int.le_refl 1) date.month_range.1 (by have := date.month_range.2; omega)
  have hstart := date.monthStart_le_number
  have hzero : monthStart date.year 1 = 0 := rfl
  omega

theorem Date.number_lt_yearEnd (date : Date) : date.number < yearStart (date.year + 1) := by
  have hlast : monthStart date.year (date.month + 1) ≤ monthStart date.year 13 :=
    monthStart_mono (by have := date.month_range.1; omega) (by have := date.month_range.2; omega)
      (Int.le_refl 13)
  have hend := date.number_lt_monthEnd
  rw [monthStart_last] at hlast
  rw [yearStart_succ]
  omega

/-- Years, months and days in this order. -/
def Date.Before (a b : Date) : Prop :=
  a.year < b.year ∨ a.year = b.year ∧ (a.month < b.month ∨ a.month = b.month ∧ a.day < b.day)

theorem Date.number_lt_of_before {a b : Date} (h : a.Before b) : a.number < b.number := by
  rcases h with hyear | ⟨hyear, hmonth | ⟨hmonth, hday⟩⟩
  · calc
      a.number < yearStart (a.year + 1) := a.number_lt_yearEnd
      _ ≤ yearStart b.year := yearStart_mono hyear
      _ ≤ b.number := b.yearStart_le_number
  · have hstart : monthStart b.year (a.month + 1) ≤ monthStart b.year b.month :=
      monthStart_mono (by have := a.month_range.1; omega) hmonth
        (by have := b.month_range.2; omega)
    have hend := a.number_lt_monthEnd
    rw [hyear] at hend
    calc
      a.number < yearStart b.year + monthStart b.year (a.month + 1) := hend
      _ ≤ yearStart b.year + monthStart b.year b.month := by omega
      _ ≤ b.number := b.monthStart_le_number
  · rw [Date.number, Date.number, hyear, hmonth]
    omega

theorem Date.before_or_same (a b : Date) :
    a.Before b ∨ b.Before a ∨ a.year = b.year ∧ a.month = b.month ∧ a.day = b.day := by
  simp only [Date.Before]
  omega

/-- The days are numbered in order. -/
theorem Date.number_lt_iff {a b : Date} : a.number < b.number ↔ a.Before b := by
  refine ⟨fun h => ?_, Date.number_lt_of_before⟩
  rcases a.before_or_same b with hbefore | hbefore | ⟨hyear, hmonth, hday⟩
  · exact hbefore
  · exact absurd (Date.number_lt_of_before hbefore) (by omega)
  · rw [Date.number, Date.number, hyear, hmonth, hday] at h
    exact absurd h (Int.lt_irrefl _)

theorem Date.number_eq_iff {a b : Date} :
    a.number = b.number ↔ a.year = b.year ∧ a.month = b.month ∧ a.day = b.day := by
  constructor
  · intro h
    rcases a.before_or_same b with hbefore | hbefore | hsame
    · exact absurd (Date.number_lt_of_before hbefore) (by omega)
    · exact absurd (Date.number_lt_of_before hbefore) (by omega)
    · exact hsame
  · rintro ⟨hyear, hmonth, hday⟩
    rw [Date.number, Date.number, hyear, hmonth, hday]

/-- The day of a year's number is a day of that year. -/
theorem Date.year_iff (date : Date) (year : Int) :
    date.year = year ↔ yearStart year ≤ date.number ∧ date.number < yearStart (year + 1) := by
  constructor
  · rintro rfl
    exact ⟨date.yearStart_le_number, date.number_lt_yearEnd⟩
  · rintro ⟨hfrom, hto⟩
    rcases Int.lt_trichotomy date.year year with h | h | h
    · have := yearStart_mono (show date.year + 1 ≤ year from h)
      have := date.number_lt_yearEnd
      omega
    · exact h
    · have := yearStart_mono (show year + 1 ≤ date.year from h)
      have := date.yearStart_le_number
      omega

end Gregorian
