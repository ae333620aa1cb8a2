import Mathlib.Algebra.BigOperators.Intervals
import Mathlib.Algebra.Order.BigOperators.Group.Finset
import Mathlib.Data.Int.ConditionallyCompleteOrder
import Mathlib.Tactic.Linarith
import Mathlib.Tactic.Ring

/-!
# The Gregorian calendar

The lengths of years and months, and days that are counted by adding them.

* `daysBeforeYear_eq`: the days before a year, without a sum;
* `dayNumber_lt`: days are counted in the order of years, months and days, so no two dates have one number
  (`IsDate.eq_of_dayNumber_eq`).
-/

namespace ShapeBindings.Gregorian

open Finset

/-- Every fourth year is a leap year, but of the full centuries only every fourth. -/
def IsLeap (year : ℤ) : Prop := 4 ∣ year ∧ ¬ 100 ∣ year ∨ 400 ∣ year

instance : DecidablePred IsLeap := fun year => by unfold IsLeap; infer_instance

/-- The number of days of a month. -/
def monthLength (year : ℤ) (month : ℕ) : ℕ :=
  if month = 2 then if IsLeap year then 29 else 28
  else if month ∈ [4, 6, 9, 11] then 30
  else 31

/-- The number of days of a year. -/
def yearLength (year : ℤ) : ℕ := ∑ m ∈ range 12, monthLength year (m + 1)

/-- The days of a year before a month. -/
def daysBeforeMonth (year : ℤ) (month : ℕ) : ℕ := ∑ m ∈ range (month - 1), monthLength year (m + 1)

/-- The days from the start of 1970 to the start of a year: those of the years from 1970 on, or less those of the years
down from 1969. -/
def daysBeforeYear (year : ℤ) : ℤ :=
  (∑ n ∈ range (year - 1970).toNat, yearLength (1970 + n) : ℕ) - (∑ n ∈ range (1970 - year).toNat, yearLength (1969 - n) : ℕ)

/-- The days from the start of 1970 to a date. -/
def dayNumber (year : ℤ) (month day : ℕ) : ℤ := daysBeforeYear year + daysBeforeMonth year month + (day - 1)

/-- A date of the calendar. -/
structure IsDate (year : ℤ) (month day : ℕ) : Prop where
  one_le_month : 1 ≤ month
  month_le : month ≤ 12
  one_le_day : 1 ≤ day
  day_le : day ≤ monthLength year month

/-! ### Years -/

theorem yearLength_eq (year : ℤ) : yearLength year = if IsLeap year then 366 else 365 := by
  by_cases h : IsLeap year <;> simp [yearLength, sum_range_succ, monthLength, h]

theorem yearLength_pos (year : ℤ) : 0 < yearLength year := by
  rw [yearLength_eq]
  split <;> omega

theorem yearLength_le (year : ℤ) : yearLength year ≤ 366 := by
  rw [yearLength_eq]
  split <;> omega

/-- The calendar repeats after `400` years. -/
theorem yearLength_add_mul (year era : ℤ) : yearLength (year + 400 * era) = yearLength year := by
  have hleap : IsLeap (year + 400 * era) ↔ IsLeap year := by
    unfold IsLeap
    omega
  simp only [yearLength_eq, hleap]

theorem daysBeforeYear_add_one (year : ℤ) : daysBeforeYear (year + 1) = daysBeforeYear year + yearLength year := by
  unfold daysBeforeYear
  rcases le_or_gt 1970 year with h | h
  · obtain ⟨n, rfl⟩ := Int.le.dest h
    rw [show (1970 + (n : ℤ) + 1 - 1970).toNat = n + 1 by omega, show (1970 + (n : ℤ) - 1970).toNat = n by omega,
      show (1970 - (1970 + (n : ℤ) + 1)).toNat = 0 by omega, show (1970 - (1970 + (n : ℤ))).toNat = 0 by omega,
      sum_range_succ]
    push_cast
    ring
  · obtain ⟨n, rfl⟩ : ∃ n : ℕ, year = 1969 - n := ⟨(1969 - year).toNat, by omega⟩
    rw [show (1969 - (n : ℤ) + 1 - 1970).toNat = 0 by omega, show (1969 - (n : ℤ) - 1970).toNat = 0 by omega,
      show (1970 - (1969 - (n : ℤ) + 1)).toNat = n by omega, show (1970 - (1969 - (n : ℤ))).toNat = n + 1 by omega,
      sum_range_succ]
    push_cast
    ring

/-- The leap years before a year are counted by divisions. -/
theorem daysBeforeYear_eq (year : ℤ) :
    daysBeforeYear year = 365 * (year - 1970) + (year - 1) / 4 - (year - 1) / 100 + (year - 1) / 400 - 477 := by
  have hlength : ∀ y : ℤ, (yearLength y : ℤ) = 365 + (y / 4 - (y - 1) / 4) - (y / 100 - (y - 1) / 100) +
      (y / 400 - (y - 1) / 400) := by
    intro y
    rw [yearLength_eq]
    by_cases h : IsLeap y
    · rw [if_pos h]
      unfold IsLeap at h
      omega
    · rw [if_neg h]
      unfold IsLeap at h
      omega
  refine Int.inductionOn' year 1970 (by decide) (fun y _ ih => ?_) (fun y _ ih => ?_)
  · rw [daysBeforeYear_add_one, ih, hlength, add_sub_cancel_right]
    ring
  · have hstep := daysBeforeYear_add_one (y - 1)
    rw [sub_add_cancel, ih, hlength] at hstep
    linarith

theorem strictMono_daysBeforeYear : StrictMono daysBeforeYear := by
  refine strictMono_int_of_lt_succ fun year => ?_
  rw [daysBeforeYear_add_one]
  have := yearLength_pos year
  omega

/-! ### Months -/

theorem monthLength_le (year : ℤ) (month : ℕ) : monthLength year month ≤ 31 := by
  unfold monthLength
  split_ifs <;> omega

theorem monotone_daysBeforeMonth (year : ℤ) : Monotone (daysBeforeMonth year) := by
  intro m n h
  exact sum_le_sum_of_subset (range_mono (Nat.sub_le_sub_right h 1))

theorem daysBeforeMonth_add_one (year : ℤ) {month : ℕ} (h : 1 ≤ month) :
    daysBeforeMonth year (month + 1) = daysBeforeMonth year month + monthLength year month := by
  obtain ⟨m, rfl⟩ := Nat.exists_eq_add_of_le' h
  exact sum_range_succ _ m

theorem daysBeforeMonth_thirteen (year : ℤ) : daysBeforeMonth year 13 = yearLength year := rfl

/-! ### Dates -/

section Dates

variable {y y' : ℤ} {m m' d d' : ℕ}

/-- A date lies before the next month. -/
theorem IsDate.le_daysBeforeMonth (h : IsDate y m d) : daysBeforeMonth y m + d ≤ daysBeforeMonth y (m + 1) := by
  rw [daysBeforeMonth_add_one y h.one_le_month]
  exact Nat.add_le_add_left h.day_le _

/-- A date lies before the next year. -/
theorem IsDate.dayNumber_lt_daysBeforeYear (h : IsDate y m d) : dayNumber y m d < daysBeforeYear (y + 1) := by
  have hmonth := h.le_daysBeforeMonth
  have hyear := monotone_daysBeforeMonth y (Nat.succ_le_succ h.month_le)
  rw [Nat.succ_eq_add_one, daysBeforeMonth_thirteen] at hyear
  rw [dayNumber, daysBeforeYear_add_one]
  omega

theorem IsDate.daysBeforeYear_le (h : IsDate y m d) : daysBeforeYear y ≤ dayNumber y m d := by
  have := h.one_le_day
  rw [dayNumber]
  omega

/-- Days are counted in the order of dates. -/
theorem dayNumber_lt (h : IsDate y m d) (h' : IsDate y' m' d')
    (hlt : y < y' ∨ y = y' ∧ (m < m' ∨ m = m' ∧ d < d')) : dayNumber y m d < dayNumber y' m' d' := by
  rcases hlt with hy | ⟨rfl, hm | ⟨rfl, hd⟩⟩
  · calc dayNumber y m d < daysBeforeYear (y + 1) := h.dayNumber_lt_daysBeforeYear
      _ ≤ daysBeforeYear y' := strictMono_daysBeforeYear.monotone hy
      _ ≤ dayNumber y' m' d' := h'.daysBeforeYear_le
  · have hmonth := h.le_daysBeforeMonth
    have hnext : daysBeforeMonth y (m + 1) ≤ daysBeforeMonth y m' := monotone_daysBeforeMonth y hm
    have hday := h'.one_le_day
    rw [dayNumber, dayNumber]
    omega
  · rw [dayNumber, dayNumber]
    omega

/-- No two dates have one number. -/
theorem IsDate.eq_of_dayNumber_eq (h : IsDate y m d) (h' : IsDate y' m' d')
    (heq : dayNumber y m d = dayNumber y' m' d') : y = y' ∧ m = m' ∧ d = d' := by
  have hlt := mt (dayNumber_lt h h') heq.not_lt
  have hgt := mt (dayNumber_lt h' h) heq.not_gt
  omega

end Dates

end ShapeBindings.Gregorian
