import Mathlib.Tactic.IntervalCases
import ShapeBindings.Calendar
import ShapeBindings.Proofs.Calendar.Gregorian

/-!
# Seconds and dates

The date and time of a number of seconds are those of the calendar.

* `exists_yearOfEra`: the divisions find the year of a day of an era, with years from March to February;
* `dateOfDays_spec`: the date of a day, with the number of that day;
* `isMoment_iff`: the moment of a number of seconds, the only one of the calendar;
* `strictMono_fields`: moments are in the order of their numbers of seconds.
-/

namespace ShapeBindings.CivilTime

open Gregorian

/-- A date and a time of day that are a number of seconds after the start of 1970. -/
structure IsMoment (secs : ℕ) (year : ℤ) (month day hour minute second : ℕ) : Prop where
  isDate : IsDate year month day
  hour_lt : hour < 24
  minute_lt : minute < 60
  second_lt : second < 60
  dayNumber_eq : dayNumber year month day = (secs / 86400 : ℕ)
  seconds_eq : 3600 * hour + 60 * minute + second = secs % 86400

/-- The numbers of a date and time, from the year to the second. -/
def fields (t : CivilTime) : List ℕ := [t.year, t.month, t.day, t.hour, t.minute, t.second]

/-! ### Years from March to February -/

/-- In an era, a full cycle of four years has one day more than `1460`, but for that of a century without a leap day. -/
theorem yearOfEra_eq {century cycle year rest n : ℕ} (hcentury : century ≤ 3) (hcycle : cycle ≤ 24) (hyear : year ≤ 3)
    (hrest : rest ≤ 364 ∨ rest = 365 ∧ year = 3 ∧ (cycle ≤ 23 ∨ century = 3))
    (hn : n = 36524 * century + 1461 * cycle + 365 * year + rest) :
    (n - n / 1460 + n / 36524 - n / 146096) / 365 = 100 * century + 4 * cycle + year := by
  have hcenturies : n / 36524 = century + n / 146096 := by
    rcases (show n < 146096 ∨ n = 146096 by omega) with h | h
    · rw [Nat.div_eq_of_lt h]
      omega
    · omega
  have hcycles : n / 1460 = 25 * century + cycle + (24 * century + cycle + 365 * year + rest) / 1460 := by omega
  have hlast : (24 * century + cycle + 365 * year + rest) / 1460 =
      if 1460 ≤ 24 * century + cycle + 365 * year + rest then 1 else 0 := by
    split <;> omega
  rw [hcenturies, hcycles, hlast]
  split <;> omega

/-- A day of an era lies in a century, there in a cycle of four years, and there in a year. -/
theorem exists_century_cycle_year {n : ℕ} (h : n < 146097) :
    ∃ century cycle year rest, century ≤ 3 ∧ cycle ≤ 24 ∧ year ≤ 3 ∧
      (rest ≤ 364 ∨ rest = 365 ∧ year = 3 ∧ (cycle ≤ 23 ∨ century = 3)) ∧
      n = 36524 * century + 1461 * cycle + 365 * year + rest := by
  obtain ⟨century, k, hcentury, rfl, hk⟩ :
      ∃ century k, century ≤ 3 ∧ n = 36524 * century + k ∧ (k < 36524 ∨ k = 36524 ∧ century = 3) :=
    ⟨min (n / 36524) 3, n - 36524 * min (n / 36524) 3, by omega⟩
  obtain ⟨year, rest, hyear, hrest, hlast⟩ :
      ∃ year rest, year ≤ 3 ∧ k % 1461 = 365 * year + rest ∧ (rest ≤ 364 ∨ rest = 365 ∧ year = 3) :=
    ⟨min (k % 1461 / 365) 3, k % 1461 - 365 * min (k % 1461 / 365) 3, by omega⟩
  exact ⟨century, k / 1461, year, rest, by omega⟩

/-- The year of a day of an era; its leap day is that of the February it ends with. -/
theorem exists_yearOfEra {n y : ℕ} (h : n < 146097) (hy : y = (n - n / 1460 + n / 36524 - n / 146096) / 365) :
    y < 400 ∧ ∃ rest < yearLength (y + 1), n = 365 * y + y / 4 - y / 100 + rest := by
  obtain ⟨century, cycle, year, rest, hcentury, hcycle, hyear, hrest, hn⟩ := exists_century_cycle_year h
  rw [yearOfEra_eq hcentury hcycle hyear hrest hn] at hy
  have hcycles : y / 4 = 25 * century + cycle := by omega
  have hcenturies : y / 100 = century := by omega
  refine ⟨by omega, rest, ?_, by omega⟩
  rw [yearLength_eq]
  by_cases hleap : IsLeap (y + 1)
  · rw [if_pos hleap]
    omega
  · rw [if_neg hleap]
    unfold IsLeap at hleap
    omega

/-! ### Months from March to February -/

/-- From March on, five months have 153 days. -/
theorem monthLength_add_three (year : ℤ) {k : ℕ} (hk : k < 10) :
    monthLength year (k + 3) = (153 * (k + 1) + 2) / 5 - (153 * k + 2) / 5 := by
  interval_cases k <;> rfl

theorem daysBeforeMonth_add_three (year : ℤ) {k : ℕ} (hk : k ≤ 10) :
    daysBeforeMonth year (k + 3) = daysBeforeMonth year 3 + (153 * k + 2) / 5 := by
  induction k with
  | zero => rfl
  | succ k ih =>
    rw [add_right_comm, daysBeforeMonth_add_one year (by omega), ih (by omega), monthLength_add_three year (by omega)]
    omega

theorem dayNumber_march (year : ℤ) : dayNumber year 3 1 = 365 * year + year / 4 - year / 100 + year / 400 - 719468 := by
  have hmonths := daysBeforeMonth_add_three year (k := 10) le_rfl
  rw [daysBeforeMonth_thirteen] at hmonths
  have hnext := daysBeforeYear_add_one year
  rw [daysBeforeYear_eq (year + 1), hmonths, add_sub_cancel_right] at hnext
  rw [dayNumber]
  push_cast at hnext ⊢
  omega

section Months

variable {year y : ℤ} {k m d : ℕ} (hk : k < 12) (hm : m = if k < 10 then k + 3 else k - 9)
  (hy : y = year + if m ≤ 2 then 1 else 0)

include hk hm hy

/-- A month from March on is one of the year, or the January or February of the next. -/
theorem month_cases :
    k < 10 ∧ m = k + 3 ∧ y = year ∨ k = 10 ∧ m = 1 ∧ y = year + 1 ∨ k = 11 ∧ m = 2 ∧ y = year + 1 := by
  split at hm <;> split at hy <;> omega

theorem dayNumber_of_march : dayNumber y m d = dayNumber year 3 1 + (153 * k + 2) / 5 + (d - 1) := by
  have hnext := daysBeforeYear_add_one year
  rw [← daysBeforeMonth_thirteen, daysBeforeMonth_add_three year (k := 10) le_rfl] at hnext
  rcases month_cases hk hm hy with ⟨hlt, rfl, rfl⟩ | ⟨rfl, rfl, rfl⟩ | ⟨rfl, rfl, rfl⟩
  · rw [dayNumber, dayNumber, daysBeforeMonth_add_three _ hlt.le]
    omega
  · rw [dayNumber, dayNumber, hnext, show daysBeforeMonth (year + 1) 1 = 0 from rfl]
    omega
  · rw [dayNumber, dayNumber, hnext, show daysBeforeMonth (year + 1) 2 = 31 from rfl]
    omega

theorem monthLength_of_march :
    monthLength y m = min ((153 * (k + 1) + 2) / 5) (yearLength (year + 1)) - (153 * k + 2) / 5 := by
  have hyear := yearLength_eq (year + 1)
  rcases month_cases hk hm hy with ⟨hlt, rfl, rfl⟩ | ⟨rfl, rfl, rfl⟩ | ⟨rfl, rfl, rfl⟩
  · rw [monthLength_add_three _ hlt]
    split at hyear <;> omega
  · rw [show monthLength (year + 1) 1 = 31 from rfl]
    split at hyear <;> omega
  · rw [hyear, show monthLength (year + 1) 2 = if IsLeap (year + 1) then 29 else 28 from rfl]
    split <;> rfl

end Months

/-! ### Dates -/

theorem dateOfDays_spec (n : ℕ) :
    IsDate (dateOfDays n).1 (dateOfDays n).2.1 (dateOfDays n).2.2 ∧
      dayNumber (dateOfDays n).1 (dateOfDays n).2.1 (dateOfDays n).2.2 = n - 719468 := by
  unfold dateOfDays
  extract_lets era dayOfEra yearOfEra dayOfYear monthFromMarch day month year
  have hera : n = era * 146097 + dayOfEra := (Nat.div_add_mod' n 146097).symm
  obtain ⟨hyear, rest, hrest, hn⟩ := exists_yearOfEra (n := dayOfEra) (Nat.mod_lt n (by decide)) (y := yearOfEra) rfl
  have hdayOfYear : dayOfYear = rest := by
    simp only [dayOfYear]
    omega
  have hlength : rest < yearLength (yearOfEra + 400 * era + 1) := by rwa [add_right_comm, yearLength_add_mul]
  have hk : monthFromMarch = (5 * rest + 2) / 153 := by rw [← hdayOfYear]
  have hday : day = rest - (153 * monthFromMarch + 2) / 5 + 1 := by rw [← hdayOfYear]
  have hmonth : month = if monthFromMarch < 10 then monthFromMarch + 3 else monthFromMarch - 9 := rfl
  have hy : (year : ℤ) = (yearOfEra + 400 * era : ℤ) + if month ≤ 2 then 1 else 0 := by
    simp only [year]
    push_cast
    ring
  clear_value era dayOfEra yearOfEra dayOfYear monthFromMarch day month year
  have hlt : monthFromMarch < 12 := by
    have := yearLength_le (yearOfEra + 400 * era + 1)
    omega
  refine ⟨⟨?_, ?_, ?_, ?_⟩, ?_⟩
  · show 1 ≤ month
    split at hmonth <;> omega
  · show month ≤ 12
    split at hmonth <;> omega
  · show 1 ≤ day
    omega
  · show day ≤ monthLength year month
    rw [monthLength_of_march hlt hmonth hy]
    omega
  · show dayNumber year month day = n - 719468
    rw [dayNumber_of_march hlt hmonth hy, dayNumber_march]
    omega

/-! ### Moments -/

theorem isMoment_ofSeconds (secs : ℕ) :
    IsMoment secs (ofSeconds secs).year (ofSeconds secs).month (ofSeconds secs).day (ofSeconds secs).hour
      (ofSeconds secs).minute (ofSeconds secs).second := by
  obtain ⟨hdate, hnumber⟩ := dateOfDays_spec (secs / 86400 + 719468)
  have hrest : secs % 86400 < 86400 := Nat.mod_lt _ (by decide)
  unfold ofSeconds
  refine ⟨hdate, ?_, ?_, ?_, ?_, ?_⟩
  · show secs % 86400 / 3600 < 24
    omega
  · show secs % 86400 % 3600 / 60 < 60
    omega
  · exact Nat.mod_lt _ (by decide)
  · rw [hnumber]
    push_cast
    ring
  · show 3600 * (secs % 86400 / 3600) + 60 * (secs % 86400 % 3600 / 60) + secs % 86400 % 60 = secs % 86400
    omega

/-- A number of seconds has one moment. -/
theorem IsMoment.unique {secs : ℕ} {y y' : ℤ} {m m' d d' h h' mi mi' s s' : ℕ} (hm : IsMoment secs y m d h mi s)
    (hm' : IsMoment secs y' m' d' h' mi' s') :
    y = y' ∧ m = m' ∧ d = d' ∧ h = h' ∧ mi = mi' ∧ s = s' := by
  have hdate := hm.isDate.eq_of_dayNumber_eq hm'.isDate (hm.dayNumber_eq.trans hm'.dayNumber_eq.symm)
  have htime := hm.seconds_eq.trans hm'.seconds_eq.symm
  have hminute := hm.minute_lt
  have hminute' := hm'.minute_lt
  have hsecond := hm.second_lt
  have hsecond' := hm'.second_lt
  omega

/-- The moment of a number of seconds is the only one of the calendar. -/
theorem isMoment_iff {secs : ℕ} {year : ℤ} {month day hour minute second : ℕ} :
    IsMoment secs year month day hour minute second ↔
      year = (ofSeconds secs).year ∧ month = (ofSeconds secs).month ∧ day = (ofSeconds secs).day ∧
        hour = (ofSeconds secs).hour ∧ minute = (ofSeconds secs).minute ∧ second = (ofSeconds secs).second := by
  constructor
  · intro h
    exact h.unique (isMoment_ofSeconds secs)
  · rintro ⟨rfl, rfl, rfl, rfl, rfl, rfl⟩
    exact isMoment_ofSeconds secs

/-- A later moment has a larger year, or in one year a larger month, and so on. -/
theorem strictMono_fields : StrictMono fun secs => (ofSeconds secs).fields := by
  intro a b hab
  have ha := isMoment_ofSeconds a
  have hb := isMoment_ofSeconds b
  show (ofSeconds a).fields < (ofSeconds b).fields
  generalize ofSeconds a = t, ofSeconds b = u at ha hb ⊢
  have hdays : dayNumber t.year t.month t.day ≤ dayNumber u.year u.month u.day := by
    rw [ha.dayNumber_eq, hb.dayNumber_eq]
    omega
  have hdate := mt (dayNumber_lt hb.isDate ha.isDate) hdays.not_gt
  have hday : t.year = u.year ∧ t.month = u.month ∧ t.day = u.day → a / 86400 = b / 86400 := by
    rintro ⟨hyear, hmonth, hday⟩
    have hb' := hb.dayNumber_eq
    rw [← hyear, ← hmonth, ← hday, ha.dayNumber_eq] at hb'
    exact_mod_cast hb'
  have htime := ha.seconds_eq
  have htime' := hb.seconds_eq
  have hminute := ha.minute_lt
  have hminute' := hb.minute_lt
  have hsecond := ha.second_lt
  have hsecond' := hb.second_lt
  simp only [fields, List.cons_lt_cons_iff]
  omega

end ShapeBindings.CivilTime
