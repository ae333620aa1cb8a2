import ShapeBindings.Proofs.Calendar.Dates

/-!
# Dates in machine words

The computation of a date and time on words of 64 bits, where each result of an operation or conversion is looked at:
without a sign for days and seconds since some start, with a sign for days and years that may lie before it.

* `fieldsInWords_natCast`: no result leaves its word, so the computation ends with the date and time of the seconds.
-/

namespace ShapeBindings.CivilTime

open Gregorian

/-- A result that a word without a sign holds. -/
def unsigned? (n : ℤ) : Option ℤ := if 0 ≤ n ∧ n < (2 ^ 64 : ℕ) then some n else none

/-- A result that a word with a sign holds. -/
def signed? (n : ℤ) : Option ℤ := if -(2 ^ 63 : ℕ) ≤ n ∧ n < (2 ^ 63 : ℕ) then some n else none

/-- The year of a day of an era. -/
def yearOfEraInWords (dayOfEra : ℤ) : Option ℤ := do
  let days ← unsigned? ((← unsigned? (dayOfEra - dayOfEra / 1460)) + dayOfEra / 36524)
  return (← unsigned? (days - dayOfEra / 146096)) / 365

/-- The day of a year of an era. -/
def dayOfYearInWords (dayOfEra yearOfEra : ℤ) : Option ℤ := do
  let days ← unsigned? ((← unsigned? (365 * yearOfEra)) + yearOfEra / 4)
  unsigned? (dayOfEra - (← unsigned? (days - yearOfEra / 100)))

/-- The month and the day of a day of a year from March on. -/
def monthAndDayInWords (dayOfYear : ℤ) : Option (ℤ × ℤ) := do
  let monthFromMarch := (← unsigned? ((← unsigned? (5 * dayOfYear)) + 2)) / 153
  let before := (← unsigned? ((← unsigned? (153 * monthFromMarch)) + 2)) / 5
  let day ← unsigned? ((← unsigned? (dayOfYear - before)) + 1)
  let month ← if monthFromMarch < 10 then unsigned? (monthFromMarch + 3) else unsigned? (monthFromMarch - 9)
  return (month, day)

/-- The era of a day; before the first one, divisions are towards zero. -/
def eraInWords (days : ℤ) : Option ℤ := do
  let start ← if 0 ≤ days then some days else signed? (days - 146096)
  return start.tdiv 146097

/-- The year from January on of a month of a year from March on. -/
def yearInWords (year month : ℤ) : Option ℤ := if month ≤ 2 then signed? (year + 1) else some year

/-- The year, month and day of a day since the first of March of the year 0. -/
def dateInWords (days : ℤ) : Option (ℤ × ℤ × ℤ) := do
  let era ← eraInWords days
  let dayOfEra ← unsigned? (← signed? (days - (← signed? (era * 146097))))
  let yearOfEra ← yearOfEraInWords dayOfEra
  let year ← signed? ((← signed? yearOfEra) + (← signed? (era * 400)))
  let (month, day) ← monthAndDayInWords (← dayOfYearInWords dayOfEra yearOfEra)
  return (← yearInWords year month, month, day)

/-- The numbers of the date and time of a number of seconds since the start of 1970. -/
def fieldsInWords (secs : ℤ) : Option (List ℤ) := do
  let (year, month, day) ← dateInWords (← signed? ((← signed? (secs / 86400)) + 719468))
  let rest := secs % 86400
  return [year, month, day, rest / 3600, rest % 3600 / 60, rest % 60]

/-! ### Results that a word holds -/

section Holds

variable {α : Type} {n : ℤ}

theorem unsigned?_of_le (hle : 0 ≤ n) (hlt : n < 18446744073709551616) : unsigned? n = some n := if_pos ⟨hle, hlt⟩

theorem signed?_of_le (hle : -9223372036854775808 ≤ n) (hlt : n < 9223372036854775808) : signed? n = some n :=
  if_pos ⟨hle, hlt⟩

theorem unsigned?_bind (hle : 0 ≤ n) (hlt : n < 18446744073709551616) (f : ℤ → Option α) :
    (unsigned? n >>= f) = f n := by
  rw [unsigned?_of_le hle hlt]
  rfl

theorem signed?_bind (hle : -9223372036854775808 ≤ n) (hlt : n < 9223372036854775808) (f : ℤ → Option α) :
    (signed? n >>= f) = f n := by
  rw [signed?_of_le hle hlt]
  rfl

end Holds

/-! ### The computation -/

theorem eraInWords_natCast (n : ℕ) : eraInWords n = pure ((n / 146097 : ℕ) : ℤ) := by
  rw [eraInWords, if_pos (by omega)]
  rfl

theorem yearOfEraInWords_natCast {n : ℕ} (h : n < 146097) :
    yearOfEraInWords n = pure (((n - n / 1460 + n / 36524 - n / 146096) / 365 : ℕ) : ℤ) := by
  rw [yearOfEraInWords, unsigned?_bind (by omega) (by omega), unsigned?_bind (by omega) (by omega),
    unsigned?_bind (by omega) (by omega)]
  congr 1
  omega

theorem dayOfYearInWords_natCast {n y : ℕ} (hy : y < 400) (h : 365 * y + y / 4 - y / 100 ≤ n) (hn : n < 146097) :
    dayOfYearInWords n y = pure ((n - (365 * y + y / 4 - y / 100) : ℕ) : ℤ) := by
  rw [dayOfYearInWords, unsigned?_bind (by omega) (by omega), unsigned?_bind (by omega) (by omega),
    unsigned?_bind (by omega) (by omega), unsigned?_of_le (by omega) (by omega), Option.pure_def]
  congr 1
  omega

theorem monthAndDayInWords_natCast {n k : ℕ} (h : n ≤ 366) (hk : k = (5 * n + 2) / 153) :
    monthAndDayInWords n =
      pure (((if k < 10 then k + 3 else k - 9 : ℕ) : ℤ), ((n - (153 * k + 2) / 5 + 1 : ℕ) : ℤ)) := by
  have hdiv : (5 * (n : ℤ) + 2) / 153 = k := by omega
  have hday : (n : ℤ) - (153 * k + 2) / 5 + 1 = (n - (153 * k + 2) / 5 + 1 : ℕ) := by omega
  rw [monthAndDayInWords, unsigned?_bind (by omega) (by omega), unsigned?_bind (by omega) (by omega), hdiv]
  rw [unsigned?_bind (by omega) (by omega), unsigned?_bind (by omega) (by omega),
    unsigned?_bind (by omega) (by omega), unsigned?_bind (by omega) (by omega), hday]
  by_cases hk' : k < 10
  · rw [if_pos (by omega), if_pos hk', unsigned?_bind (by omega) (by omega), Nat.cast_add]
    rfl
  · rw [if_neg (by omega), if_neg hk', unsigned?_bind (by omega) (by omega), Nat.cast_sub (by omega)]
    rfl

theorem yearInWords_natCast {year month : ℕ} (h : year < 1000000000000000) :
    yearInWords year month = pure ((year + if month ≤ 2 then 1 else 0 : ℕ) : ℤ) := by
  by_cases hmonth : month ≤ 2
  · rw [yearInWords, if_pos (by omega), if_pos hmonth, signed?_of_le (by omega) (by omega)]
    rfl
  · rw [yearInWords, if_neg (by omega), if_neg hmonth]
    rfl

theorem dateInWords_natCast {n : ℕ} (h : n < 1000000000000000) :
    dateInWords n = pure (((dateOfDays n).1 : ℤ), ((dateOfDays n).2.1 : ℤ), ((dateOfDays n).2.2 : ℤ)) := by
  unfold dateOfDays
  extract_lets era dayOfEra yearOfEra dayOfYear monthFromMarch day month year
  have hera : (n : ℤ) - (era : ℤ) * 146097 = dayOfEra := by omega
  have hlt : dayOfEra < 146097 := Nat.mod_lt n (by decide)
  obtain ⟨hyear, rest, hrest, hn⟩ := exists_yearOfEra hlt (y := yearOfEra) rfl
  have hlength := yearLength_le (yearOfEra + 1)
  have hdayOfYear : dayOfYear ≤ 366 := by
    simp only [dayOfYear]
    omega
  have hsum : (yearOfEra : ℤ) + (era : ℤ) * 400 = (yearOfEra + era * 400 : ℕ) := by
    push_cast
    rfl
  rw [dateInWords, eraInWords_natCast, pure_bind, signed?_bind (by omega) (by omega), hera,
    signed?_bind (by omega) (by omega), unsigned?_bind (by omega) (by omega),
    yearOfEraInWords_natCast hlt, pure_bind, signed?_bind (by omega) (by omega), signed?_bind (by omega) (by omega),
    hsum, signed?_bind (by omega) (by omega), dayOfYearInWords_natCast hyear (by omega) hlt, pure_bind,
    monthAndDayInWords_natCast hdayOfYear rfl, pure_bind]
  show (yearInWords ((yearOfEra + era * 400 : ℕ) : ℤ) (month : ℤ) >>= _) = _
  rw [yearInWords_natCast (by omega), pure_bind]

/-- No result leaves its word: the computation ends with the date and time of the seconds. -/
theorem fieldsInWords_natCast {secs : ℕ} (h : secs < 2 ^ 64) :
    fieldsInWords secs = some ((ofSeconds secs).fields.map Nat.cast) := by
  have hdays : (secs / 86400 : ℤ) + 719468 = (secs / 86400 + 719468 : ℕ) := by
    push_cast
    rfl
  rw [fieldsInWords, signed?_bind (by omega) (by omega), hdays, signed?_bind (by omega) (by omega),
    dateInWords_natCast (by omega), pure_bind]
  rfl

end ShapeBindings.CivilTime
