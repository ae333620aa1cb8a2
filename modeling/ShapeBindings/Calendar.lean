/-!
# Calendar

The civil date and time of a number of seconds since the start of 1970, in the Gregorian calendar
and without leap seconds. Years are counted from March inside, so that the leap day is the last
day of a year.
-/

namespace ShapeBindings

structure CivilTime where
  year : Nat
  month : Nat
  day : Nat
  hour : Nat
  minute : Nat
  second : Nat
  deriving DecidableEq

namespace CivilTime

/-- The year, month and day that lie `days` days after the first of March of the year 0. An era has
400 years and 146097 days. -/
def dateOfDays (days : Nat) : Nat × Nat × Nat :=
  let era := days / 146097
  let dayOfEra := days % 146097
  let yearOfEra := (dayOfEra - dayOfEra / 1460 + dayOfEra / 36524 - dayOfEra / 146096) / 365
  let dayOfYear := dayOfEra - (365 * yearOfEra + yearOfEra / 4 - yearOfEra / 100)
  let monthFromMarch := (5 * dayOfYear + 2) / 153
  let day := dayOfYear - (153 * monthFromMarch + 2) / 5 + 1
  let month := if monthFromMarch < 10 then monthFromMarch + 3 else monthFromMarch - 9
  let year := yearOfEra + era * 400 + (if month ≤ 2 then 1 else 0)
  (year, month, day)

/-- The date and time that lie `secs` seconds after the start of 1970. -/
def ofSeconds (secs : Nat) : CivilTime :=
  let (year, month, day) := dateOfDays (secs / 86400 + 719468)
  let rest := secs % 86400
  ⟨year, month, day, rest / 3600, rest % 3600 / 60, rest % 60⟩

/-- A number in decimal with at least `width` digits. -/
def padded (width n : Nat) : String :=
  let digits := (toString n).toList
  String.ofList (List.replicate (width - digits.length) '0' ++ digits)

def render (t : CivilTime) : String :=
  s!"{padded 4 t.year}-{padded 2 t.month}-{padded 2 t.day} " ++
    s!"{padded 2 t.hour}:{padded 2 t.minute}:{padded 2 t.second}"

end CivilTime

end ShapeBindings
