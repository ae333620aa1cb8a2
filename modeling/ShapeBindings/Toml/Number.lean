import ShapeBindings.Toml.Scanner
import ShapeBindings.Toml.Value

/-!
# Numbers, dates and times

Integers fit into 64 bits with a sign. A number with a fraction or an exponent is kept as it is
spelt, and refused if its nearest double is positive infinity. Underscores may stand between digits.
-/

namespace ShapeBindings.Toml

/-- Reads on in a run of digits of which one has been read. An underscore needs a digit on its other
side. -/
def digitsAfter (isDigit : Char → Bool) : List Char → Option (List Char × List Char)
  | [] => some ([], [])
  | ['_'] => none
  | '_' :: c :: s =>
    if isDigit c then (digitsAfter isDigit s).map fun (ds, rest) => (c :: ds, rest) else none
  | c :: s =>
    if isDigit c then (digitsAfter isDigit s).map fun (ds, rest) => (c :: ds, rest)
    else some ([], c :: s)

/-- Reads a run of digits and leaves out its underscores. -/
def digits (isDigit : Char → Bool) : Scan (List Char) := do
  let first ← Scan.satisfy isDigit
  return first :: (← digitsAfter isDigit)

def digitsValue (base : Nat) (ds : List Char) : Nat :=
  ds.foldl (fun n c =>
    n * base + (if c.isDigit then c.toNat - '0'.toNat else c.toLower.toNat - 'a'.toNat + 10)) 0

def sign : Scan (Option Bool) := do
  match ← Scan.peek with
  | some '+' => Scan.char '+'; return some false
  | some '-' => Scan.char '-'; return some true
  | _ => return none

/-- Reads a run of decimal digits that starts with a zero only if it is a lone zero. -/
def wholeDigits : Scan (List Char) := do
  if (← Scan.peek) = some '0' then
    Scan.char '0'
    return ['0']
  digits Char.isDigit

/-- An integer that fits into 64 bits with a sign. -/
def integerOf (i : Int) : Option Value :=
  if -9223372036854775808 ≤ i ∧ i ≤ 9223372036854775807 then some (.integer i) else none

/-- Reads an integer after the marker of its base. -/
def basedInteger (marker : String) (base : Nat) (isDigit : Char → Bool) : Scan Value := do
  Scan.text marker
  integerOf (digitsValue base (← digits isDigit))

def integer : Scan Value :=
  basedInteger "0x" 16 (fun c => c.isDigit || ('a' ≤ c.toLower && c.toLower ≤ 'f')) <|>
  basedInteger "0o" 8 (fun c => '0' ≤ c && c ≤ '7') <|>
  basedInteger "0b" 2 (fun c => c == '0' || c == '1') <|>
  do
    let negative := (← sign) = some true
    let n := digitsValue 10 (← wholeDigits)
    integerOf (if negative then -n else n)

/-- Whether the nearest double of `mantissa` times ten to the `exponent` is infinity. It is from the
middle on between the largest double and the next power of two. -/
def overflowsDouble (mantissa : Nat) (exponent : Int) : Bool :=
  let size := (toString mantissa).length + exponent
  mantissa != 0 && (310 < size ||
    (300 < size &&
      let limit := Nat.pow 2 1024 - Nat.pow 2 970
      let scale := Nat.pow 10 exponent.natAbs
      if exponent < 0 then limit * scale ≤ mantissa else limit ≤ mantissa * scale))

def fraction : Scan (List Char) := do
  Scan.char '.'
  digits Char.isDigit

def exponent : Scan (Bool × List Char) := do
  discard (Scan.satisfy fun c => c == 'e' || c == 'E')
  let negative := (← sign) = some true
  return (negative, ← digits Char.isDigit)

def signText : Option Bool → String
  | none => ""
  | some false => "+"
  | some true => "-"

/-- Reads a number that is infinite or none. -/
def specialFloat : Scan Value := do
  let s ← sign
  let name ← (do Scan.text "inf"; return "inf") <|> (do Scan.text "nan"; return "nan")
  return .float (signText s ++ name)

/-- Reads a number with a fraction, an exponent or both. -/
def finiteFloat : Scan Value := do
  let s ← sign
  let whole ← wholeDigits
  let frac ← Scan.optional fraction
  let exp ← Scan.optional exponent
  guard (frac.isSome || exp.isSome)
  let fracDigits := frac.getD []
  let (expNegative, expDigits) := exp.getD (false, ['0'])
  let size : Int := digitsValue 10 expDigits
  let scale := (if expNegative then -size else size) - fracDigits.length
  guard (s = some true || !overflowsDouble (digitsValue 10 (whole ++ fracDigits)) scale)
  return .float (signText s ++ String.ofList whole ++ "." ++ String.ofList fracDigits ++ "e" ++
    (if expNegative then "-" else "") ++ String.ofList expDigits)

/-- Reads a number of exactly `n` decimal digits. -/
def fixedDigits : Nat → Scan (List Char)
  | 0 => return []
  | n + 1 => do
    let c ← Scan.satisfy Char.isDigit
    return c :: (← fixedDigits n)

/-- Reads a number of `n` decimal digits between two bounds. -/
def bounded (n least greatest : Nat) : Scan Nat := do
  let value := digitsValue 10 (← fixedDigits n)
  guard (least ≤ value && value ≤ greatest)
  return value

def daysInMonth (year month : Nat) : Nat :=
  if month = 2 then
    if year % 4 = 0 ∧ (year % 100 ≠ 0 ∨ year % 400 = 0) then 29 else 28
  else if month ∈ [4, 6, 9, 11] then 30
  else 31

def date : Scan Date := do
  let year ← bounded 4 0 9999
  Scan.char '-'
  let month ← bounded 2 1 12
  Scan.char '-'
  return ⟨year, month, ← bounded 2 1 (daysInMonth year month)⟩

/-- The nanoseconds of the digits after a second's point. Digits past the ninth are dropped. -/
def nanosecondsOf (ds : List Char) : Nat :=
  let ds := ds.take 9
  digitsValue 10 ds * Nat.pow 10 (9 - ds.length)

def secondFraction : Scan Nat := do
  Scan.char '.'
  let ds ← Scan.takeWhile Char.isDigit
  guard !ds.isEmpty
  return nanosecondsOf ds

/-- Reads a time of day. A minute may have a leap second. -/
def time : Scan Time := do
  let hour ← bounded 2 0 23
  Scan.char ':'
  let minute ← bounded 2 0 59
  Scan.char ':'
  let second ← bounded 2 0 60
  return ⟨hour, minute, second, (← Scan.optional secondFraction).getD 0⟩

def offset : Scan Offset := do
  match ← sign with
  | none =>
    discard (Scan.satisfy fun c => c == 'Z' || c == 'z')
    return .zulu
  | some negative =>
    let hours ← bounded 2 0 23
    Scan.char ':'
    let size : Int := hours * 60 + (← bounded 2 0 59)
    return .minutes (if negative then -size else size)

/-- Reads the time that may follow a date. -/
def timeAfterDate : Scan (Time × Option Offset) := do
  discard (Scan.satisfy fun c => c == 'T' || c == 't' || c == ' ')
  return (← time, ← Scan.optional offset)

def datetime : Scan Datetime :=
  (do
    let d ← date
    match ← Scan.optional timeAfterDate with
    | none => return .date d
    | some (t, o) => return .dateTime d t o) <|>
  (return .time (← time))

def number : Scan Value :=
  (return .datetime (← datetime)) <|> finiteFloat <|> specialFloat <|> integer

end ShapeBindings.Toml
