import ShapeBindings.Calendar

/-!
# TOML values

A document is a table of values. A table remembers how it was written, since that decides whether a
later part of the document may add to it.
-/

namespace ShapeBindings.Toml

structure Date where
  year : Nat
  month : Nat
  day : Nat
  deriving DecidableEq

/-- A time of day. The fraction of a second is in nanoseconds. -/
structure Time where
  hour : Nat
  minute : Nat
  second : Nat
  nanosecond : Nat
  deriving DecidableEq

/-- The distance of a time from universal time. -/
inductive Offset where
  /-- None, written as `Z`. -/
  | zulu
  /-- A number of minutes. -/
  | minutes (n : Int)
  deriving DecidableEq

inductive Datetime where
  | date (d : Date)
  | time (t : Time)
  | dateTime (d : Date) (t : Time) (offset : Option Offset)
  deriving DecidableEq

open CivilTime (padded)

def Date.render (d : Date) : String := s!"{padded 4 d.year}-{padded 2 d.month}-{padded 2 d.day}"

/-- The text of a time. Zeros at the end of the fraction are left out. -/
def Time.render (t : Time) : String :=
  s!"{padded 2 t.hour}:{padded 2 t.minute}:{padded 2 t.second}" ++
    if t.nanosecond = 0 then ""
    else "." ++ String.ofList
      ((padded 9 t.nanosecond).toList.reverse.dropWhile (· == '0')).reverse

def Offset.render : Offset → String
  | zulu => "Z"
  | minutes n =>
    let size := n.natAbs
    (if n < 0 then "-" else "+") ++ s!"{padded 2 (size / 60)}:{padded 2 (size % 60)}"

def Datetime.render : Datetime → String
  | date d => d.render
  | time t => t.render
  | dateTime d t offset => s!"{d.render}T{t.render}" ++ (offset.map Offset.render).getD ""

/-- How a table was written. -/
inductive TableForm where
  /-- Between braces. -/
  | inline
  /-- Under a header of its own, or as the document. -/
  | stated
  /-- Only as a part of longer headers. -/
  | implied
  /-- Only as a part of dotted keys. -/
  | dotted
  deriving DecidableEq

/-- How an array was written. -/
inductive ArrayForm where
  /-- Between brackets. -/
  | inline
  /-- As tables under repeated headers. -/
  | tables
  deriving DecidableEq

inductive Value where
  | string (s : String)
  | integer (i : Int)
  /-- A number with a fraction or an exponent, or one that is none, by its spelling. -/
  | float (literal : String)
  | boolean (b : Bool)
  | datetime (d : Datetime)
  | array (form : ArrayForm) (items : List Value)
  | table (form : TableForm) (entries : List (String × Value))

/-- The keys of a table with their values. -/
abbrev Entries := List (String × Value)

end ShapeBindings.Toml
