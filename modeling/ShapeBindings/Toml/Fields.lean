import ShapeBindings.Toml.Value

/-!
# Typed values

How the fields of a record, its lists and its texts are taken from a value. A record is written as a
table, whose other keys do not matter, or as an array with one item per field in a fixed order. A
field may have a second spelling of its key, but only one of the two may be used.
-/

namespace ShapeBindings.Toml

/-- Where the fields of a record stand. -/
inductive Fields where
  /-- Under their keys. -/
  | named (entries : Entries)
  /-- In a fixed order. -/
  | positional (items : List Value)

/-- The key under which the text of a date or a time is offered where entries are wanted. -/
def datetimeKey : String := "$__toml_private_datetime"

namespace Value

def string? : Value → Option String
  | .string s => some s
  | _ => none

def boolean? : Value → Option Bool
  | .boolean b => some b
  | _ => none

def items? : Value → Option (List Value)
  | .array _ items => some items
  | _ => none

/-- The entries of a table. A date or a time counts as a table of its text. -/
def entries? : Value → Option Entries
  | .table _ es => some es
  | .datetime d => some [(datetimeKey, .string d.render)]
  | _ => none

def fields? : Value → Option Fields
  | .array _ items => some (.positional items)
  | v => v.entries?.map .named

/-- Whether a value is an empty table or an empty array. -/
def isEmpty : Value → Bool
  | .array _ items => items.isEmpty
  | .table _ es => es.isEmpty
  | _ => false

end Value

namespace Fields

/-- The value of a field by its position and its spellings, if it is set. -/
def find? (fields : Fields) (position : Nat) (keys : List String) : Option (Option Value) :=
  match fields with
  | positional items => some items[position]?
  | named es =>
    match es.filter (·.1 ∈ keys) with
    | [] => some none
    | [(_, v)] => some (some v)
    | _ => none

/-- The value of a field that may be left out. -/
def optional {α : Type} (fields : Fields) (position : Nat) (keys : List String)
    (read : Value → Option α) : Option (Option α) := do
  match ← fields.find? position keys with
  | none => return none
  | some v => return some (← read v)

/-- The value of a field that has to be there. -/
def required {α : Type} (fields : Fields) (position : Nat) (keys : List String)
    (read : Value → Option α) : Option α := do
  (← fields.find? position keys).bind read

end Fields

end ShapeBindings.Toml
