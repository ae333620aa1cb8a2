import ShapeBindings.Toml.Number
import ShapeBindings.Toml.Quoted
import ShapeBindings.Toml.Tables

/-!
# Documents

`parse?` reads a TOML document. A line sets a key or is a header; values are scalars, arrays or
tables between braces, and nest at most `maxDepth` deep.
-/

namespace ShapeBindings.Toml

/-- The greatest depth of nested values, and the greatest number of parts of a key. -/
def maxDepth : Nat := 79

/-- A character of a key without quotes. -/
def isBareKeyChar (c : Char) : Bool := c.isAlphanum || c == '_' || c == '-'

def keyPart : Scan String := do
  match ← Scan.peek with
  | some '"' => lineString
  | some '\'' => lineString
  | _ =>
    let cs ← Scan.takeWhile isBareKeyChar
    guard !cs.isEmpty
    return String.ofList cs

def keyParts : Nat → Scan (List String)
  | 0 => failure
  | n + 1 => do
    blanks
    let part ← keyPart
    blanks
    if (← Scan.peek) = some '.' then
      Scan.char '.'
      return part :: (← keyParts n)
    return [part]

/-- Reads a key and splits off its last part. -/
def key : Scan (List String × String) := do
  let parts ← keyParts maxDepth
  match parts.getLast? with
  | some last => return (parts.dropLast, last)
  | none => failure

/-- Reads a key and its value, which `value` reads. -/
def keyValue (value : Scan Value) : Scan KeyValue := do
  let (path, last) ← key
  Scan.char '='
  blanks
  return ⟨path, last, ← value⟩

/-- Reads the items of an array and its closing bracket. There are fewer than `n` items. -/
def arrayItems (value : Scan Value) : Nat → Scan (List Value)
  | 0 => failure
  | n + 1 => do
    gap
    if (← Scan.peek) = some ']' then
      Scan.char ']'
      return []
    let item ← value
    gap
    if (← Scan.peek) = some ',' then
      Scan.char ','
      return item :: (← arrayItems value n)
    Scan.char ']'
    return [item]

/-- Reads the keys of a table between braces and the closing brace. There are fewer than `n`. -/
def inlineKeyValues (value : Scan Value) : Nat → Scan (List KeyValue)
  | 0 => failure
  | n + 1 => do
    let kv ← keyValue value
    blanks
    if (← Scan.peek) = some ',' then
      Scan.char ','
      return kv :: (← inlineKeyValues value n)
    Scan.char (Char.ofNat 0x7D)
    return [kv]

def remaining : Scan Nat := fun s => some (s.length, s)

def array (value : Scan Value) : Scan Value := do
  Scan.char '['
  return .array .inline (← arrayItems value (← remaining))

def inlineTable (value : Scan Value) : Scan Value := do
  Scan.char (Char.ofNat 0x7B)
  blanks
  if (← Scan.peek) = some (Char.ofNat 0x7D) then
    Scan.char (Char.ofNat 0x7D)
    return .table .inline []
  let kvs ← inlineKeyValues value (← remaining)
  match setKeys .inline [] kvs with
  | some es => return .table .inline es
  | none => failure

def scalar : Scan Value :=
  (return .string (← quotedString)) <|>
  (do Scan.text "true"; return .boolean true) <|>
  (do Scan.text "false"; return .boolean false) <|>
  number

/-- Reads a value that is nested at most `n` deep. -/
def value : Nat → Scan Value
  | 0 => scalar
  | n + 1 => array (value n) <|> inlineTable (value n) <|> scalar

inductive Line where
  | keyValue (kv : KeyValue)
  | header (isElement : Bool) (path : List String) (key : String)

/-- Reads a header after its first bracket. -/
def header : Scan Line := do
  let isElement := (← Scan.peek) = some '['
  if isElement then Scan.char '['
  let (path, last) ← key
  Scan.char ']'
  if isElement then Scan.char ']'
  return .header isElement path last

/-- Reads a line that is neither empty nor only a comment. -/
def line : Scan Line := do
  if (← Scan.peek) = some '[' then
    Scan.char '['
    header
  else
    return .keyValue (← keyValue (value maxDepth))

/-- Reads the lines of a document; there are fewer than `n`. -/
def lines : Nat → Scan (List Line)
  | 0 => failure
  | n + 1 => do
    blanks
    match ← Scan.peek with
    | none => return []
    | some c =>
      if c = '#' || c = '\n' || c = '\r' then
        lineEnd
        lines n
      else
        let l ← line
        lineEnd
        return l :: (← lines n)

/-- The keys before the first header, and the sections. -/
def sections : List Line → List KeyValue × List Section
  | [] => ([], [])
  | .keyValue kv :: ls =>
    let (kvs, rest) := sections ls
    (kv :: kvs, rest)
  | .header isElement path key :: ls =>
    let (kvs, rest) := sections ls
    ([], ⟨isElement, path, key, kvs⟩ :: rest)

/-- The text without a byte order mark at its start. -/
def dropMark : List Char → List Char
  | c :: s => if c = Char.ofNat 0xFEFF then s else c :: s
  | [] => []

/-- What is said of a text that is no document, or not one of the kind that is wanted. -/
def errorMessage : String := "TOML parse error"

def parse? (text : String) : Option Entries := do
  let s := dropMark text.toList
  let (ls, _) ← lines (s.length + 1) s
  let (kvs, rest) := sections ls
  documentOf kvs rest

end ShapeBindings.Toml
