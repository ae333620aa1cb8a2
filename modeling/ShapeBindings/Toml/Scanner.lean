import ShapeBindings.Text.Search

/-!
# Scanning

A scanner reads something off the front of a text and leaves the rest, or refuses. Since nothing is
read that is not asked for, a text belongs to a scanner's language if no rest is left.
-/

namespace ShapeBindings.Toml

/-- Reads an `α` off the front of a text. -/
abbrev Scan (α : Type) := StateT (List Char) Option α

namespace Scan

def char (c : Char) : Scan Unit := fun s =>
  match s with
  | d :: rest => if d = c then some ((), rest) else none
  | [] => none

def text (t : String) : Scan Unit := fun s => (Text.after? t.toList s).map ((), ·)

/-- Reads the longest start of a text whose characters fit. -/
def takeWhile (p : Char → Bool) : Scan (List Char) := fun s => some (s.takeWhile p, s.dropWhile p)

def peek : Scan (Option Char) := fun s => some (s.head?, s)

def satisfy (p : Char → Bool) : Scan Char := fun s =>
  match s with
  | c :: rest => if p c then some (c, rest) else none
  | [] => none

/-- Reads with `scan`, or reads nothing if it refuses. -/
def optional {α : Type} (scan : Scan α) : Scan (Option α) := fun s =>
  match scan s with
  | some (a, rest) => some (some a, rest)
  | none => some (none, s)

end Scan

/-- The characters that separate parts within a line. -/
def isBlank (c : Char) : Bool := c == ' ' || c == '\t'

/-- A character that may stand in a comment: no control character but the tab. -/
def isPrintable (c : Char) : Bool := c == '\t' || (0x20 ≤ c.toNat && c.toNat != 0x7F)

def blanks : Scan Unit := do discard (Scan.takeWhile isBlank)

def newline : Scan Unit := fun s =>
  match s with
  | '\n' :: rest => some ((), rest)
  | '\r' :: '\n' :: rest => some ((), rest)
  | _ => none

def comment : Scan Unit := do
  if (← Scan.peek) = some '#' then discard (Scan.takeWhile isPrintable)

/-- Reads the end of a line, before which blanks and a comment may stand, or the end of the text. -/
def lineEnd : Scan Unit := do
  blanks
  comment
  if (← Scan.peek).isSome then newline

/-- Skips blanks, line endings and comments; the flag says whether a comment is open. -/
def skipGap : Bool → List Char → Option (List Char)
  | _, '\n' :: s => skipGap false s
  | _, '\r' :: '\n' :: s => skipGap false s
  | true, c :: s => if isPrintable c then skipGap true s else none
  | true, [] => none
  | false, ' ' :: s => skipGap false s
  | false, '\t' :: s => skipGap false s
  | false, '#' :: s => skipGap true s
  | false, s => some s

/-- Skips what may stand between the items of an array. -/
def gap : Scan Unit := fun s => (skipGap false s).map ((), ·)

end ShapeBindings.Toml
