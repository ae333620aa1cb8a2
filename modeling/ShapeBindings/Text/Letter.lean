import ShapeBindings.Text.LetterTable

/-!
# Letters and title case

`titleCase` writes a name as a heading: each run of letters starts with an upper case letter and
goes on in lower case. Letters and their cases are those of Unicode, so one letter may become
several.
-/

namespace ShapeBindings.Text

def isLetter (c : Char) : Bool :=
  letterRanges.any fun (first, last) => first ≤ c.toNat && c.toNat ≤ last

/-- Whether a run holds the code point `n`. -/
def CaseRun.contains (r : CaseRun) (n : Nat) : Bool :=
  r.first ≤ n && n ≤ r.last && (n - r.first) % r.step == 0

/-- The single character that the first fitting run maps `c` to, or `c` itself. -/
def mapCase (runs : List CaseRun) (c : Char) : Char :=
  match runs.find? (·.contains c.toNat) with
  | some r => Char.ofNat (c.toNat + r.offset).toNat
  | none => c

/-- The lower case of a character. Only the dotted capital I needs two characters. -/
def lower (c : Char) : List Char :=
  if c.toNat = 0x130 then ['i', Char.ofNat 0x307] else [mapCase lowerRuns c]

def upper (c : Char) : List Char :=
  match upperExpansions.lookup c.toNat with
  | some codes => codes.map Char.ofNat
  | none => [mapCase upperRuns c]

/-- Capitalises the first letter of every run of letters and lowers the others; `inRun` says whether
the text before ends with a letter. -/
def titleFrom (inRun : Bool) : List Char → List Char
  | [] => []
  | c :: s =>
    if isLetter c then (if inRun then lower c else upper c) ++ titleFrom true s
    else c :: titleFrom false s

def titleCase (name : String) : String := String.ofList (titleFrom false name.toList)

end ShapeBindings.Text
