import ShapeBindings.Text.Blank
import ShapeBindings.Text.Lines
import ShapeBindings.Text.Search

/-!
# Comments and lines of a header

A header is read in lines. Block comments are blanked out beforehand, in the whole text and without
looking at line comments, and keep their line breaks, so that lines keep their numbers. What stands
after two slashes in a line is then that line's remark.
-/

namespace ShapeBindings.Header

open Text

/-- Replaces what block comments hold by blanks, except for line feeds, and removes their
delimiters. The flag says whether a comment is open; one that is never closed runs to the end. -/
def blankComments : Bool → List Char → List Char
  | false, '/' :: '*' :: s => blankComments true s
  | true, '*' :: '/' :: s => blankComments false s
  | false, c :: s => c :: blankComments false s
  | true, c :: s => (if c = '\n' then '\n' else ' ') :: blankComments true s
  | _, [] => []

structure Line where
  number : Nat
  /-- What stands before two slashes. -/
  code : List Char
  /-- What stands after them, trimmed, if that is not empty. -/
  remark : Option (List Char)
  deriving DecidableEq

/-- The line of a number with some text. -/
def Line.ofText (number : Nat) (text : List Char) : Line :=
  match cutAt ['/', '/'] text with
  | none => ⟨number, text, none⟩
  | some (code, after) =>
    let remark := trim after
    ⟨number, code, if remark.isEmpty then none else some remark⟩

def linesOf (text : List Char) : List Line :=
  (lines (blankComments false text)).zipIdx.map fun (line, i) => .ofText (i + 1) line

end ShapeBindings.Header
