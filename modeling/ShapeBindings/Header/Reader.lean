import ShapeBindings.Header.Comment
import ShapeBindings.Header.Declaration
import ShapeBindings.Log
import ShapeBindings.Table

/-!
# Reading headers

A header states native functions in sections. `Reader.readLine` carries what is known from one line
to the next: the table so far, the section, and a declaration that has not ended. `parse` reads a
whole header.
-/

namespace ShapeBindings.Header

open Text

structure OpenDeclaration where
  line : Nat
  /-- Its text so far, each piece after a blank. -/
  text : List Char := []
  /-- The remarks within it, one per line. -/
  remarks : List (List Char) := []
  deriving DecidableEq

/-- Adds the piece of a declaration that stands on a line, and the line's remark. -/
def OpenDeclaration.extend (d : OpenDeclaration) (piece : List Char)
    (remark : Option (List Char)) : OpenDeclaration :=
  { d with text := d.text ++ ' ' :: piece, remarks := d.remarks ++ remark.toList }

def OpenDeclaration.doc (d : OpenDeclaration) : String :=
  String.ofList (['\n'].intercalate d.remarks)

/-- What is known between two lines. -/
structure Reader where
  /-- The table of the declarations that have ended. -/
  table : Table := {}
  /-- The current section and the line that opens it. -/
  current : Option (String × Nat) := none
  pending : Option OpenDeclaration := none
  deriving DecidableEq

namespace Reader

/-- Opens the section that the text after a section marker names. -/
def openSection (r : Reader) (line : Nat) (text : List Char) : Except HeaderError Reader := do
  let inner := (after? ['('] (trim text)).bind (cutAt [')'])
  match inner with
  | none => throw ⟨line, .malformedSection⟩
  | some (inner, _) =>
    let name := String.ofList (trim inner)
    if !isIdentifier name then throw ⟨line, .sectionName name⟩
    return { r with table := r.table.ensure name, current := some (name, line) }

/-- Adds the function of a declaration that has ended. -/
def close (r : Reader) (symbolPrefix : String) (d : OpenDeclaration) :
    Except HeaderError Reader :=
  match r.current with
  | none => .error ⟨d.line, .outsideSection⟩
  | some (moduleName, _) =>
    match declaration symbolPrefix moduleName d.doc d.text with
    | .ok descriptor => .ok { r with table := r.table.push descriptor, pending := none }
    | .error fault => .error ⟨d.line, fault⟩

/-- Whether a trimmed text opens a declaration: its marker stands there and a blank after it. -/
def opensDeclaration (code : List Char) : Bool :=
  match after? declarationMarker.toList code with
  | some (c :: _) => isBlank c
  | _ => false

/-- The part of a line that continues a declaration. -/
structure Continuation where
  declaration : OpenDeclaration
  /-- The text up to the next semicolon. -/
  piece : List Char
  /-- Whether the blanks at the end of the line do not count. -/
  trimmed : Bool

/-- The declaration that `piece` belongs to: the one that has not ended, or one that opens here.
`code` is the trimmed rest of the line. -/
def continuation (r : Reader) (line : Nat) (trimmed : Bool) (piece code : List Char) :
    Option Continuation :=
  match r.pending with
  | some d => some ⟨d, piece, trimmed⟩
  | none =>
    if opensDeclaration code then
      some ⟨{ line }, (trimStart piece).drop declarationMarker.length, true⟩
    else none

/-- Reads the rest of a line, cut at its semicolons. The line's remark goes to the first declaration
that the line has a part of. `ended` says whether a declaration has ended on the line, and `trimmed`
whether one has opened on it. A section marker takes up the rest of its line; so does a text that is
neither, which is an error after the end of a declaration. -/
def readPieces (symbolPrefix : String) (line : Nat) :
    List (List Char) → Reader → Option (List Char) → (ended trimmed : Bool) →
      Except HeaderError Reader
  | [], r, _, _, _ => .ok r
  | piece :: later, r, remark, ended, trimmed => do
    let code := trim ([';'].intercalate (piece :: later))
    match r.continuation line trimmed piece code with
    | some c =>
      if later.isEmpty then
        let piece := if c.trimmed then trimEnd c.piece else c.piece
        return { r with pending := some (c.declaration.extend piece remark) }
      else
        let r ← r.close symbolPrefix (c.declaration.extend c.piece remark)
        readPieces symbolPrefix line later r none true c.trimmed
    | none =>
      match after? sectionMarker.toList code with
      | some text => r.openSection line text
      | none =>
        if ended && !code.isEmpty then throw ⟨line, .trailingText (String.ofList code)⟩
        return r

def readLine (symbolPrefix : String) (r : Reader) (line : Line) : Except HeaderError Reader :=
  readPieces symbolPrefix line.number (line.code.splitOn ';') r line.remark false false

/-- The table after the last line. -/
def finish (r : Reader) : Except HeaderError Table :=
  match r.pending with
  | some d => .error ⟨d.line, .unterminated⟩
  | none => .ok r.table

/-- What is reported while lines are read: each section, with its line. -/
def records (symbolPrefix : String) (r : Reader) : List Line → List LogRecord
  | [] => []
  | line :: ls =>
    match r.readLine symbolPrefix line with
    | .error _ => []
    | .ok next =>
      let opened := (next.current.filter fun (_, n) => n == line.number).toList.map
        fun (name, n) => ⟨.debug, .header, s!"header section '{name}' at line {n}"⟩
      opened ++ next.records symbolPrefix ls

end Reader

def parse (symbolPrefix text : String) : Except HeaderError Table := do
  let r ← (linesOf text.toList).foldlM (Reader.readLine symbolPrefix) {}
  r.finish

/-- What is reported while a header is read. -/
def records (symbolPrefix text : String) : List LogRecord :=
  Reader.records symbolPrefix {} (linesOf text.toList)

/-- The part of a symbol before the function's name, unless something else is configured. -/
def standardSymbolPrefix : String := "libfivestd_"

end ShapeBindings.Header
