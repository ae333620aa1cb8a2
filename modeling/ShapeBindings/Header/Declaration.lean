import ShapeBindings.Descriptor
import ShapeBindings.Identifier
import ShapeBindings.Text.Search

/-!
# Declarations in a header

`declaration` reads the text between a declaration's marker and its semicolon: a function name and,
in parentheses, parameters with a type and a name each. `HeaderFault` lists what can be wrong in a
header.
-/

namespace ShapeBindings.Header

open Text

def sectionMarker : String := "LIBFIVE_SECTION"

def declarationMarker : String := "LIBFIVE_STDLIB"

inductive HeaderFault where
  /-- A section marker is not followed by a name in parentheses. -/
  | malformedSection
  | sectionName (name : String)
  | outsideSection
  /-- A declaration is followed by something else on its last line. -/
  | trailingText (text : String)
  | unterminated
  | missingOpen
  | missingClose
  | functionName (name : String)
  | linkageName (name : String)
  /-- A parameter lacks its type or its name. -/
  | parameter (text : String)
  deriving DecidableEq

def HeaderFault.detail : HeaderFault → String
  | malformedSection => s!"malformed {sectionMarker} marker"
  | sectionName name => s!"invalid section name '{name}'"
  | outsideSection => s!"declaration outside any {sectionMarker}"
  | trailingText text => s!"unexpected text after ';': '{text}'"
  | unterminated => "unterminated declaration (missing ';')"
  | missingOpen => "missing '('"
  | missingClose => "missing ')'"
  | functionName name => s!"invalid function name '{name}'"
  | linkageName name => s!"invalid linkage name '{name}'"
  | parameter text => s!"parameter '{text}' needs a type and a name"

/-- A fault and the line that it is blamed on. -/
structure HeaderError where
  line : Nat
  fault : HeaderFault
  deriving DecidableEq

def HeaderError.message (e : HeaderError) : String :=
  s!"invalid header (line {e.line}): {e.fault.detail}"

/-- The words of a text, every star being a word of its own. -/
def tokens : List Char → List (List Char)
  | [] => []
  | c :: s =>
    if isBlank c then tokens s
    else if c = '*' then ['*'] :: tokens s
    else
      match s with
      | [] => [[c]]
      | d :: _ =>
        if isBlank d || d = '*' then [c] :: tokens s
        else
          match tokens s with
          | [] => [[c]]
          | w :: ws => (c :: w) :: ws

/-- The type and the name of one parameter. The name is the last token. -/
def parameter (text : List Char) : Except HeaderFault (String × String) :=
  let words := (tokens text).map String.ofList
  match words.getLast? with
  | some name =>
    if words.dropLast.isEmpty || !isIdentifier name then
      .error (.parameter (String.ofList (trim text)))
    else .ok (" ".intercalate words.dropLast, name)
  | none => .error (.parameter (String.ofList (trim text)))

/-- The parameters between the parentheses of a declaration. -/
def parameters (text : List Char) : Except HeaderFault (List (String × String)) :=
  let text := trim text
  if text.isEmpty || text = "void".toList then .ok []
  else (text.splitOn ',').mapM parameter

/-- The descriptor that the text of a declaration states in a module. The symbol of a function is
its name after `symbolPrefix`. -/
def declaration (symbolPrefix moduleName doc : String) (text : List Char) :
    Except HeaderFault Descriptor := do
  let body := trim text
  match cutAt ['('] body with
  | none => throw .missingOpen
  | some (before, after) =>
    if body.getLast? ≠ some ')' then throw .missingClose
    let name := String.ofList (trim before)
    if !isIdentifier name then throw (.functionName name)
    let rawName := symbolPrefix ++ name
    if !isIdentifier rawName then throw (.linkageName rawName)
    let params ← parameters after.dropLast
    let d := params.foldl (fun d (type, name) => d.arg name type)
      ({ publicName := name, rawName, moduleName } : Descriptor)
    return d.withDoc doc

end ShapeBindings.Header
