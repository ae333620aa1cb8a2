import ShapeBindings.Text.Blank

/-!
# Argument types of native functions

A declared type is kept as text in one normal spelling (`normalizeType`), and `ArgKind` is the
closed set of types whose values can be handed over.
-/

namespace ShapeBindings

open Text

/-- Words with one blank between them, except that nothing stands before a word that starts with
a star, so that a pointer type has one spelling. -/
def joinTypeWords : List (List Char) → List Char
  | [] => []
  | w :: ws => w ++ ws.flatMap fun v => if v.head? = some '*' then v else ' ' :: v

/-- The normal spelling of a type: blanks collapsed, stars glued to what they follow. -/
def normalizeType (type : String) : String :=
  String.ofList (joinTypeWords (words type.toList))

/-- The kinds of argument that can be handed to native code. -/
inductive ArgKind where
  /-- The handle of a tree. -/
  | handle
  /-- A scalar expression. -/
  | float
  | vec2
  | vec3
  /-- A native `int`, given as an unsigned count. -/
  | uint
  /-- A borrowed string that ends with a NUL. -/
  | str
  deriving DecidableEq

namespace ArgKind

def all : List ArgKind := [handle, float, vec2, vec3, uint, str]

def typeName : ArgKind → String
  | handle => "libfive_tree"
  | float => "tfloat"
  | vec2 => "tvec2"
  | vec3 => "tvec3"
  | uint => "int"
  | str => "const char*"

/-- The kind of a declared type, if it is one of the supported ones. -/
def classify (type : String) : Option ArgKind :=
  all.find? fun k => k.typeName == normalizeType type

end ArgKind

end ShapeBindings
