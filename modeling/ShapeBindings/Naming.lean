import ShapeBindings.Dictionary
import ShapeBindings.Identifier
import ShapeBindings.WrapperError

/-!
# Names in the generated code

A naming policy renames functions by exact match. Whatever name remains is escaped if it is a
keyword of the generated language, so that it can be written as the name of a function or of a
parameter.
-/

namespace ShapeBindings

def keywords : List String :=
  ["as", "break", "const", "continue", "crate", "else", "enum", "extern", "false", "fn", "for",
   "if", "impl", "in", "let", "loop", "match", "mod", "move", "mut", "pub", "ref", "return",
   "self", "Self", "static", "struct", "super", "trait", "true", "type", "unsafe", "use",
   "where", "while", "async", "await", "dyn", "abstract", "become", "box", "do", "final",
   "macro", "override", "priv", "typeof", "unsized", "virtual", "yield", "try"]

/-- The keywords that have no raw form. -/
def pathKeywords : List String := ["crate", "self", "Self", "super"]

/-- A name that is no keyword: a keyword gets its raw form, or an underscore if it has none. -/
def escapeKeyword (name : String) : String :=
  if name ∈ pathKeywords then name ++ "_"
  else if name ∈ keywords then "r#" ++ name
  else name

/-- The renames of a project. -/
structure NamingPolicy where
  renames : Dictionary String
  deriving DecidableEq

namespace NamingPolicy

def empty : NamingPolicy := ⟨{}⟩

/-- The policy of a project that states none. -/
def standard : NamingPolicy := ⟨Dictionary.ofList [("move", "moveit")]⟩

/-- Adds or replaces a rename. -/
def rename (p : NamingPolicy) (source target : String) : NamingPolicy :=
  ⟨p.renames.insert source target⟩

/-- The first rename, in the order of the old names, whose new name is no identifier. -/
def validate (p : NamingPolicy) : Except WrapperError Unit :=
  match p.renames.entries.find? fun (_, target) => !isIdentifier target with
  | some (source, target) => .error (.invalidRename source target)
  | none => .ok ()

/-- The name of a function's wrapper. -/
def functionName (p : NamingPolicy) (publicName : String) : String :=
  escapeKeyword ((p.renames.get? publicName).getD publicName)

end NamingPolicy

end ShapeBindings
