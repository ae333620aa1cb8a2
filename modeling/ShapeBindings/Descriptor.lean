import ShapeBindings.NativeType

/-!
# Descriptors

A descriptor is the shape of one native function. The builder operations `arg` and `withDoc` give
arguments their positions, types their normal spelling and documentation its trimmed text.
-/

namespace ShapeBindings

open Text

structure Argument where
  name : String
  declaredType : String
  /-- The position among the function's arguments. -/
  index : Nat
  deriving DecidableEq

def Argument.kind (a : Argument) : Option ArgKind := ArgKind.classify a.declaredType

/-- One native function. -/
structure Descriptor where
  /-- The name in the library, before any renaming. -/
  publicName : String
  /-- The symbol that the linker knows. -/
  rawName : String
  /-- The module that the function belongs to. -/
  moduleName : String
  args : List Argument := []
  doc : Option String := none
  deriving DecidableEq

namespace Descriptor

/-- Adds an argument at the next position. -/
def arg (d : Descriptor) (name declaredType : String) : Descriptor :=
  { d with args := d.args ++ [⟨name, normalizeType declaredType, d.args.length⟩] }

/-- Sets the documentation to the trimmed text, or to none if that is empty. -/
def withDoc (d : Descriptor) (doc : String) : Descriptor :=
  let text := trim doc.toList
  { d with doc := if text.isEmpty then none else some (String.ofList text) }

def arity (d : Descriptor) : Nat := d.args.length

end Descriptor

end ShapeBindings
