import ShapeBindings.Descriptor

/-!
# Descriptor tables

A table groups descriptors by module. Modules stand in the order in which they are first
mentioned, the functions of a module in the order in which they are added.
-/

namespace ShapeBindings

/-- A named group of functions. -/
structure Module where
  name : String
  /-- The functions in the order of their source. -/
  functions : List Descriptor := []
  deriving DecidableEq

/-- The descriptors of a library, grouped by module. -/
structure Table where
  /-- The modules in the order of their first mention. -/
  modules : List Module := []
  deriving DecidableEq

namespace Module

def size (m : Module) : Nat := m.functions.length

/-- Adds a descriptor to the first module of its name, or to a new one at the end. -/
def insert (d : Descriptor) : List Module → List Module
  | [] => [⟨d.moduleName, [d]⟩]
  | m :: ms =>
    if m.name = d.moduleName then ⟨m.name, m.functions ++ [d]⟩ :: ms else m :: insert d ms

end Module

namespace Table

def module? (t : Table) (name : String) : Option Module := t.modules.find? (·.name == name)

def push (t : Table) (d : Descriptor) : Table := ⟨Module.insert d t.modules⟩

/-- Gives a module its place even if it never gets a function. -/
def ensure (t : Table) (name : String) : Table :=
  if (t.module? name).isSome then t else ⟨t.modules ++ [⟨name, []⟩]⟩

def ofList (ds : List Descriptor) : Table := ds.foldl push {}

def functionCount (t : Table) : Nat := t.modules.foldr (fun m n => m.size + n) 0

/-- Whether no module has a function. -/
def isEmpty (t : Table) : Bool := t.functionCount == 0

end Table

end ShapeBindings
