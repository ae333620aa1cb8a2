import ShapeBindings.Convention
import ShapeBindings.Descriptor
import ShapeBindings.Naming
import ShapeBindings.WrapperError

/-!
# Marshalling

Each kind of argument has a parameter of the wrapper, which says what the caller gives, and an
expression over the parameters, which rebuilds the value that the native function expects.
`marshal` is the only place where the two are chosen.
-/

namespace ShapeBindings

def treeType : String := "Tree"

namespace ArgKind

/-- The wrapper type of a kind, for the kinds that have one. -/
def wrapperType? : ArgKind → Option String
  | handle => some treeType
  | float => some "TreeFloat"
  | vec2 => some "TreeVec2"
  | vec3 => some "TreeVec3"
  | uint => none
  | str => none

/-- The type that a parameter of a kind is declared with. -/
def paramType (k : ArgKind) : String :=
  match k with
  | uint => "u32"
  | str => "&std::ffi::CStr"
  | _ => k.wrapperType?.getD ""

end ArgKind

structure Param where
  /-- The name that the wrapper's body uses. -/
  name : String
  /-- What the caller gives. -/
  kind : ArgKind
  deriving DecidableEq

def Param.render (p : Param) : String := s!"{p.name}: {p.kind.paramType}"

/-- A value within a wrapper's body. -/
inductive Place where
  | self
  /-- The value of a parameter. -/
  | param (name : String)
  | component (base : Place) (field : String)
  deriving DecidableEq

def Place.render : Place → String
  | self => "self"
  | param name => name
  | component base field => s!"{base.render}.{field}"

/-- An expression for one argument of a native call. -/
inductive NativeExpr where
  /-- The handle within a tree or a scalar. -/
  | handle (place : Place)
  | vec2 (x y : Place)
  | vec3 (x y z : Place)
  /-- A count as a native `int`; one that does not fit stops the program with a complaint. -/
  | int (place : Place) (complaint : String)
  | pointer (place : Place)
  deriving DecidableEq

def NativeExpr.render : NativeExpr → String
  | handle p => s!"{p.render}.0"
  | vec2 x y => s!"sys::tvec2 \x7b x: {x.render}.0, y: {y.render}.0 \x7d"
  | vec3 x y z =>
    s!"sys::tvec3 \x7b x: {x.render}.0, y: {y.render}.0, z: {z.render}.0 \x7d"
  | int p complaint => s!"{p.render}.try_into().expect(\"{complaint}\")"
  | pointer p => s!"{p.render}.as_ptr()"

/-- One argument on both sides of a wrapper. -/
structure Marshalled where
  /-- What the caller gives; nothing if the argument is the receiver. -/
  param : Option Param
  /-- What the native function gets. -/
  call : NativeExpr
  deriving DecidableEq

/-- The kind of an argument of `function`. -/
def Argument.kindFor (a : Argument) (function : String) : Except WrapperError ArgKind :=
  match a.kind with
  | some k => .ok k
  | none => .error (.unsupportedType function a.name a.declaredType)

/-- The native expression for a parameter. -/
def ArgKind.expression (k : ArgKind) (param : String) (complaint : String) : NativeExpr :=
  let value := Place.param param
  match k with
  | handle => .handle value
  | float => .handle value
  | vec2 => .vec2 (.component value "x") (.component value "y")
  | vec3 => .vec3 (.component value "x") (.component value "y") (.component value "z")
  | uint => .int value complaint
  | str => .pointer value

/-- The complaint about a count that is too large for the native `int`. -/
def countComplaint (function argument : String) : String :=
  s!"{function}: `{argument}` does not fit the native int"

/-- How an argument of `function` is handed over. A handle in the first position is the receiver,
if the convention has one. -/
def Argument.marshal (a : Argument) (convention : Convention) (function : String) :
    Except WrapperError Marshalled := do
  let kind ← a.kindFor function
  if kind = .handle ∧ convention.usesReceiver ∧ a.index = 0 then
    return ⟨none, .handle .self⟩
  let param := escapeKeyword a.name
  return ⟨some ⟨param, kind⟩, kind.expression param (countComplaint function a.name)⟩

end ShapeBindings
