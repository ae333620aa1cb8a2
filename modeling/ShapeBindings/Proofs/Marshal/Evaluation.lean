import ShapeBindings.Text.Search
import ShapeBindings.Wrapper

/-!
# What a wrapper does when it is called

* `CallerValue` and `NativeValue` are the values on the two sides of a wrapper, over any types of handles and of
  strings;
* `Signature.run` binds the parameters to the values of the caller and evaluates the arguments of the native call, from
  left to right.  A count that does not fit the native `int` stops it with the complaint of its expression;
* `Param.read` and `NativeExpr.read` read the texts of parameters and of native arguments.
-/

namespace ShapeBindings

open Text

/-! ### Values -/

/-- A value that a caller gives. -/
inductive CallerValue (H S : Type) where
  /-- A tree with its handle. -/
  | tree (handle : H)
  /-- A scalar expression with its handle. -/
  | float (handle : H)
  /-- Two scalar expressions. -/
  | vec2 (x y : H)
  /-- Three scalar expressions. -/
  | vec3 (x y z : H)
  /-- An unsigned count. -/
  | count (n : UInt32)
  /-- A string. -/
  | text (s : S)
  deriving DecidableEq

/-- A value that a native function gets. -/
inductive NativeValue (H S : Type) where
  | tree (handle : H)
  | vec2 (x y : H)
  | vec3 (x y z : H)
  /-- A native `int`. -/
  | int (n : Int)
  | string (s : S)
  deriving DecidableEq

/-- Why no native call is made. -/
inductive Trap where
  /-- The wrapper has no meaning. -/
  | stuck
  /-- It stops with a message. -/
  | panic (message : String)
  deriving DecidableEq

variable {H S : Type}

namespace CallerValue

/-- The kind of argument that a value is given for. -/
def kind : CallerValue H S → ArgKind
  | tree _ => .handle
  | float _ => .float
  | vec2 _ _ => .vec2
  | vec3 _ _ _ => .vec3
  | count _ => .uint
  | text _ => .str

/-- The handle within a tree or a scalar expression. -/
def handle? : CallerValue H S → Option H
  | tree h => some h
  | float h => some h
  | _ => none

/-- A component of a vector. -/
def component? : CallerValue H S → String → Option (CallerValue H S)
  | vec2 x y, field => if field = "x" then some (.float x) else if field = "y" then some (.float y) else none
  | vec3 x y z, field =>
    if field = "x" then some (.float x) else if field = "y" then some (.float y)
    else if field = "z" then some (.float z) else none
  | _, _ => none

/-- The same value for a native function. -/
def native : CallerValue H S → NativeValue H S
  | tree h => .tree h
  | float h => .tree h
  | vec2 x y => .vec2 x y
  | vec3 x y z => .vec3 x y z
  | count n => .int n.toNat
  | text s => .string s

/-- Whether a count does not fit the native `int`, which has 32 bits and a sign. -/
def tooLarge : CallerValue H S → Bool
  | count n => 0x80000000 ≤ n.toNat
  | _ => false

end CallerValue

/-! ### Evaluation -/

/-- The names that an expression can use. -/
structure Env (H S : Type) where
  /-- The receiver, if there is one. -/
  self : Option (CallerValue H S)
  /-- The parameters. -/
  locals : List (String × CallerValue H S)

/-- The value at a place. -/
def Place.value? (env : Env H S) : Place → Option (CallerValue H S)
  | self => env.self
  | param name => env.locals.lookup name
  | component base field => (base.value? env).bind (·.component? field)

/-- The handle at a place. -/
def Place.handle? (env : Env H S) (p : Place) : Option H := (p.value? env).bind (·.handle?)

/-- The native value of an expression. -/
def NativeExpr.eval (env : Env H S) : NativeExpr → Except Trap (NativeValue H S)
  | handle p =>
    match p.handle? env with
    | some h => .ok (.tree h)
    | none => .error .stuck
  | vec2 x y =>
    match x.handle? env, y.handle? env with
    | some x, some y => .ok (.vec2 x y)
    | _, _ => .error .stuck
  | vec3 x y z =>
    match x.handle? env, y.handle? env, z.handle? env with
    | some x, some y, some z => .ok (.vec3 x y z)
    | _, _, _ => .error .stuck
  | int p complaint =>
    match p.value? env with
    | some (.count n) => if n.toNat < 0x80000000 then .ok (.int n.toNat) else .error (.panic complaint)
    | _ => .error .stuck
  | pointer p =>
    match p.value? env with
    | some (.text s) => .ok (.string s)
    | _ => .error .stuck

/-- What the parameters of a wrapper stand for.  The underscore takes a value and gives it no name. -/
def Signature.env (s : Signature) (receiver : H) (given : List (CallerValue H S)) : Env H S where
  self := if s.receiver then some (.tree receiver) else none
  locals := ((s.params.map Param.name).zip given).filter (·.1 ≠ "_")

/-- The arguments of the native call that a wrapper makes. -/
def Signature.run (s : Signature) (receiver : H) (given : List (CallerValue H S)) :
    Except Trap (List (NativeValue H S)) :=
  s.calls.mapM (·.eval (s.env receiver given))

/-! ### Texts -/

/-- A character of a name, which may be written as a raw one. -/
def isNameChar (c : Char) : Bool := isIdentifierPart c || c == '#'

/-- The place that a name stands for.  The underscore is none, although it can stand where a parameter is declared. -/
def Place.read (s : List Char) : Option Place :=
  if s = "self".toList then some .self
  else if s ≠ [] ∧ s ≠ ['_'] ∧ s.all isNameChar then some (.param (String.ofList s))
  else none

/-- The place of a component of a parameter, with its handle taken, that a text starts with, and the rest of the
text. -/
def Place.readComponent (field : String) (s : List Char) : Option (Place × List Char) := do
  let (name, rest) ← cutAt ['.'] s
  let rest ← after? (field ++ ".0").toList rest
  let base ← read name
  return (.component base field, rest)

namespace NativeExpr

/-- Reads what follows the opening brace of a vector of two handles. -/
def readVec2 (s : List Char) : Option NativeExpr := do
  let (x, rest) ← Place.readComponent "x" s
  let rest ← after? ", y: ".toList rest
  let (y, rest) ← Place.readComponent "y" rest
  if rest = " \x7d".toList then some (.vec2 x y) else none

/-- Reads what follows the opening brace of a vector of three handles. -/
def readVec3 (s : List Char) : Option NativeExpr := do
  let (x, rest) ← Place.readComponent "x" s
  let rest ← after? ", y: ".toList rest
  let (y, rest) ← Place.readComponent "y" rest
  let rest ← after? ", z: ".toList rest
  let (z, rest) ← Place.readComponent "z" rest
  if rest = " \x7d".toList then some (.vec3 x y z) else none

/-- Reads a name and what is done with its value. -/
def readMember (s : List Char) : Option NativeExpr := do
  let (name, rest) ← cutAt ['.'] s
  let place ← Place.read name
  if rest = ['0'] then some (.handle place)
  else if rest = "as_ptr()".toList then some (.pointer place)
  else
    let rest ← after? "try_into().expect(\"".toList rest
    let (complaint, rest) ← cutAt ['"'] rest
    if rest = [')'] then some (.int place (String.ofList complaint)) else none

/-- The expression that the text of a native argument stands for. -/
def read (s : List Char) : Option NativeExpr :=
  match after? "sys::tvec2 \x7b x: ".toList s, after? "sys::tvec3 \x7b x: ".toList s with
  | some rest, _ => readVec2 rest
  | none, some rest => readVec3 rest
  | none, none => readMember s

end NativeExpr

/-- The parameter that the text of a declaration stands for. -/
def Param.read (s : List Char) : Option Param := do
  let (name, type) ← cutAt [':'] s
  let kind ← ArgKind.all.find? fun (k : ArgKind) => (" " ++ k.paramType).toList = type
  if name = ['_'] then some ⟨"_", kind⟩
  else
    match ← Place.read name with
    | .param name => some ⟨name, kind⟩
    | _ => none

/-- The arguments of the native call of a wrapper that is given by its texts. -/
def runTexts (params calls : List String) (hasReceiver : Bool) (receiver : H) (given : List (CallerValue H S)) :
    Except Trap (List (NativeValue H S)) :=
  match params.mapM (Param.read ·.toList), calls.mapM (NativeExpr.read ·.toList) with
  | some params, some calls => ({ name := "", params, calls, receiver := hasReceiver } : Signature).run receiver given
  | _, _ => .error .stuck

end ShapeBindings
