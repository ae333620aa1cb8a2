import ShapeBindings.Marshal
import ShapeBindings.Text.Utf8

/-!
# Recording native calls

A stand-in for the native library: every call that reaches it is put on record with the values that
it got, and returns a fresh handle. `WrapperCall` lists the wrappers of the bundled header,
`Record.run` makes a call. A call whose arguments cannot be handed over reaches nothing.
-/

namespace ShapeBindings

/-- The handle of a tree or of a scalar expression. -/
abbrev Handle := UInt64

structure Vec2 where
  x : Handle
  y : Handle
  deriving DecidableEq

structure Vec3 where
  x : Handle
  y : Handle
  z : Handle
  deriving DecidableEq

/-- An argument as the native library gets it. -/
inductive NativeArg where
  | tree (h : Handle)
  | vec2 (v : Vec2)
  | vec3 (v : Vec3)
  | int (i : Int)
  | str (s : String)
  deriving DecidableEq

/-- A call of a wrapper with the values that the caller gives. -/
inductive WrapperCall where
  | circle (r : Handle) (center : Vec2)
  | sphere (radius : Handle) (center : Vec3)
  | polygon (r : Handle) (n : UInt32) (center : Vec2)
  | emptiness
  | union (a b : Handle)
  | inverse (a : Handle)
  | blend (a b m : Handle)
  | moveit (t : Handle) (offset : Vec3)
  | scaleX (t sx x0 : Handle)
  | arrayX (shape : Handle) (nx : UInt32) (dx : Handle)
  | extrudeZ (t zmin zmax : Handle)
  | text (txt : List UInt8) (pos : Vec2)
  deriving DecidableEq

/-- Why a call does not reach the native library. -/
inductive CallFailure where
  /-- A count is too large for a native `int`. -/
  | countTooLarge (function argument : String)
  /-- A text holds a NUL, the first one at some position. -/
  | interiorNul (position : Nat)
  deriving DecidableEq

/-- The greatest native `int`. -/
def maxNativeInt : Nat := 2147483647

/-- A count as a native `int`. -/
def nativeInt (function argument : String) (n : UInt32) : Except CallFailure NativeArg :=
  if n.toNat ≤ maxNativeInt then .ok (.int n.toNat) else .error (.countTooLarge function argument)

/-- Octets as a native string, decoded as the native library shows it. -/
def nativeString (bytes : List UInt8) : Except CallFailure NativeArg :=
  match bytes.findIdx? (· == 0) with
  | some position => .error (.interiorNul position)
  | none => .ok (.str (String.ofList (Text.decodeLossy bytes)))

namespace WrapperCall

def symbol : WrapperCall → String
  | circle .. => "libfivestd_circle"
  | sphere .. => "libfivestd_sphere"
  | polygon .. => "libfivestd_polygon"
  | emptiness => "libfivestd_emptiness"
  | union .. => "libfivestd_union"
  | inverse .. => "libfivestd_inverse"
  | blend .. => "libfivestd_blend"
  | moveit .. => "libfivestd_move"
  | scaleX .. => "libfivestd_scale_x"
  | arrayX .. => "libfivestd_array_x"
  | extrudeZ .. => "libfivestd_extrude_z"
  | text .. => "libfivestd_text"

/-- The native arguments of a call, in the order of the declaration. -/
def nativeArgs : WrapperCall → Except CallFailure (List NativeArg)
  | circle r center => .ok [.tree r, .vec2 center]
  | sphere radius center => .ok [.tree radius, .vec3 center]
  | polygon r n center => return [.tree r, ← nativeInt "polygon" "n" n, .vec2 center]
  | emptiness => .ok []
  | union a b => .ok [.tree a, .tree b]
  | inverse a => .ok [.tree a]
  | blend a b m => .ok [.tree a, .tree b, .tree m]
  | moveit t offset => .ok [.tree t, .vec3 offset]
  | scaleX t sx x0 => .ok [.tree t, .tree sx, .tree x0]
  | arrayX shape nx dx => return [.tree shape, ← nativeInt "array_x" "nx" nx, .tree dx]
  | extrudeZ t zmin zmax => .ok [.tree t, .tree zmin, .tree zmax]
  | text txt pos => return [← nativeString txt, .vec2 pos]

end WrapperCall

structure NativeCall where
  symbol : String
  args : List NativeArg
  result : Handle
  deriving DecidableEq

/-- The calls since the record was last taken, in order. -/
abbrev Record := List NativeCall

/-- The first handle that is returned. Callers may use the lower ones. -/
def firstResult : Handle := 1000

namespace Record

/-- The handle that the next call returns. -/
def nextResult (r : Record) : Handle := firstResult + UInt64.ofNat r.length

/-- Makes a call: the handle that it returns, and the record with it. A call that fails leaves the
record as it is. -/
def run (r : Record) (call : WrapperCall) : Except CallFailure Handle × Record :=
  match call.nativeArgs with
  | .ok args => (.ok r.nextResult, r ++ [⟨call.symbol, args, r.nextResult⟩])
  | .error e => (.error e, r)

/-- Takes the calls off the record. -/
def take (r : Record) : List NativeCall × Record := (r, [])

end Record

end ShapeBindings
