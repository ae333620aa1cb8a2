import ShapeBindings.Log
import ShapeBindings.Marshal
import ShapeBindings.Text.Blank
import ShapeBindings.Text.Lines

/-!
# Wrappers

The wrapper of a native function declares a parameter per argument, makes exactly one native call
with one expression per argument, and wraps the handle that it returns. `signature` chooses the
parameters and the expressions, `wrapper` writes the lines.
-/

namespace ShapeBindings

open Text

/-- The name, parameters and native arguments of a wrapper. -/
structure Signature where
  name : String
  /-- The parameters in order, without the receiver. -/
  params : List Param
  /-- One native argument per argument of the function. -/
  calls : List NativeExpr
  receiver : Bool
  deriving DecidableEq

namespace Signature

def paramList (s : Signature) : String :=
  ", ".intercalate ((if s.receiver then ["self"] else []) ++ s.params.map Param.render)

def callList (s : Signature) : String := ", ".intercalate (s.calls.map NativeExpr.render)

end Signature

namespace Descriptor

/-- Checks that the function takes a handle first. -/
def checkReceiver (d : Descriptor) : Except WrapperError Unit :=
  match d.args.head? with
  | none => .error (.missingReceiver d.publicName)
  | some a => do
    let kind ← a.kindFor d.publicName
    if kind = .handle then return () else throw (.receiverNotHandle d.publicName kind)

def signature (d : Descriptor) (convention : Convention) (naming : NamingPolicy) :
    Except WrapperError Signature := do
  if convention.usesReceiver then d.checkReceiver
  let marshalled ← d.args.mapM (·.marshal convention d.publicName)
  return {
    name := naming.functionName d.publicName
    params := marshalled.filterMap (·.param)
    calls := marshalled.map (·.call)
    receiver := convention.usesReceiver }

def docLines (d : Descriptor) : List String :=
  match d.doc with
  | none => []
  | some doc => (lines doc.toList).map fun line =>
    let text := String.ofList (trimEnd line)
    if text.isEmpty then "    ///" else "    /// " ++ text

/-- The lines of the wrapper with a signature, indented for the block that holds them. -/
def wrapperLines (d : Descriptor) (s : Signature) : List String :=
  d.docLines ++
    [s!"    pub fn {s.name}({s.paramList}) -> Self \x7b",
     s!"        Self(unsafe \x7b sys::{d.rawName}({s.callList}) \x7d)",
     "    \x7d"]

def wrapper (d : Descriptor) (convention : Convention) (naming : NamingPolicy) :
    Except WrapperError (List String) :=
  (d.signature convention naming).map d.wrapperLines

/-- What is reported while the wrapper is written. -/
def wrapperRecords (d : Descriptor) (convention : Convention) (naming : NamingPolicy) :
    List LogRecord :=
  match d.signature convention naming with
  | .error _ => []
  | .ok s =>
    [⟨.trace, .wrapper, s!"emitting {d.publicName} ({convention.name}, {s.params.length} " ++
      s!"params, {s.calls.length} call args)"⟩]

end Descriptor

end ShapeBindings
