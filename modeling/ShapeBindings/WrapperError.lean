import ShapeBindings.NativeType

/-!
# Failures of wrapper generation

`WrapperError` lists why no wrapper is made. All but the bad rename are faults of the descriptors.
-/

namespace ShapeBindings

inductive WrapperError where
  | unsupportedType (function argument declaredType : String)
  /-- A function with a receiver takes something else than a handle first. -/
  | receiverNotHandle (function : String) (found : ArgKind)
  /-- A function with a receiver takes nothing. -/
  | missingReceiver (function : String)
  /-- A rename leads to something that is no identifier. -/
  | invalidRename (source target : String)
  deriving DecidableEq

namespace WrapperError

def message : WrapperError → String
  | unsupportedType function argument declaredType =>
    s!"unsupported argument type '{declaredType}' for argument `{argument}` of `{function}`"
  | receiverNotHandle function found =>
    s!"receiver-style function `{function}` must take a libfive_tree first, found " ++
      s!"'{found.typeName}'"
  | missingReceiver function => s!"receiver-style function `{function}` has no receiver argument"
  | invalidRename source target =>
    s!"invalid rename '{source}' -> '{target}': target is not a valid identifier"

/-- Whether the descriptors are at fault, and not the configuration. -/
def isSchemaError : WrapperError → Bool
  | invalidRename _ _ => false
  | _ => true

end WrapperError

end ShapeBindings
