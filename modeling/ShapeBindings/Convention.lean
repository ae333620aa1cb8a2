/-!
# Calling conventions

A convention says how the wrappers of a module take their first argument. It is chosen once for a
module. `Convention.ofConfig?` reads the exact spellings, `Convention.parse?` any case of them.
-/

namespace ShapeBindings

/-- How a wrapper takes its first argument. -/
inductive Convention where
  /-- The first argument is `self`. -/
  | receiver
  /-- Every argument is a parameter of its own. -/
  | free
  deriving DecidableEq

namespace Convention

def name : Convention → String
  | receiver => "receiver"
  | free => "free"

/-- The convention that a spelling names. Each has two further spellings. -/
def ofConfig? (s : String) : Option Convention :=
  if s ∈ ["receiver", "method", "modifier"] then some receiver
  else if s ∈ ["free", "function", "generator"] then some free
  else none

/-- The convention that a spelling names in any mixture of cases. The spellings hold no letter that
is the lower case of a character outside ASCII, so lowering ASCII letters is enough. -/
def parse? (s : String) : Option Convention :=
  ofConfig? (String.ofList (s.toList.map Char.toLower))

/-- Whether the first argument is `self`. -/
def usesReceiver : Convention → Bool
  | receiver => true
  | free => false

end Convention

end ShapeBindings
