/-!
# Paths

A path is a text whose parts stand between slashes; it is absolute if it starts with one. Joining
and shortening work on the text alone: nothing is looked up, and `..` is a part like any other.
-/

namespace ShapeBindings

structure Path where
  text : String
  deriving DecidableEq

namespace Path

def isAbsolute (p : Path) : Bool := p.text.toList.head? = some '/'

/-- The path `q` seen from `p`. An absolute path is the same from everywhere. -/
def join (p : Path) (q : String) : Path :=
  if isAbsolute ⟨q⟩ then ⟨q⟩
  else if p.text.isEmpty || p.text.toList.getLast? = some '/' then ⟨p.text ++ q⟩
  else ⟨p.text ++ "/" ++ q⟩

def parts (p : Path) : List String := (p.text.toList.splitOn '/').map String.ofList

/-- The path of a first part and the further parts in reverse order. -/
def ofReverseParts (first : String) (rest : List String) : Path :=
  if first.isEmpty && rest.isEmpty then ⟨"/"⟩ else ⟨"/".intercalate (first :: rest.reverse)⟩

/-- Whether a part names nothing: an empty one, or one that names the directory it stands in. -/
def isVacant (part : String) : Bool := part.isEmpty || part == "."

/-- The paths of the directories above, from the nearest on, given the first part and the further
ones in reverse order. A relative path ends at the empty one, an absolute one at the root. -/
def parentsOf (first : String) : List String → List Path
  | [] => if first.isEmpty then [] else [⟨""⟩]
  | part :: rest =>
    if isVacant part then parentsOf first rest
    else ofReverseParts first (rest.dropWhile isVacant) :: parentsOf first rest

/-- The paths of the directories above, from the nearest on. -/
def parents (p : Path) : List Path :=
  match p.parts with
  | [] => []
  | first :: rest => parentsOf first rest.reverse

/-- The path of the directory above, if there is one. -/
def parent? (p : Path) : Option Path := p.parents.head?

end Path

end ShapeBindings
