import ShapeBindings.Disk

/-!
# A model of a machine's files

A `FileTree` maps locations, which are lists of names from the root on, to files and directories. A
`Machine` has a tree and a working directory and answers the requests of `Disk` as a system without
links and permissions does. It may also refuse the requests that change something, by their number,
and leave a part of what it refuses to write, so that whatever can go wrong while files are written
is a machine.
-/

namespace ShapeBindings

/-- A place in a tree of files, from the root on. -/
abbrev Location := List String

/-- The path of a location: the one without vacant parts and without `..`. -/
def Location.path (loc : Location) : Path := ⟨"/" ++ "/".intercalate loc⟩

inductive Node where
  | file (content : List UInt8)
  | dir
  deriving DecidableEq

/-- Files and directories by their location. The root is a directory and needs no entry. -/
structure FileTree where
  entries : List (Location × Node) := []
  deriving DecidableEq

namespace FileTree

def at? (t : FileTree) (loc : Location) : Option Node :=
  if loc = [] then some .dir else t.entries.lookup loc

/-- Replaces what stands at a location, or adds it. -/
def setEntry (loc : Location) (node : Node) : List (Location × Node) → List (Location × Node)
  | [] => [(loc, node)]
  | (l, n) :: es => if l = loc then (l, node) :: es else (l, n) :: setEntry loc node es

def set (t : FileTree) (loc : Location) (node : Node) : FileTree := ⟨setEntry loc node t.entries⟩

/-- Removes what stands at a location, and nothing else. -/
def erase (t : FileTree) (loc : Location) : FileTree := ⟨t.entries.filter (·.1 ≠ loc)⟩

/-- Removes what stands at a location and below it. -/
def eraseBelow (t : FileTree) (loc : Location) : FileTree :=
  ⟨t.entries.filter fun e => !loc.isPrefixOf e.1⟩

/-- The greatest number of octets in a name. -/
def maxNameSize : Nat := 255

/-- The greatest number of octets in a path. -/
def maxPathSize : Nat := 4095

/-- Where the parts of a path lead from a location. Every part, also an empty one, needs a directory
to stand in. -/
def walk (t : FileTree) (loc : Location) : List String → Except OsError Location
  | [] => .ok loc
  | part :: parts =>
    match t.at? loc with
    | none => .error .notFound
    | some (.file _) => .error .notDirectory
    | some .dir =>
      if Path.isVacant part then t.walk loc parts
      else if part = ".." then t.walk loc.dropLast parts
      else if maxNameSize < part.utf8ByteSize then .error .nameTooLong
      else t.walk (loc ++ [part]) parts

/-- Where a path leads, seen from a working directory. -/
def resolve (t : FileTree) (workingDir : Location) (p : Path) : Except OsError Location :=
  if p.text.toList.contains (Char.ofNat 0) then .error .nulInPath
  else if p.text.isEmpty then .error .notFound
  else if maxPathSize < p.text.utf8ByteSize then .error .nameTooLong
  else t.walk (if p.isAbsolute then [] else workingDir) p.parts

end FileTree

structure Machine where
  tree : FileTree := {}
  /-- Where relative paths start. -/
  workingDir : Location := []
  /-- The requests that are refused, by their number. Only those that change files count. -/
  faults : Nat → Option OsError := fun _ => none
  /-- How many octets of its content a refused write leaves in the file, by its number; none if it
  does not touch the file. -/
  partialWrites : Nat → Option Nat := fun _ => none
  /-- How many requests have been made. -/
  requests : Nat := 0

namespace Machine

def node? (m : Machine) (p : Path) : Option Node :=
  match m.tree.resolve m.workingDir p with
  | .ok loc => m.tree.at? loc
  | .error _ => none

/-- The path that a program started in a directory knows its working directory by. -/
def workingPath (m : Machine) (dir : Path) : Except OsError Path := do
  let loc ← m.tree.resolve m.workingDir dir
  match m.tree.at? loc with
  | some .dir => return Location.path loc
  | some (.file _) => throw .notDirectory
  | none => throw .notFound

/-- The content of the file that a path leads to. -/
def read (m : Machine) (p : Path) : Except OsError (List UInt8) := do
  match m.tree.at? (← m.tree.resolve m.workingDir p) with
  | some (.file content) => return content
  | some .dir => throw .isDirectory
  | none => throw .notFound

/-- Makes a change, or `refused` if the machine refuses it. A change that fails leaves the files
alone. -/
def change {α : Type} (f : FileTree → Location → Except OsError (α × FileTree))
    (refused : Machine → FileTree := Machine.tree) : StateM Machine (Except OsError α) := fun m =>
  let counted := { m with requests := m.requests + 1 }
  match m.faults m.requests with
  | some e => (.error e, { counted with tree := refused m })
  | none =>
    match f m.tree m.workingDir with
    | .error e => (.error e, counted)
    | .ok (a, tree) => (.ok a, { counted with tree })

/-- Sets the content of the file that a path leads to. -/
def writeFile (p : Path) (content : List UInt8) (t : FileTree) (workingDir : Location) :
    Except OsError (Unit × FileTree) := do
  let loc ← t.resolve workingDir p
  if t.at? loc = some .dir then throw .isDirectory
  return ((), t.set loc (.file content))

/-- The files after a write that the machine refuses. -/
def refusedWrite (p : Path) (content : List UInt8) (m : Machine) : FileTree :=
  match m.partialWrites m.requests with
  | none => m.tree
  | some size =>
    match writeFile p (content.take size) m.tree m.workingDir with
    | .ok (_, tree) => tree
    | .error _ => m.tree

/-- Makes the directory that a path leads to. Slashes at its end do not matter. -/
def makeDirectory (p : Path) (t : FileTree) (workingDir : Location) :
    Except OsError (Unit × FileTree) := do
  let trimmed := (p.text.toList.reverse.dropWhile (· == '/')).reverse
  let loc ← t.resolve workingDir (if trimmed.isEmpty then p else ⟨String.ofList trimmed⟩)
  if (t.at? loc).isSome then throw .alreadyExists
  return ((), t.set loc .dir)

/-- Makes an empty file in a directory, under the first of some names that is free. -/
def makeTempFrom (dir : Path) (t : FileTree) (workingDir : Location) :
    List String → Except OsError (Path × FileTree)
  | [] => .error .alreadyExists
  | name :: names => do
    let loc ← t.resolve workingDir (dir.join name)
    if (t.at? loc).isSome then makeTempFrom dir t workingDir names
    else return (dir.join name, t.set loc (.file []))

def tempName (i : Nat) : String := s!".tmp{i}"

/-- Makes an empty file in a directory, under the first name of a series that is free. -/
def makeTempFile (dir : Path) (t : FileTree) (workingDir : Location) :
    Except OsError (Path × FileTree) :=
  makeTempFrom dir t workingDir
    ((List.range (t.entries.length + 1)).map fun i => tempName (100000 + i))

/-- Moves a file to where another path leads. -/
def renameFile (p q : Path) (t : FileTree) (workingDir : Location) :
    Except OsError (Unit × FileTree) := do
  let source ← t.resolve workingDir p
  let target ← t.resolve workingDir q
  match t.at? source with
  | none => throw .notFound
  | some node =>
    if t.at? target = some .dir then throw .isDirectory
    return ((), (t.erase source).set target node)

/-- Removes the file that a path leads to. -/
def removeFile (m : Machine) (p : Path) : Machine :=
  match m.tree.resolve m.workingDir p with
  | .ok loc => { m with tree := m.tree.erase loc }
  | .error _ => m

instance : Disk (StateM Machine) where
  isThere p := do return ((← get).node? p).isSome
  isFile p := do return ((← get).node? p) matches some (.file _)
  isDir p := do return ((← get).node? p) matches some .dir
  read p := do return (← get).read p
  write p content := change (writeFile p content) (refusedWrite p content)
  makeDir p := change (makeDirectory p)
  makeTemp dir := change (makeTempFile dir)
  rename p q := change (renameFile p q)
  remove p := modify (·.removeFile p)

end Machine

end ShapeBindings
