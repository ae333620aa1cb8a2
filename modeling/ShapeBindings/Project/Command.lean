import ShapeBindings.Project.Sources
import ShapeBindings.Project.Units

/-!
# Commands

`initProject` writes a first configuration, `listModules` and `check` tell what a full run would do,
`generate` does it. All units are made before anything is written, and each output is written to a
temporary file first, which then takes its place in one step.
-/

namespace ShapeBindings

variable {m : Type → Type} [Monad m] [Disk m]

open Job

def initProject (dir : Path) (header : String) : Job m Unit := do
  let path := dir.join configFileName
  if ← request (Disk.isThere path) then throw (.configExists path)
  orFail (.unwritableConfig path)
    (← request (Disk.write path (Text.encode (Config.template header))))
  printLine s!"Created {configFileName}"
  printLine s!"  source: {header}"
  printLine "  edit [modules] to choose a calling convention per stdlib section"

/-- Prints what a full run does with each module. -/
def listModules (c : Config) (base : Path) (format : String) : Job m Unit := do
  let entries := c.listing (← c.loadTable base)
  match format with
  | "json" => print (ListEntry.renderJson entries)
  | "text" => print (ListEntry.renderText entries)
  | _ => throw (.unknownFormat format)

/-- Makes the units of a run and reports on it. -/
def makeUnits (c : Config) (t : Table) (selected : List String) (provenance : Provenance) :
    Job m (List SourceUnit) := do
  report (c.unitRecords t selected provenance)
  orFail id (c.units t selected provenance)

def functionCount (units : List SourceUnit) : Nat :=
  units.foldr (fun u n => u.functionCount + n) 0

/-- Makes the units of a full run and writes nothing. -/
def check (c : Config) (base : Path) (provenance : Provenance) : Job m Unit := do
  let t ← c.loadTable base
  let units ← makeUnits c t [] provenance
  printLine (s!"ok: {units.length} modules, {functionCount units} functions from " ++
    c.sourceLabel)

/-- Writes a text to a file of a directory. The file is never there with a part of the text. A
temporary file that does not take the text is removed; one that holds it and cannot take its place
stays with the failure. -/
def writeOutput (dir : Path) (name text : String) : Job m Path := do
  let path := dir.join name
  let temp ← orFail (.temporary dir) (← request (Disk.makeTemp dir))
  match ← request (Disk.write temp (Text.encode text)) with
  | .error e =>
    request (Disk.remove temp)
    throw (.unwritable path e)
  | .ok _ =>
    orFail (.persist path temp) (← request (Disk.rename temp path))
    return path

/-- Writes units to a directory, one after the other. -/
def writeUnits (dir : Path) : List SourceUnit → Job m Unit
  | [] => return ()
  | u :: us => do
    let path ← writeOutput dir u.fileName u.source
    report [⟨.info, .output, s!"wrote {path.text} ({u.functionCount} functions)"⟩]
    writeUnits dir us

def indexFileName : String := "mod.rs"

def renderIndex (modules : List String) : String :=
  Text.unlines <|
    ["//",
     "// Module index for the generated libfive stdlib bindings.",
     "//",
     "// DO NOT EDIT BY HAND!",
     "//",
     ""] ++ modules.map fun name => s!"pub mod {name};"

/-- What a run is asked for. -/
structure GenerateRequest where
  /-- A directory instead of the one that is configured. -/
  output : Option Path := none
  /-- The modules; all planned ones if there are none. -/
  selected : List String := []
  /-- Whether to print the units instead of writing them. -/
  dryRun : Bool := false
  deriving DecidableEq

def renderUnits (units : List SourceUnit) : String :=
  String.join (units.map fun u => s!"// ---- {u.fileName} ----\n" ++ u.source)

/-- Makes the units of a run and writes them, and then the index of all planned modules if it is
wanted. -/
def generate (c : Config) (base : Path) (r : GenerateRequest) (provenance : Provenance) :
    Job m Unit := do
  let t ← c.loadTable base
  let units ← makeUnits c t r.selected provenance
  if units.isEmpty then printLine "No modules selected, nothing to generate."
  else if r.dryRun then print (renderUnits units)
  else
    let dir := r.output.getD (base.join c.output.dir)
    orFail (.directory dir) (← request (Disk.makeDirs dir))
    writeUnits dir units
    if c.output.index then
      discard (writeOutput dir indexFileName (renderIndex (c.plannedModules t)))
    printLine (s!"Generated {units.length} modules ({functionCount units} functions) -> " ++
      dir.text)

/-- The user that banners name: the first name that is set. -/
def userName (user username : Option String) : String := (user.or username).getD "unknown"

end ShapeBindings
