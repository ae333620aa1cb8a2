import ShapeBindings.Project.Failure

/-!
# The units of a run

A run makes the units of all planned modules, or of selected ones, in the order of the table and
then the one that is written by hand. `Config.listing` tells what a full run would do with each
module.
-/

namespace ShapeBindings

namespace Config

def unitOptions (c : Config) (provenance : Provenance) : UnitOptions where
  source := c.sourceLabel
  importRoot := c.output.importRoot
  naming := c.naming
  provenance := provenance

/-- The selected modules that come from the table. -/
def wanted (c : Config) (selected : List String) : List String :=
  selected.filter fun name => !(c.output.text && name == textModuleName)

/-- The plan for selected modules, all of which have to be in the table and have a convention. -/
def selectionPlan (c : Config) (t : Table) (selected : List String) : Except Failure Plan :=
  match (c.wanted selected).find? fun name => (t.module? name).isNone with
  | some name => .error (.unknownModule name c.sourceLabel)
  | none => (c.planFor (c.wanted selected)).mapError .noConvention

/-- The modules of a table that are selected, in the order of the table. -/
def selectedModules (c : Config) (t : Table) (selected : List String) : List Module :=
  t.modules.filter (·.name ∈ c.wanted selected)

def tableUnits (c : Config) (t : Table) (selected : List String) (options : UnitOptions) :
    Except Failure (List SourceUnit) :=
  if selected.isEmpty then (c.plan.units t options).mapError .wrapper
  else do
    let plan ← c.selectionPlan t selected
    let units ← ((c.selectedModules t selected).mapM (plan.unit? options)).mapError .wrapper
    return units.reduceOption

/-- Whether a run makes the unit that is written by hand. -/
def makesTextUnit (c : Config) (selected : List String) : Bool :=
  c.output.text && (selected.isEmpty || selected.contains textModuleName)

/-- The units of a run for selected modules, or for all planned ones if none is selected. -/
def units (c : Config) (t : Table) (selected : List String) (provenance : Provenance) :
    Except Failure (List SourceUnit) := do
  let options := c.unitOptions provenance
  let units ← c.tableUnits t selected options
  return units ++ if c.makesTextUnit selected then [textUnit options] else []

/-- What is reported while the units of a run are made. -/
def unitRecords (c : Config) (t : Table) (selected : List String) (provenance : Provenance) :
    List LogRecord :=
  let options := c.unitOptions provenance
  let superseded : List LogRecord :=
    if c.output.text && (t.module? textModuleName).isSome then
      [⟨.info, .output, s!"table section '{textModuleName}' is superseded by the " ++
        "hand-written text unit"⟩]
    else []
  superseded ++
    if selected.isEmpty then c.plan.records t options
    else
      match c.selectionPlan t selected with
      | .error _ => []
      | .ok plan =>
        recordsUntilFailure (c.selectedModules t selected) (plan.unit? options)
          (plan.moduleRecords options)

/-- The modules that a full run makes units of, in order. -/
def plannedModules (c : Config) (t : Table) : List String :=
  ((t.modules.map (·.name)).filter fun name => (c.plan.convention? name).isSome) ++
    if c.output.text then [textModuleName] else []

end Config

/-- What a full run does with a module. -/
structure ListEntry where
  name : String
  functions : Nat
  /-- The convention, or none if the module is skipped or written by hand. -/
  convention : Option Convention
  handWritten : Bool
  deriving DecidableEq

/-- What a full run does with each module. -/
def Config.listing (c : Config) (t : Table) : List ListEntry :=
  ((t.modules.filter fun m => !c.plan.isExcluded m.name).map fun m =>
      ⟨m.name, m.size, c.plan.convention? m.name, false⟩) ++
    if c.output.text then [⟨textModuleName, 1, none, true⟩] else []

namespace ListEntry

def padRight (width : Nat) (s : String) : String :=
  s ++ String.ofList (List.replicate (width - s.length) ' ')

def padLeft (width : Nat) (s : String) : String :=
  String.ofList (List.replicate (width - s.length) ' ') ++ s

/-- The three columns of a row. -/
def row (name functions convention : String) : String :=
  s!"{padRight 16 name} {padLeft 9 functions}  {convention}"

/-- What the last column says of a module. -/
def conventionText (e : ListEntry) : String :=
  if e.handWritten then "hand-written" else (e.convention.map Convention.name).getD "skipped"

def renderText (es : List ListEntry) : String :=
  Text.unlines (row "MODULE" "FUNCTIONS" "CONVENTION" ::
    es.map fun e => row e.name (toString e.functions) e.conventionText)

/-- An entry as a JSON object. A module's name is an identifier, so it needs no escapes. -/
def jsonLines (e : ListEntry) : List String :=
  ["  \x7b",
   s!"    \"name\": \"{e.name}\",",
   s!"    \"functions\": {e.functions},",
   "    \"convention\": " ++
     (match e.convention with | some c => s!"\"{c.name}\"" | none => "null") ++ ",",
   "    \"hand_written\": " ++ if e.handWritten then "true" else "false",
   "  \x7d"]

def renderJson (es : List ListEntry) : String :=
  if es.isEmpty then "[]\n"
  else "[\n" ++ ",\n".intercalate (es.map fun e => "\n".intercalate e.jsonLines) ++ "\n]\n"

end ListEntry

end ShapeBindings
