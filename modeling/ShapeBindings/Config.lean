import ShapeBindings.Header.Reader
import ShapeBindings.Plan
import ShapeBindings.TableFile

/-!
# Configuration

A project's configuration names the source of the descriptors, the output, the convention of each
module and the renames. `Config.parse` reads it from TOML; `Config.template` is the text that a new
project starts with.
-/

namespace ShapeBindings

open Toml (Value Fields)

/-- The source of the descriptors, by the path of its file. -/
inductive Source where
  | header (path : String)
  | table (path : String)
  deriving DecidableEq

def Source.path : Source → String
  | header path => path
  | table path => path

/-- Where and how units are written. -/
structure OutputConfig where
  dir : String := "generated"
  /-- Where units import the wrapper types from. -/
  importRoot : Option String := none
  /-- Whether the unit that is written by hand is among them. -/
  text : Bool := true
  /-- Whether an index of the units is written. -/
  index : Bool := false
  /-- The convention of the modules without an entry. -/
  defaultConvention : Option Convention := none
  deriving DecidableEq

/-- A project's configuration. -/
structure Config where
  source : Source
  /-- What stands before a function's name in its symbol, for a header. -/
  symbolPrefix : String := Header.standardSymbolPrefix
  output : OutputConfig := {}
  /-- The conventions by module. -/
  modules : Dictionary Convention := {}
  naming : NamingPolicy := .standard
  deriving DecidableEq

inductive ConfigError where
  /-- It is no TOML, or lacks a field, or has one of a wrong type. -/
  | toml
  | twoSources
  | noSource
  /-- A rename is not possible. -/
  | naming (e : WrapperError)
  deriving DecidableEq

def ConfigError.message : ConfigError → String
  | toml => Toml.errorMessage
  | twoSources => "[source] sets both `header` and `table`; pick one"
  | noSource => "[source] needs either `header` or `table`"
  | naming e => e.message

/-- Reads a convention: its spelling, or a table with the spelling as its only key and nothing
below it. -/
def Convention.decode? (v : Value) : Option Convention :=
  match v with
  | .string s => ofConfig? s
  | .table _ [(key, content)] => if content.isEmpty then ofConfig? key else none
  | _ => none

/-- The source section as stated. -/
structure StatedSource where
  header : Option String := none
  table : Option String := none
  symbolPrefix : String := Header.standardSymbolPrefix
  deriving DecidableEq

def StatedSource.decode? (v : Value) : Option StatedSource := do
  let fields ← v.fields?
  return {
    header := ← fields.optional 0 ["header"] Value.string?
    table := ← fields.optional 1 ["table"] Value.string?
    symbolPrefix :=
      (← fields.optional 2 ["symbol-prefix"] Value.string?).getD Header.standardSymbolPrefix }

/-- The one source that is stated. -/
def StatedSource.source (s : StatedSource) : Except ConfigError Source :=
  match s.header, s.table with
  | some _, some _ => .error .twoSources
  | some path, none => .ok (.header path)
  | none, some path => .ok (.table path)
  | none, none => .error .noSource

def OutputConfig.decode? (v : Value) : Option OutputConfig := do
  let fields ← v.fields?
  let standard : OutputConfig := {}
  return {
    dir := (← fields.optional 0 ["dir"] Value.string?).getD standard.dir
    importRoot := ← fields.optional 1 ["import-root"] Value.string?
    text := (← fields.optional 2 ["text"] Value.boolean?).getD standard.text
    index := (← fields.optional 3 ["index"] Value.boolean?).getD standard.index
    defaultConvention := ← fields.optional 4 ["default-convention"] Convention.decode? }

def Dictionary.decode? {α : Type} (read : Value → Option α) (v : Value) :
    Option (Dictionary α) := do
  let es ← (← v.entries?).mapM fun (name, v) => (read v).map (name, ·)
  return .ofList es

def NamingPolicy.decode? (v : Value) : Option NamingPolicy := do
  let fields ← v.fields?
  match ← fields.optional 0 ["renames"] (Dictionary.decode? Value.string?) with
  | some renames => return ⟨renames⟩
  | none => return .standard

/-- A configuration as stated. -/
structure StatedConfig where
  source : StatedSource
  output : OutputConfig
  modules : Dictionary Convention
  naming : NamingPolicy

def StatedConfig.decode? (es : Toml.Entries) : Option StatedConfig := do
  let fields := Fields.named es
  return {
    source := ← fields.required 0 ["source"] StatedSource.decode?
    output := (← fields.optional 1 ["output"] OutputConfig.decode?).getD {}
    modules := (← fields.optional 2 ["modules"] (Dictionary.decode? Convention.decode?)).getD {}
    naming := (← fields.optional 3 ["naming"] NamingPolicy.decode?).getD .standard }

namespace Config

/-- The configuration that is stated, if it has one source and possible renames. -/
def ofStated (stated : StatedConfig) : Except ConfigError Config := do
  let source ← stated.source.source
  stated.naming.validate.mapError .naming
  return {
    source
    symbolPrefix := stated.source.symbolPrefix
    output := stated.output
    modules := stated.modules
    naming := stated.naming }

def parse (text : String) : Except ConfigError Config :=
  match (Toml.parse? text).bind StatedConfig.decode? with
  | some stated => ofStated stated
  | none => .error .toml

/-- What banners and messages call the source. -/
def sourceLabel (c : Config) : String := c.source.path

/-- The plan of a full run. The module that is written by hand takes the place of one of its name
in the source. -/
def plan (c : Config) : Plan :=
  let assigned := c.modules.entries.foldl (fun p (name, conv) => p.assign name conv) ({} : Plan)
  let planned :=
    match c.output.defaultConvention with
    | some conv => assigned.withFallback conv
    | none => assigned
  if c.output.text then planned.exclude textModuleName else planned

/-- The convention that a module has by name or by default. -/
def conventionOf (c : Config) (name : String) : Option Convention :=
  (c.modules.get? name).or c.output.defaultConvention

/-- The plan of a run for selected modules, or the first of them that has no convention. -/
def planFor (c : Config) (selected : List String) : Except String Plan :=
  selected.foldlM (fun p name =>
    match c.conventionOf name with
    | some conv => .ok (p.assign name conv)
    | none => .error name) {}

/-- The text of the configuration that a project starts with, for a header. -/
def template (header : String) : String :=
  Text.unlines [
    "[source]",
    s!"header = \"{header}\"",
    "symbol-prefix = \"libfivestd_\"",
    "",
    "[output]",
    "dir = \"stdlib\"",
    "import-root = \"crate\"",
    "text = true",
    "",
    "[modules]",
    "csg = \"receiver\"",
    "transforms = \"receiver\"",
    "shapes = \"free\"",
    "generators = \"free\"",
    "",
    "[naming.renames]",
    "move = \"moveit\""]

end Config

end ShapeBindings
