import ShapeBindings.Identifier
import ShapeBindings.Table
import ShapeBindings.Toml.Document
import ShapeBindings.Toml.Fields

/-!
# Table files

A table file states native functions in TOML, one entry per function. `TableFile.decode?` takes the
entries from a document, `TableFile.check` sees to it that every name is an identifier, and
`TableFile.descriptors` makes the table of the entries that are not excluded.
-/

namespace ShapeBindings

open Toml (Value Fields)

/-- The library that a table file describes. -/
structure LibraryInfo where
  name : String
  /-- What stands before a function's name in its symbol, if the entry gives none. -/
  symbolPrefix : String
  deriving DecidableEq

structure StatedArgument where
  name : String
  type : String
  deriving DecidableEq

structure StatedFunction where
  name : String
  moduleName : String
  rawName : Option String
  doc : Option String
  args : List StatedArgument
  excluded : Bool
  deriving DecidableEq

structure TableFile where
  library : LibraryInfo
  functions : List StatedFunction
  deriving DecidableEq

/-- What is wrong with the names in a table file. -/
inductive TableFileFault where
  | unnamedLibrary
  /-- A function has an empty name or module. -/
  | incompleteFunction (function : String)
  | notIdentifier (what value function : String)
  deriving DecidableEq

def TableFileFault.detail : TableFileFault → String
  | unnamedLibrary => "library.name is required"
  | incompleteFunction function => s!"function entry '{function}' needs both a name and a module"
  | notIdentifier what value function =>
    s!"{what} '{value}' of function '{function}' is not an identifier"

inductive TableFileError where
  /-- It is no TOML, or lacks a field, or has one of a wrong type. -/
  | toml
  | invalid (fault : TableFileFault)
  deriving DecidableEq

def TableFileError.message : TableFileError → String
  | toml => s!"TOML parse error: {Toml.errorMessage}"
  | invalid fault => s!"invalid descriptor table: {fault.detail}"

def LibraryInfo.decode? (v : Value) : Option LibraryInfo := do
  let fields ← v.fields?
  return {
    name := ← fields.required 0 ["name"] Value.string?
    symbolPrefix :=
      (← fields.optional 1 ["symbol_prefix", "symbol-prefix"] Value.string?).getD "" }

def StatedArgument.decode? (v : Value) : Option StatedArgument := do
  let fields ← v.fields?
  return {
    name := ← fields.required 0 ["name"] Value.string?
    type := ← fields.required 1 ["type"] Value.string? }

def StatedFunction.decode? (v : Value) : Option StatedFunction := do
  let fields ← v.fields?
  let args := fun (v : Value) => do (← v.items?).mapM StatedArgument.decode?
  return {
    name := ← fields.required 0 ["name"] Value.string?
    moduleName := ← fields.required 1 ["module"] Value.string?
    rawName := ← fields.optional 2 ["raw_name", "raw-name"] Value.string?
    doc := ← fields.optional 3 ["doc"] Value.string?
    args := (← fields.optional 4 ["args"] args).getD []
    excluded := (← fields.optional 5 ["excluded"] Value.boolean?).getD false }

namespace TableFile

def decode? (es : Toml.Entries) : Option TableFile := do
  let fields := Fields.named es
  let functions := fun (v : Value) => do (← v.items?).mapM StatedFunction.decode?
  return {
    library := ← fields.required 0 ["library"] LibraryInfo.decode?
    functions := (← fields.optional 1 ["functions"] functions).getD [] }

/-- Refuses a name that is no identifier. -/
def checkIdentifier (what value function : String) : Except TableFileFault Unit :=
  if isIdentifier value then .ok () else .error (.notIdentifier what value function)

def symbolOf (file : TableFile) (f : StatedFunction) : String :=
  f.rawName.getD (file.library.symbolPrefix ++ f.name)

/-- Checks the names of a function. -/
def checkFunction (file : TableFile) (f : StatedFunction) : Except TableFileFault Unit := do
  if f.name.isEmpty || f.moduleName.isEmpty then throw (.incompleteFunction f.name)
  checkIdentifier "function name" f.name f.name
  checkIdentifier "module name" f.moduleName f.name
  let what := if f.rawName.isSome then "raw-name" else "linkage name"
  checkIdentifier what (file.symbolOf f) f.name
  f.args.forM fun a => checkIdentifier "argument name" a.name f.name

/-- Checks the names of a table file, also those of excluded functions. -/
def check (file : TableFile) : Except TableFileFault Unit := do
  if file.library.name.isEmpty then throw .unnamedLibrary
  file.functions.forM file.checkFunction

def parse (text : String) : Except TableFileError TableFile :=
  match (Toml.parse? text).bind decode? with
  | none => .error .toml
  | some file => (file.check.mapError .invalid).map fun _ => file

/-- The functions that are not excluded. -/
def active (file : TableFile) : List StatedFunction := file.functions.filter (!·.excluded)

def descriptorOf (file : TableFile) (f : StatedFunction) : Descriptor :=
  let d := f.args.foldl (fun d a => d.arg a.name a.type)
    ({ publicName := f.name, rawName := file.symbolOf f, moduleName := f.moduleName } : Descriptor)
  d.withDoc (f.doc.getD "")

/-- The table of the functions that are not excluded. -/
def descriptors (file : TableFile) : Table := .ofList (file.active.map file.descriptorOf)

end TableFile

end ShapeBindings
