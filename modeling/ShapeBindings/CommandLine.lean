import ShapeBindings.Project.Command

/-!
# The command line

A command line has options, the name of a command, and options of that command. `Invocation.parse`
reads it from left to right and stops at the first thing that is wrong, or at a request for the
version or for help. `runCommandLine` does what it asks for.
-/

namespace ShapeBindings

inductive CommandName where
  | init
  | generate
  | list
  | check
  deriving DecidableEq

namespace CommandName

def ofString? : String → Option CommandName
  | "init" => some init
  | "generate" => some generate
  | "list" => some list
  | "check" => some check
  | _ => none

end CommandName

/-- One argument by its form. -/
inductive ArgForm where
  /-- Two hyphens: only words follow. -/
  | escape
  /-- An option with a long name, perhaps with a value after an equals sign. -/
  | long (name : String) (value : Option String)
  /-- Options with names of one letter. -/
  | short (letters : List Char)
  | word (text : String)
  deriving DecidableEq

/-- An argument by its form. A lone hyphen is a word. -/
def ArgForm.ofString (arg : String) : ArgForm :=
  match arg.toList with
  | ['-', '-'] => .escape
  | '-' :: '-' :: rest =>
    match Text.cutAt ['='] rest with
    | some (name, value) => .long (String.ofList name) (some (String.ofList value))
    | none => .long (String.ofList rest) none
  | '-' :: c :: rest => .short (c :: rest)
  | _ => .word arg

/-- The options that are set among the options of a command, or before the command. -/
structure Settings where
  config : Option String := none
  header : Option String := none
  output : Option String := none
  modules : List String := []
  format : Option String := none
  verbose : Bool := false
  dryRun : Bool := false
  deriving DecidableEq

/-- Why a command line does not lead to a command. -/
inductive Stop where
  | usage
  | version
  | help
  deriving DecidableEq

namespace Settings

/-- Whether an option takes a value, before a command or among the options of one. -/
def takesValue (command : Option CommandName) (name : String) : Bool :=
  match command, name with
  | _, "config" => true
  | some .init, "header" => true
  | some .generate, "output" => true
  | some .generate, "module" => true
  | some .list, "format" => true
  | _, _ => false

/-- The value of an option that may be given once. -/
def once (old : Option String) (value : String) : Except Stop (Option String) :=
  if old.isSome then .error .usage else .ok (some value)

/-- The value of an option that may be given once and names a path, which is never empty. -/
def oncePath (old : Option String) (value : String) : Except Stop (Option String) :=
  if value.isEmpty then .error .usage else once old value

/-- Sets an option that takes a value. -/
def setValue (s : Settings) (name value : String) : Except Stop Settings := do
  match name with
  | "config" => return { s with config := ← oncePath s.config value }
  | "output" => return { s with output := ← oncePath s.output value }
  | "header" => return { s with header := ← once s.header value }
  | "format" => return { s with format := ← once s.format value }
  | "module" => return { s with modules := s.modules ++ [value] }
  | _ => throw .usage

/-- Sets an option that takes no value, or stops at one that asks for something else. -/
def setFlag (command : Option CommandName) (s : Settings) (name : String) :
    Except Stop Settings :=
  match name with
  | "verbose" => if s.verbose then .error .usage else .ok { s with verbose := true }
  | "dry-run" =>
    if command ≠ some .generate || s.dryRun then .error .usage
    else .ok { s with dryRun := true }
  | "help" => .error .help
  | "version" => .error (if command.isNone then .version else .usage)
  | _ => .error .usage

def longName : Char → String
  | 'v' => "verbose"
  | 'h' => "help"
  | 'V' => "version"
  | _ => ""

/-- Where a request for help by the word "help" leads: after it may stand what help is wanted on,
which is a command or "help" itself. -/
def helpStop : List String → Stop
  | [] | ["help"] => .help
  | [topic] => if (CommandName.ofString? topic).isSome then .help else .usage
  | _ => .usage

/-- Reads options up to the name of a command. Gives that name, if there is one, and the arguments
after it. An option that wants a value takes the next argument, unless that looks like an option. -/
def read (command : Option CommandName) (s : Settings) :
    List String → Except Stop (Settings × Option (CommandName × List String))
  | [] => .ok (s, none)
  | arg :: rest => do
    match ArgForm.ofString arg with
    | .escape => if rest.isEmpty then return (s, none) else throw .usage
    | .short letters =>
      let s ← letters.foldlM (fun s c => setFlag command s (longName c)) s
      s.read command rest
    | .long name value =>
      if takesValue command name then
        match value, rest with
        | some value, rest => (← s.setValue name value).read command rest
        | none, [] => throw .usage
        | none, next :: rest =>
          match ArgForm.ofString next with
          | .word value => (← s.setValue name value).read command rest
          | _ => throw .usage
      else if value.isSome then throw .usage
      else (← setFlag command s name).read command rest
    | .word text =>
      match command, CommandName.ofString? text with
      | none, some name => return (s, some (name, rest))
      | none, none => throw (if text = "help" then helpStop rest else .usage)
      | some _, _ => throw .usage

end Settings

/-- What a command line asks for. -/
structure Invocation where
  command : CommandName
  settings : Settings
  deriving DecidableEq

/-- The header that a first configuration names unless another is given. -/
def standardHeader : String := "libfive/stdlib/stdlib.h"

namespace Invocation

def parse (args : List String) : Except Stop Invocation := do
  match ← Settings.read none {} args with
  | (_, none) => throw .usage
  | (before, some (command, rest)) =>
    let (settings, _) ← Settings.read (some command) {} rest
    return {
      command
      settings := { settings with
        config := settings.config.or before.config
        verbose := settings.verbose || before.verbose } }

/-- The least level of the records that are shown. -/
def logLevel (i : Invocation) : LogLevel := if i.settings.verbose then .debug else .warn

end Invocation

/-- What is left when a command line has been run. -/
structure Outcome where
  code : UInt32
  printed : String := ""
  complaints : String := ""
  deriving DecidableEq

def versionLine : String := "fivebind 0.1.0\n"

def usageText : String :=
  Text.unlines [
    "Usage: fivebind [--config <CONFIG>] [-v] <COMMAND>",
    "",
    "Commands:",
    "  init [--header <HEADER>]",
    "  generate [--output <OUTPUT>] [--module <MODULE>]... [--dry-run]",
    "  list [--format <FORMAT>]",
    "  check"]

def Stop.outcome : Stop → Outcome
  | usage => { code := 2, complaints := usageText }
  | version => { code := 0, printed := versionLine }
  | help => { code := 0, printed := usageText }

section

variable {m : Type → Type} [Monad m] [Disk m]

open Job

/-- Reads the configuration that is named, or the nearest one. -/
def Invocation.config (i : Invocation) (workingDir : Path) : Job m (Config × Path) := do
  match i.settings.config with
  | some path => loadConfig (workingDir.join path)
  | none =>
    match ← findConfig workingDir with
    | some found => return found
    | none => throw .noConfig

/-- What is done for an invocation in a working directory. -/
def Invocation.job (i : Invocation) (workingDir : Path) (provenance : Provenance) :
    Job m Unit := do
  match i.command with
  | .init => initProject workingDir (i.settings.header.getD standardHeader)
  | .generate =>
    let (c, base) ← i.config workingDir
    generate c base {
      output := i.settings.output.map workingDir.join
      selected := i.settings.modules
      dryRun := i.settings.dryRun } provenance
  | .list =>
    let (c, base) ← i.config workingDir
    listModules c base (i.settings.format.getD "text")
  | .check =>
    let (c, base) ← i.config workingDir
    check c base provenance

/-- The outcome of a job: the records that are shown, and the failure if there is one. -/
def outcomeOf (level : LogLevel) (result : Except Failure Unit) (t : Transcript) : Outcome :=
  let shown := String.join ((t.records.filter (·.isShown level)).map LogRecord.render)
  match result with
  | .ok _ => { code := 0, printed := t.printed, complaints := shown }
  | .error e =>
    { code := 1, printed := t.printed, complaints := shown ++ s!"error: {e.message}\n" }

def runCommandLine (args : List String) (workingDir : Path) (provenance : Provenance) :
    m Outcome := do
  match Invocation.parse args with
  | .error stop => return stop.outcome
  | .ok i =>
    let (result, transcript) ← (i.job workingDir provenance).start
    return outcomeOf i.logLevel result transcript

end

end ShapeBindings
