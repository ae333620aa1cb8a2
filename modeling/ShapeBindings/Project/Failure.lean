import ShapeBindings.Config
import ShapeBindings.Disk

/-!
# Failures of commands

Why a command does not do what it is asked to. `Failure.chain` tells it from the outside in: what
was being done, and then what went wrong there.
-/

namespace ShapeBindings

/-- Why a command fails. -/
inductive Failure where
  | noConfig
  | unreadableConfig (path : Path) (e : OsError)
  | badConfig (path : Path) (e : ConfigError)
  | unreadableHeader (path : Path) (e : OsError)
  | badHeader (path : Path) (e : Header.HeaderError)
  | unreadableTable (path : Path) (e : OsError)
  | badTable (path : Path) (e : TableFileError)
  /-- A selected module is not in the source. -/
  | unknownModule (name source : String)
  /-- A selected module has no convention. -/
  | noConvention (name : String)
  | wrapper (e : WrapperError)
  | unknownFormat (format : String)
  | configExists (path : Path)
  | unwritableConfig (path : Path) (e : OsError)
  /-- The directory of the units cannot be made. -/
  | directory (path : Path) (e : OsError)
  /-- No temporary file can be made in a directory. -/
  | temporary (dir : Path) (e : OsError)
  | unwritable (path : Path) (e : OsError)
  /-- The temporary file with the text of an output cannot take its place. The failure keeps it. -/
  | persist (path temp : Path) (e : OsError)
  deriving DecidableEq

namespace Failure

/-- What went wrong, from the outside in. -/
def chain : Failure → List String
  | noConfig => ["no fivebind.toml found (run `fivebind init` first)"]
  | unreadableConfig path e => [s!"reading {path.text}", e.message]
  | badConfig path e => [s!"parsing {path.text}", e.message]
  | unreadableHeader path e =>
    [s!"parsing header {path.text}", s!"I/O error: {e.message}", e.message]
  | badHeader path e => [s!"parsing header {path.text}", e.message]
  | unreadableTable path e =>
    [s!"loading table {path.text}", s!"I/O error: {e.message}", e.message]
  | badTable path .toml =>
    [s!"loading table {path.text}", TableFileError.toml.message, Toml.errorMessage]
  | badTable path e => [s!"loading table {path.text}", e.message]
  | unknownModule name source => [s!"module '{name}' not found in {source}"]
  | noConvention name => [s!"no calling convention configured for module '{name}'"]
  | wrapper e =>
    if e.isSchemaError then ["descriptor table failed schema validation", e.message]
    else [e.message]
  | unknownFormat format => [s!"unknown format '{format}' (expected text or json)"]
  | configExists path => [s!"'{path.text}' already exists"]
  | unwritableConfig path e => [s!"writing {path.text}", e.message]
  | directory path e => [s!"creating {path.text}", e.message]
  | temporary dir e => [s!"creating temporary file in {dir.text}", e.message]
  | unwritable path e => [s!"writing {path.text}", e.message]
  | persist path _ e =>
    [s!"persisting {path.text}", s!"failed to persist temporary file: {e.message}", e.message]

def message (f : Failure) : String := ": ".intercalate f.chain

/-- The temporary file that a failure keeps. -/
def temp? : Failure → Option Path
  | persist _ temp _ => some temp
  | _ => none

/-- Lets go of a failure. The temporary file that it keeps is removed. -/
def drop {m : Type → Type} [Monad m] [Disk m] (f : Failure) : m Unit :=
  match f.temp? with
  | some temp => Disk.remove temp
  | none => return ()

end Failure

end ShapeBindings
