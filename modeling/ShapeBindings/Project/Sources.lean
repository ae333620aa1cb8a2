import ShapeBindings.Project.Job

/-!
# Configuration and source of a project

`findConfig` looks for the configuration in a directory and in those above it, and takes the nearest
one, good or bad. `Config.loadTable` reads the descriptors that it names. Relative paths in a
configuration are seen from the directory that it stands in.
-/

namespace ShapeBindings

def configFileName : String := "fivebind.toml"

section

variable {m : Type → Type} [Monad m] [Disk m]

open Job

/-- Reads a configuration. The second value is the directory that it stands in. -/
def loadConfig (path : Path) : Job m (Config × Path) := do
  let text ← orFail (.unreadableConfig path) (← request (Disk.readText path))
  let config ← orFail (.badConfig path) (Config.parse text)
  return (config, path.parent?.getD ⟨"."⟩)

/-- The first of some paths that leads to a file. -/
def firstFile : List Path → m (Option Path)
  | [] => return none
  | p :: ps => do if ← Disk.isFile p then return some p else firstFile ps

/-- Where a configuration may stand: in a directory, or in one above it. -/
def configPaths (start : Path) : List Path :=
  (start :: start.parents).map (·.join configFileName)

/-- Reads the nearest configuration, if there is one. -/
def findConfig (start : Path) : Job m (Option (Config × Path)) := do
  match ← request (firstFile (configPaths start)) with
  | some path => return some (← loadConfig path)
  | none => return none

/-- Reads the descriptors that a configuration in `base` names. -/
def Config.loadTable (c : Config) (base : Path) : Job m Table := do
  let path := base.join c.source.path
  let content ← request (Disk.readText path)
  match c.source with
  | .header _ =>
    let text ← orFail (.unreadableHeader path) content
    report (Header.records c.symbolPrefix text)
    orFail (.badHeader path) (Header.parse c.symbolPrefix text)
  | .table _ =>
    let text ← orFail (.unreadableTable path) content
    let file ← orFail (.badTable path) (TableFile.parse text)
    return file.descriptors

end

end ShapeBindings
