import ShapeBindings.Project.Failure

/-!
# Jobs

A job makes requests of a file system, prints and reports, and may fail. What it has printed and
reported until then stays.
-/

namespace ShapeBindings

/-- What a job has printed and reported. -/
structure Transcript where
  printed : String := ""
  records : List LogRecord := []
  deriving DecidableEq

/-- A job over the requests that `m` answers. -/
abbrev Job (m : Type → Type) := ExceptT Failure (StateT Transcript m)

namespace Job

variable {m : Type → Type} [Monad m] {α ε : Type}

def request (x : m α) : Job m α := ExceptT.lift (StateT.lift x)

def report (records : List LogRecord) : Job m Unit :=
  modify fun t => { t with records := t.records ++ records }

def print (text : String) : Job m Unit :=
  modify fun t => { t with printed := t.printed ++ text }

def printLine (line : String) : Job m Unit := print (line ++ "\n")

/-- Goes on with a value or fails with what `failure` makes of an error. -/
def orFail (failure : ε → Failure) (x : Except ε α) : Job m α :=
  match x with
  | .ok a => return a
  | .error e => throw (failure e)

/-- The result of a job and its transcript. -/
def start (t : Job m α) : m (Except Failure α × Transcript) := StateT.run (ExceptT.run t) {}

end Job

end ShapeBindings
