import ShapeBindings.Path
import ShapeBindings.Text.Utf8

/-!
# Access to files

`Disk m` lists the requests that the generator makes of a file system, for whatever `m` answers
them: the machine that it runs on, or a model of one. What consists of several requests is defined
over these: `Disk.makeDirs` makes a directory with all above it, `Disk.readText` reads a text.
-/

namespace ShapeBindings

inductive OsError where
  | notFound
  | alreadyExists
  | notDirectory
  | isDirectory
  | nameTooLong
  /-- A path holds a NUL. -/
  | nulInPath
  /-- A file that should hold a text is not well-formed UTF-8. -/
  | notText
  /-- Anything else, with the number and the text that the system gives. -/
  | other (code : Nat) (text : String)
  deriving DecidableEq

def OsError.message : OsError → String
  | notFound => "No such file or directory (os error 2)"
  | alreadyExists => "File exists (os error 17)"
  | notDirectory => "Not a directory (os error 20)"
  | isDirectory => "Is a directory (os error 21)"
  | nameTooLong => "File name too long (os error 36)"
  | nulInPath => "file name contained an unexpected NUL byte"
  | notText => "stream did not contain valid UTF-8"
  | other code text => s!"{text} (os error {code})"

/-- The requests that the generator makes of a file system. -/
class Disk (m : Type → Type) where
  /-- Whether a path leads to something. -/
  isThere : Path → m Bool
  isFile : Path → m Bool
  isDir : Path → m Bool
  read : Path → m (Except OsError (List UInt8))
  /-- Sets the content of a file and makes the file if needed. -/
  write : Path → List UInt8 → m (Except OsError Unit)
  makeDir : Path → m (Except OsError Unit)
  /-- Makes an empty file of a new name in a directory. -/
  makeTemp : Path → m (Except OsError Path)
  /-- Gives a file the place of another path, and so takes what was there away, in one step. -/
  rename : Path → Path → m (Except OsError Unit)
  /-- Removes a file, if it is there. -/
  remove : Path → m Unit

namespace Disk

variable {m : Type → Type} [Monad m] [Disk m]

def readText (p : Path) : m (Except OsError String) := do
  match ← read p with
  | .error e => return .error e
  | .ok bytes =>
    match Text.decode? bytes with
    | some text => return .ok (String.ofList text)
    | none => return .error .notText

/-- Makes a directory, after those above it if they are missing; `above` lists them from the nearest
on. One that is there already will do. -/
def makeDirsFrom (p : Path) (above : List Path) : m (Except OsError Unit) := do
  if p.text.isEmpty then return .ok ()
  match ← makeDir p with
  | .ok _ => return .ok ()
  | .error .notFound =>
    match above with
    | [] => return .error .notFound
    | q :: further =>
      match ← makeDirsFrom q further with
      | .error e => return .error e
      | .ok _ =>
        match ← makeDir p with
        | .ok _ => return .ok ()
        | .error e => if ← isDir p then return .ok () else return .error e
  | .error e => if ← isDir p then return .ok () else return .error e

/-- Makes a directory and the missing ones above it. -/
def makeDirs (p : Path) : m (Except OsError Unit) := makeDirsFrom p p.parents

end Disk

end ShapeBindings
