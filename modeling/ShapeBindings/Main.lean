import ShapeBindings.CommandLine
import Std.Time.DateTime.Timestamp

/-!
# The program

Runs a command line on the machine's own files. Everything that is decided is decided elsewhere:
this module passes requests to the system and texts to the standard streams.
-/

namespace ShapeBindings

/-- The number of a system error. Some come with a minus sign. -/
def errorNumber (code : UInt32) : Nat := code.toInt32.toInt.natAbs

/-- The number and the text of a system error. -/
def systemError : IO.Error → Nat × String
  | .alreadyExists _ code text => (errorNumber code, text)
  | .otherError code text => (errorNumber code, text)
  | .resourceBusy code text => (errorNumber code, text)
  | .resourceVanished code text => (errorNumber code, text)
  | .unsupportedOperation code text => (errorNumber code, text)
  | .hardwareFault code text => (errorNumber code, text)
  | .unsatisfiedConstraints code text => (errorNumber code, text)
  | .illegalOperation code text => (errorNumber code, text)
  | .protocolError code text => (errorNumber code, text)
  | .timeExpired code text => (errorNumber code, text)
  | .interrupted _ code text => (errorNumber code, text)
  | .noFileOrDirectory _ code text => (errorNumber code, text)
  | .invalidArgument _ code text => (errorNumber code, text)
  | .permissionDenied _ code text => (errorNumber code, text)
  | .resourceExhausted _ code text => (errorNumber code, text)
  | .inappropriateType _ code text => (errorNumber code, text)
  | .noSuchThing _ code text => (errorNumber code, text)
  | .unexpectedEof => (0, "unexpected end of file")
  | .userError text => (0, text)

def OsError.ofSystem (e : IO.Error) : OsError :=
  match systemError e with
  | (2, _) => .notFound
  | (17, _) => .alreadyExists
  | (20, _) => .notDirectory
  | (21, _) => .isDirectory
  | (36, _) => .nameTooLong
  | (code, text) => .other code text

/-- Makes a request of the system about a path. -/
def askSystem {α : Type} (p : Path) (act : String → IO α) : BaseIO (Except OsError α) := do
  if p.text.toList.contains (Char.ofNat 0) then return .error .nulInPath
  match ← (act p.text).toBaseIO with
  | .ok a => return .ok a
  | .error e => return .error (.ofSystem e)

/-- What kind of thing a path leads to. -/
def fileType (p : Path) : BaseIO (Option IO.FS.FileType) := do
  match ← askSystem p fun path => do return (← (← IO.FS.realPath path).metadata).type with
  | .ok type => return some type
  | .error _ => return none

/-- Makes a file of a random name in a directory, with so many attempts. -/
def makeSystemTemp (dir : Path) : Nat → BaseIO (Except OsError Path)
  | 0 => return .error .alreadyExists
  | attempts + 1 => do
    let path := dir.join s!".tmp{← IO.rand 100000 999999}"
    match ← askSystem path fun path => discard (IO.FS.Handle.mk path .writeNew) with
    | .ok _ => return .ok path
    | .error .alreadyExists => makeSystemTemp dir attempts
    | .error e => return .error e

instance : Disk BaseIO where
  isThere p := return (← fileType p).isSome
  isFile p := return (← fileType p) matches some .file
  isDir p := return (← fileType p) matches some .dir
  read p := askSystem p fun path => return (← IO.FS.readBinFile path).toList
  write p content := askSystem p fun path => IO.FS.writeBinFile path (ByteArray.mk content.toArray)
  makeDir p := askSystem p fun path => IO.FS.createDir path
  makeTemp dir := makeSystemTemp dir 100
  rename p q := askSystem q fun target => IO.FS.rename p.text target
  remove p := discard (askSystem p fun path => IO.FS.removeFile path)

end ShapeBindings

open ShapeBindings in
def main (args : List String) : IO UInt32 := do
  let workingDir : Path := ⟨(← IO.currentDir).toString⟩
  let user := userName (← IO.getEnv "USER") (← IO.getEnv "USERNAME")
  let now ← Std.Time.Timestamp.now
  let provenance := Provenance.atTime now.toSecondsSinceUnixEpoch.val user
  let outcome ← (runCommandLine args workingDir provenance : BaseIO Outcome)
  IO.print outcome.printed
  IO.eprint outcome.complaints
  return outcome.code
