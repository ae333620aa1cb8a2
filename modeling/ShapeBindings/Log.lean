import ShapeBindings.Text.Terminal

/-!
# Log records

What the generator reports beside its results. Records are values: whoever runs a command decides
which of them are shown.
-/

namespace ShapeBindings

/-- How much a record matters, from least to most. -/
inductive LogLevel where
  | trace
  | debug
  | info
  | warn
  deriving DecidableEq

namespace LogLevel

def name : LogLevel → String
  | trace => "TRACE"
  | debug => "DEBUG"
  | info => "INFO"
  | warn => "WARN"

def rank : LogLevel → Nat
  | trace => 0
  | debug => 1
  | info => 2
  | warn => 3

end LogLevel

/-- The activity that a record is about. -/
inductive LogTopic where
  | header
  | wrapper
  | assembly
  | output
  deriving DecidableEq

def LogTopic.target : LogTopic → String
  | header => "fivebind_core::header"
  | wrapper => "fivebind_emit::emit"
  | assembly => "fivebind_emit::assemble"
  | output => "fivebind::commands::generate"

structure LogRecord where
  level : LogLevel
  topic : LogTopic
  message : String
  deriving DecidableEq

namespace LogRecord

/-- The level's name filled up with blanks to five characters. -/
def paddedLevel (r : LogRecord) : String :=
  r.level.name ++ String.ofList (List.replicate (5 - r.level.name.length) ' ')

/-- The message with every line after the first moved in by four blanks. -/
def indentedMessage (r : LogRecord) : List Char :=
  r.message.toList.flatMap fun c => if c = '\n' then "\n    ".toList else [c]

/-- The lines that show a record. A record whose text leaves a control sequence open may lose the
end of its last line to it, and the sequence ends with the record. -/
def render (r : LogRecord) : String :=
  let heading := s!"[{r.paddedLevel} {r.topic.target}] "
  String.ofList (Text.plain (heading.toList ++ r.indentedMessage ++ ['\n']))

/-- Whether a record matters at least as much as `level`. -/
def isShown (level : LogLevel) (r : LogRecord) : Bool := level.rank ≤ r.level.rank

end LogRecord

/-- What is reported over steps that are taken in order until one fails. -/
def recordsUntilFailure {α β ε : Type} :
    List α → (α → Except ε β) → (α → List LogRecord) → List LogRecord
  | [], _, _ => []
  | x :: xs, step, report =>
    report x ++
      match step x with
      | .ok _ => recordsUntilFailure xs step report
      | .error _ => []

end ShapeBindings
