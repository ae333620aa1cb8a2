/-!
# Text for a terminal

A terminal obeys control characters and control sequences and shows the rest. `plain` keeps of a
text what is shown, so that it reads the same where there is no terminal.
-/

namespace ShapeBindings.Text

/-- Where in a control sequence a text is. -/
inductive Sequence where
  /-- After the escape character. -/
  | escape
  /-- After further characters of a sequence that is not one of the following. -/
  | escapeTail
  /-- In a command, which a character from `@` on ends. -/
  | command
  /-- At the start of a string for a device. -/
  | device
  /-- In the parameters of a string for a device. -/
  | deviceParameters
  /-- After the parameters of a string for a device. -/
  | deviceTail
  /-- In a string, which a terminator ends. -/
  | string
  /-- In a string for the operating system, which a bell ends. -/
  | systemString
  deriving DecidableEq

/-- Whether a character controls a terminal by itself. -/
def isControl (c : Char) : Bool := c.toNat < 0x20 || c.toNat == 0x7F

/-- Whether a control character lays a text out. These are kept. -/
def isLayout (c : Char) : Bool := c == '\t' || c == '\n' || c == '\x0C' || c == '\r'

/-- Whether the octets of a character hold the one that terminates a string. -/
def holdsTerminator (c : Char) : Bool := (String.utf8EncodeChar c).contains 0x9C

namespace Sequence

/-- What the character after the escape character starts, if the sequence does not end with it. -/
def introducedBy (c : Char) : Option Sequence :=
  if c ≤ '/' then some escapeTail
  else if c == '[' then some command
  else if c == ']' then some systemString
  else if c == 'P' then some device
  else if c == 'X' || c == '^' || c == '_' then some string
  else none

/-- Where the sequence is after an ASCII character that controls nothing by itself, if it goes
on. -/
def next (s : Sequence) (c : Char) : Option Sequence :=
  match s with
  | escape => introducedBy c
  | escapeTail => if c ≤ '/' then some escapeTail else none
  | command => if '@' ≤ c then none else some command
  | device =>
    if '@' ≤ c then some string else if c ≤ '/' then some deviceTail else some deviceParameters
  | deviceParameters =>
    if '<' ≤ c then some string else if c ≤ '/' then some deviceTail else some deviceParameters
  | deviceTail => if c ≤ '/' then some deviceTail else some string
  | string => some string
  | systemString => some systemString

/-- Whether layout inside the sequence is shown. -/
def showsLayout (s : Sequence) : Bool := s == escape || s == escapeTail || s == command

end Sequence

/-- How a text is read. -/
inductive Mode where
  | outside
  | inside (s : Sequence)
  /-- Inside a sequence that layout has interrupted: text is shown until a control character, after
  which the sequence goes on. A character outside ASCII ends the sequence. -/
  | interrupted (s : Sequence)
  deriving DecidableEq

namespace Mode

/-- Inside a sequence, or outside if it has ended. -/
def ofSequence? : Option Sequence → Mode
  | some s => inside s
  | none => outside

/-- Reads a character: how the text goes on, and whether the character is shown. -/
def step (m : Mode) (c : Char) : Mode × Bool :=
  if c == '\x1B' then (inside .escape, false)
  else if c == '\x18' || c == '\x1A' then (outside, false)
  else
    match m with
    | outside => (outside, !isControl c || isLayout c)
    | inside s =>
      if s.showsLayout && isLayout c then (interrupted s, true)
      else if isControl c then (if s == .systemString && c == '\x07' then outside else m, false)
      else if c.toNat < 0x80 then (ofSequence? (s.next c), false)
      else (if s == .string && holdsTerminator c then outside else m, false)
    | interrupted s =>
      if isLayout c then (m, true)
      else if isControl c then (inside s, false)
      else (if c.toNat < 0x80 then m else outside, true)

end Mode

/-- What is shown of a text that is read in a mode. -/
def plainFrom (m : Mode) : List Char → List Char
  | [] => []
  | c :: s =>
    let (next, isShown) := m.step c
    if isShown then c :: plainFrom next s else plainFrom next s

/-- What is shown of a text: the text without control sequences and without the control characters
that lay nothing out. -/
def plain (s : List Char) : List Char := plainFrom .outside s

end ShapeBindings.Text
