import ShapeBindings.Toml.Scanner

/-!
# Quoted strings

A basic string stands between quotes and has escapes, a literal one stands between apostrophes and
has none. Either may stand between tripled delimiters and then hold line breaks, which are read as
line feeds.
-/

namespace ShapeBindings.Toml

def hexValue? (c : Char) : Option Nat :=
  if '0' ≤ c ∧ c ≤ '9' then some (c.toNat - '0'.toNat)
  else if 'a' ≤ c ∧ c ≤ 'f' then some (c.toNat - 'a'.toNat + 10)
  else if 'A' ≤ c ∧ c ≤ 'F' then some (c.toNat - 'A'.toNat + 10)
  else none

/-- The character of a code point, unless it is a surrogate or too large. -/
def charOfCode? (n : Nat) : Option Char :=
  if n < 0xD800 ∨ (0xDFFF < n ∧ n < 0x110000) then some (Char.ofNat n) else none

/-- Where a scan stands within a basic string. -/
inductive QuotedState where
  /-- Between characters; `folding` if a backslash has ended the line before and only blanks have
  followed. -/
  | text (folding : Bool)
  | escape
  /-- In an escaped code point of which `owed + 1` digits are to come. -/
  | code (owed value : Nat)
  /-- After a backslash and blanks, before the line break that has to follow. -/
  | fold

/-- What a character after a backslash stands for, or how it goes on. -/
def escaped (c : Char) : Option (Char ⊕ QuotedState) :=
  match c with
  | 'b' => some (.inl (Char.ofNat 8))
  | 't' => some (.inl '\t')
  | 'n' => some (.inl '\n')
  | 'f' => some (.inl (Char.ofNat 12))
  | 'r' => some (.inl '\r')
  | '"' => some (.inl '"')
  | '\\' => some (.inl '\\')
  | 'u' => some (.inr (.code 3 0))
  | 'U' => some (.inr (.code 7 0))
  | _ => none

/-- What a digit of an escaped code point gives: the character after the last one. -/
def codeDigit (owed value : Nat) (c : Char) : Option (Char ⊕ QuotedState) := do
  let value := value * 16 + (← hexValue? c)
  match owed with
  | 0 => return .inl (← charOfCode? value)
  | n + 1 => return .inr (.code n value)

/-- Puts a character before what a scan has read. -/
def emit (c : Char) (scanned : Option (List Char × List Char)) : Option (List Char × List Char) :=
  scanned.map fun (text, rest) => (c :: text, rest)

/-- Reads a basic string of one line, after its opening quote. -/
def basicBody : QuotedState → List Char → Option (List Char × List Char)
  | _, [] => none
  | .text _, c :: s =>
    if c = '"' then some ([], s)
    else if c = '\\' then basicBody .escape s
    else if isPrintable c then emit c (basicBody (.text false) s)
    else none
  | .escape, c :: s =>
    match escaped c with
    | some (.inl d) => emit d (basicBody (.text false) s)
    | some (.inr state) => basicBody state s
    | none => none
  | .code owed value, c :: s =>
    match codeDigit owed value c with
    | some (.inl d) => emit d (basicBody (.text false) s)
    | some (.inr state) => basicBody state s
    | none => none
  | .fold, _ :: _ => none

/-- Up to two quotes that stand right after tripled ones belong to the string that those end. -/
def closingQuotes (quote : Char) : List Char → List Char × List Char
  | c :: d :: s =>
    if c = quote then if d = quote then ([c, d], s) else ([c], d :: s) else ([], c :: d :: s)
  | [c] => if c = quote then ([c], []) else ([], [c])
  | [] => ([], [])

/-- Reads a basic string of several lines, after its opening quotes and the line break that may
follow them. -/
def multilineBasicBody : QuotedState → List Char → Option (List Char × List Char)
  | _, [] => none
  | .text true, ' ' :: s => multilineBasicBody (.text true) s
  | .text true, '\t' :: s => multilineBasicBody (.text true) s
  | .text true, '\n' :: s => multilineBasicBody (.text true) s
  | .text true, '\r' :: '\n' :: s => multilineBasicBody (.text true) s
  | .text _, '"' :: '"' :: '"' :: s => some (closingQuotes '"' s)
  | .text _, '\n' :: s => emit '\n' (multilineBasicBody (.text false) s)
  | .text _, '\r' :: '\n' :: s => emit '\n' (multilineBasicBody (.text false) s)
  | .text _, '\\' :: s => multilineBasicBody .escape s
  | .text _, c :: s =>
    if isPrintable c then emit c (multilineBasicBody (.text false) s) else none
  | .escape, '\n' :: s => multilineBasicBody (.text true) s
  | .escape, '\r' :: '\n' :: s => multilineBasicBody (.text true) s
  | .escape, c :: s =>
    if isBlank c then multilineBasicBody .fold s
    else
      match escaped c with
      | some (.inl d) => emit d (multilineBasicBody (.text false) s)
      | some (.inr state) => multilineBasicBody state s
      | none => none
  | .code owed value, c :: s =>
    match codeDigit owed value c with
    | some (.inl d) => emit d (multilineBasicBody (.text false) s)
    | some (.inr state) => multilineBasicBody state s
    | none => none
  | .fold, '\n' :: s => multilineBasicBody (.text true) s
  | .fold, '\r' :: '\n' :: s => multilineBasicBody (.text true) s
  | .fold, c :: s => if isBlank c then multilineBasicBody .fold s else none

/-- Reads a literal string of one line, after its opening apostrophe. -/
def literalBody : List Char → Option (List Char × List Char)
  | [] => none
  | c :: s =>
    if c = '\'' then some ([], s)
    else if isPrintable c then emit c (literalBody s)
    else none

/-- Reads a literal string of several lines, after its opening apostrophes and the line break that
may follow them. -/
def multilineLiteralBody : List Char → Option (List Char × List Char)
  | [] => none
  | '\'' :: '\'' :: '\'' :: s => some (closingQuotes '\'' s)
  | '\n' :: s => emit '\n' (multilineLiteralBody s)
  | '\r' :: '\n' :: s => emit '\n' (multilineLiteralBody s)
  | c :: s => if isPrintable c then emit c (multilineLiteralBody s) else none

/-- The text without the line break that it starts with. -/
def dropNewline : List Char → List Char
  | '\n' :: s => s
  | '\r' :: '\n' :: s => s
  | s => s

def lineString : Scan String := fun s =>
  let scanned :=
    match s with
    | '"' :: rest => basicBody (.text false) rest
    | '\'' :: rest => literalBody rest
    | _ => none
  scanned.map fun (text, rest) => (String.ofList text, rest)

def quotedString : Scan String := fun s =>
  match s with
  | '"' :: '"' :: '"' :: rest =>
    (multilineBasicBody (.text false) (dropNewline rest)).map fun (text, rest) =>
      (String.ofList text, rest)
  | '\'' :: '\'' :: '\'' :: rest =>
    (multilineLiteralBody (dropNewline rest)).map fun (text, rest) =>
      (String.ofList text, rest)
  | s => lineString s

end ShapeBindings.Toml
