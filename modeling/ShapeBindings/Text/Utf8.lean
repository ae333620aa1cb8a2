/-!
# Reading UTF-8

`decode` reads a sequence of octets. Well-formed characters are read as such; each longest start of
a character that is not continued, and each octet that starts none, is one fault. `decode?` refuses
faults, `decodeLossy` writes a replacement character for each.
-/

namespace ShapeBindings.Text

/-- A character of which octets are still to come. -/
structure PartialChar where
  /-- How many octets are owed. -/
  owed : Nat
  /-- The least value of the next octet. -/
  least : Nat
  /-- The greatest value of the next octet. -/
  greatest : Nat
  /-- The bits read so far. -/
  bits : Nat

/-- The character that an octet above the ASCII ones starts, if it starts one. The bounds on the
second octet leave out overlong forms, surrogates and values past the last code point. -/
def PartialChar.start? (b : Nat) : Option PartialChar :=
  if 0xC2 ≤ b && b ≤ 0xDF then some ⟨1, 0x80, 0xBF, b - 0xC0⟩
  else if b == 0xE0 then some ⟨2, 0xA0, 0xBF, 0⟩
  else if b == 0xED then some ⟨2, 0x80, 0x9F, 0xD⟩
  else if 0xE1 ≤ b && b ≤ 0xEF then some ⟨2, 0x80, 0xBF, b - 0xE0⟩
  else if b == 0xF0 then some ⟨3, 0x90, 0xBF, 0⟩
  else if 0xF1 ≤ b && b ≤ 0xF3 then some ⟨3, 0x80, 0xBF, b - 0xF0⟩
  else if b == 0xF4 then some ⟨3, 0x80, 0x8F, 4⟩
  else none

/-- What an octet gives between two characters: a finished character or a fault, and the character
it leaves open. -/
def decodeStart (b : Nat) : List (Option Char) × Option PartialChar :=
  if b < 0x80 then ([some (Char.ofNat b)], none)
  else
    match PartialChar.start? b with
    | some p => ([], some p)
    | none => ([none], none)

/-- What an octet gives after the octets of `p`. One that cannot continue `p` makes it a fault and
is read anew. -/
def PartialChar.next (p : PartialChar) (b : Nat) : List (Option Char) × Option PartialChar :=
  if p.least ≤ b && b ≤ p.greatest then
    let bits := p.bits * 64 + (b - 0x80)
    if p.owed ≤ 1 then ([some (Char.ofNat bits)], none)
    else ([], some ⟨p.owed - 1, 0x80, 0xBF, bits⟩)
  else
    let (chars, rest) := decodeStart b
    (none :: chars, rest)

/-- The characters and faults of the octets that follow those of `pending`. -/
def decodeFrom (pending : Option PartialChar) : List UInt8 → List (Option Char)
  | [] => if pending.isSome then [none] else []
  | b :: bytes =>
    let (chars, rest) :=
      match pending with
      | some p => p.next b.toNat
      | none => decodeStart b.toNat
    chars ++ decodeFrom rest bytes

/-- The characters and faults of a sequence of octets. -/
def decode (bytes : List UInt8) : List (Option Char) := decodeFrom none bytes

def decode? (bytes : List UInt8) : Option (List Char) := (decode bytes).mapM id

/-- The text of octets, with a replacement character for each fault. -/
def decodeLossy (bytes : List UInt8) : List Char :=
  (decode bytes).map (·.getD (Char.ofNat 0xFFFD))

def encode (s : String) : List UInt8 := s.toUTF8.toList

end ShapeBindings.Text
