import EngineHost.Text.Bytes

/-!
# UTF-8

A byte string read from the front is a sequence of pieces: well-formed characters, and single
bytes that start none. Reading moves on by one byte after an ill-formed one, while `repair`
replaces each maximal ill-formed subpart by one replacement character.
-/

namespace EngineHost.Utf8

def encode (c : Char) : Bytes := String.utf8EncodeChar c

/-- The character that stands for undecodable input. -/
def replacement : Char := '�'

/-- A continuation byte. -/
def isTail (b : UInt8) : Bool := 0x80 ≤ b && b ≤ 0xbf

/-- The range that the second byte of a character with this lead byte must lie in: narrower than
all continuation bytes where a wider one would admit overlong forms, surrogates or numbers beyond
the last code point. -/
def secondRange (lead : UInt8) : UInt8 × UInt8 :=
  if lead = 0xe0 then (0xa0, 0xbf)
  else if lead = 0xed then (0x80, 0x9f)
  else if lead = 0xf0 then (0x90, 0xbf)
  else if lead = 0xf4 then (0x80, 0x8f)
  else (0x80, 0xbf)

/-- The number of bytes that a character with this lead byte has, 0 for a byte that leads none. -/
def width (lead : UInt8) : Nat :=
  if lead < 0x80 then 1
  else if 0xc2 ≤ lead ∧ lead ≤ 0xdf then 2
  else if 0xe0 ≤ lead ∧ lead ≤ 0xef then 3
  else if 0xf0 ≤ lead ∧ lead ≤ 0xf4 then 4
  else 0

/-- Whether the second byte may follow the lead byte. -/
def fits (lead second : UInt8) : Bool :=
  (secondRange lead).1 ≤ second && second ≤ (secondRange lead).2

/-- The code point and width of the character at the front, if a well-formed one stands there. -/
def front? : Bytes → Option (Nat × Nat)
  | [] => none
  | a :: rest =>
    match width a, rest with
    | 1, _ => some (a.toNat, 1)
    | 2, b :: _ =>
      if isTail b then some ((a.toNat - 0xc0) * 64 + (b.toNat - 0x80), 2) else none
    | 3, b :: c :: _ =>
      if fits a b && isTail c then
        some (((a.toNat - 0xe0) * 64 + (b.toNat - 0x80)) * 64 + (c.toNat - 0x80), 3)
      else none
    | 4, b :: c :: d :: _ =>
      if fits a b && isTail c && isTail d then
        some ((((a.toNat - 0xf0) * 64 + (b.toNat - 0x80)) * 64 + (c.toNat - 0x80)) * 64 +
          (d.toNat - 0x80), 4)
      else none
    | _, _ => none

/-- One step of reading: a character, or a byte that is part of none. -/
inductive Piece
  | char (c : Char)
  | stray (b : UInt8)
deriving DecidableEq, Repr

namespace Piece

def bytes : Piece → Bytes
  | char c => encode c
  | stray b => [b]

/-- The character of a piece; a stray byte reads as the replacement character. -/
def toChar : Piece → Char
  | char c => c
  | stray _ => replacement

end Piece

/-- Reads on after `skip` bytes that belong to the last character. -/
def piecesAfter : (skip : Nat) → Bytes → List Piece
  | _, [] => []
  | skip + 1, _ :: rest => piecesAfter skip rest
  | 0, a :: rest =>
    match front? (a :: rest) with
    | some (n, w) => .char (Char.ofNat n) :: piecesAfter (w - 1) rest
    | none => .stray a :: piecesAfter 0 rest

def pieces (s : Bytes) : List Piece := piecesAfter 0 s

/-- The characters of a byte string, the replacement character for every stray byte. -/
def chars (s : Bytes) : List Char := (pieces s).map Piece.toChar

/-- Whether a byte string is well-formed. -/
def valid (s : Bytes) : Bool := (pieces s).all fun
  | .char _ => true
  | .stray _ => false

/-- The string that a well-formed byte string encodes. -/
def toString? (s : Bytes) : Option String :=
  if valid s then some (String.ofList (chars s)) else none

/-- A byte string with the replacement character for every stray byte. -/
def scrub (s : Bytes) : Bytes := (chars s).flatMap encode

/-- The length of the longest start of a character at the front of an ill-formed byte string, at
least one byte. -/
def subpartLength : Bytes → Nat
  | [] => 0
  | a :: rest =>
    match width a, rest with
    | 3, b :: _ => if fits a b then 2 else 1
    | 4, b :: rest' =>
      if fits a b then
        match rest' with
        | c :: _ => if isTail c then 3 else 2
        | [] => 2
      else 1
    | _, _ => 1

/-- Repairs what follows after `skip` bytes that are already accounted for. -/
def repairAfter : (skip : Nat) → Bytes → Bytes
  | _, [] => []
  | skip + 1, _ :: rest => repairAfter skip rest
  | 0, a :: rest =>
    match front? (a :: rest) with
    | some (_, w) => (a :: rest).take w ++ repairAfter (w - 1) rest
    | none => encode replacement ++ repairAfter (subpartLength (a :: rest) - 1) rest

/-- A byte string with every maximal ill-formed subpart replaced by one replacement character. -/
def repair (s : Bytes) : Bytes := repairAfter 0 s

end EngineHost.Utf8
