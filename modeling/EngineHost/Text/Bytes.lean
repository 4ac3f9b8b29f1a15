/-!
# Byte strings

Texts that cross the engine boundary are byte strings: they need not be well-formed UTF-8, so a
text is a list of bytes and a string literal stands for its UTF-8 encoding.
-/

namespace EngineHost

abbrev Bytes := List UInt8

namespace Bytes

def ofString (s : String) : Bytes := s.toByteArray.data.toList

/-- The UTF-8 encoding of a list of characters. -/
def ofChars (cs : List Char) : Bytes := cs.flatMap String.utf8EncodeChar

instance : Coe String Bytes := ⟨ofString⟩

def ofAscii (c : Char) : UInt8 := c.toNat.toUInt8

def ofNat (n : Nat) : Bytes := (Nat.toDigits 10 n).map ofAscii

/-- An integer in decimal, with a minus sign when it is negative. -/
def ofInt : Int → Bytes
  | .ofNat n => ofNat n
  | .negSucc n => ofAscii '-' :: ofNat (n + 1)

/-- A number in lower-case hexadecimal. -/
def ofHex (n : Nat) : Bytes := (Nat.toDigits 16 n).map ofAscii

/-- An address: `0x` and its hexadecimal digits. -/
def ofAddress (p : UInt64) : Bytes := "0x" ++ ofHex p.toNat

/-- Puts `fill` in front until the text has at least `width` bytes. -/
def padLeft (width : Nat) (fill : UInt8) (s : Bytes) : Bytes :=
  List.replicate (width - s.length) fill ++ s

/-- Puts `fill` behind until the text has at least `width` bytes. -/
def padRight (width : Nat) (fill : UInt8) (s : Bytes) : Bytes :=
  s ++ List.replicate (width - s.length) fill

/-- The two lower-case hexadecimal digits of a byte. -/
def hexByte (b : UInt8) : Bytes := padLeft 2 (ofAscii '0') (ofHex b.toNat)

/-- A byte string as lower-case hexadecimal digits. -/
def toHex (s : Bytes) : Bytes := s.flatMap hexByte

/-- Splits at the first occurrence of a byte, which is dropped. -/
def cut (sep : UInt8) : Bytes → Option (Bytes × Bytes)
  | [] => none
  | b :: rest =>
    if b = sep then some ([], rest)
    else (cut sep rest).map fun (before, after) => (b :: before, after)

def split (sep : UInt8) : Bytes → List Bytes
  | [] => [[]]
  | b :: rest =>
    if b = sep then [] :: split sep rest
    else match split sep rest with
      | [] => [[b]]
      | part :: parts => (b :: part) :: parts

/-- The lines of a text, without their newlines. -/
def lines (s : Bytes) : List Bytes := split 10 s

def join (sep : Bytes) : List Bytes → Bytes
  | [] => []
  | [s] => s
  | s :: rest => s ++ sep ++ join sep rest

def ofLines (lines : List String) : Bytes := join [10] (lines.map ofString)

/-- The text behind a leading part, when that part stands there. -/
def dropLeading? : (lead s : Bytes) → Option Bytes
  | [], s => some s
  | _ :: _, [] => none
  | a :: lead, b :: s => if a = b then dropLeading? lead s else none

def startsWith (s lead : Bytes) : Bool := (dropLeading? lead s).isSome

def contains : (s part : Bytes) → Bool
  | [], part => part.isEmpty
  | b :: s, part => startsWith (b :: s) part || contains s part

/-- Splits at the first occurrence of a mark, which is dropped. -/
def cutAt (mark : Bytes) : Bytes → Option (Bytes × Bytes)
  | [] => (dropLeading? mark []).map fun after => ([], after)
  | b :: rest =>
    match dropLeading? mark (b :: rest) with
    | some after => some ([], after)
    | none => (cutAt mark rest).map fun (before, after) => (b :: before, after)

/-- Drops every byte at the end that satisfies `p`. -/
def dropTrailing (p : UInt8 → Bool) (s : Bytes) : Bytes := (s.reverse.dropWhile p).reverse

def chomp (s : Bytes) : Bytes := dropTrailing (· == 10) s

/-- Byte order: lexicographic on the bytes. -/
def less : Bytes → Bytes → Bool
  | _, [] => false
  | [], _ :: _ => true
  | a :: s, b :: t => a < b || (a == b && less s t)

/-- ASCII letters in lower case, all other bytes unchanged. -/
def toLower (s : Bytes) : Bytes :=
  s.map fun b => if 65 ≤ b ∧ b ≤ 90 then b + 32 else b

def isDigit (b : UInt8) : Bool := 48 ≤ b && b ≤ 57

def digitsValue (s : Bytes) : Nat := s.foldl (fun n b => 10 * n + (b.toNat - 48)) 0

/-- The value of a hexadecimal digit in either case. -/
def hexDigit? (b : UInt8) : Option Nat :=
  if 48 ≤ b ∧ b ≤ 57 then some (b.toNat - 48)
  else if 97 ≤ b ∧ b ≤ 102 then some (b.toNat - 87)
  else if 65 ≤ b ∧ b ≤ 70 then some (b.toNat - 55)
  else none

def littleEndian : Bytes → Nat
  | [] => 0
  | b :: rest => b.toNat + 256 * littleEndian rest

/-- The little-endian byte sequence of a number in a given width. -/
def toLittleEndian : (width n : Nat) → Bytes
  | 0, _ => []
  | width + 1, n => (n % 256).toUInt8 :: toLittleEndian width (n / 256)

end Bytes

end EngineHost
