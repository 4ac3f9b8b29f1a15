import EngineHost.Text.Utf8

/-!
# Reading quoted text

A quoted text may hold escapes: a letter for a control character, three octal digits or `\x` with
two hexadecimal digits for a byte, `\u` and `\U` with four and eight digits for a character. Between
backquotes every character stands for itself, and carriage returns are dropped.
-/

namespace EngineHost.Quoted

inductive Symbol
  | byte (b : UInt8)
  | char (c : Char)
deriving DecidableEq, Repr

namespace Symbol

def bytes : Symbol → Bytes
  | byte b => [b]
  | char c => Utf8.encode c

def code : Symbol → Nat
  | byte b => b.toNat
  | char c => c.toNat

end Symbol

/-- The value of exactly `count` digits of a base, and the rest. -/
def digits? (base : Nat) : (count : Nat) → (value : Nat) → Bytes → Option (Nat × Bytes)
  | 0, value, s => some (value, s)
  | _ + 1, _, [] => none
  | count + 1, value, b :: rest =>
    match Bytes.hexDigit? b with
    | some d => if d < base then digits? base count (base * value + d) rest else none
    | none => none

/-- The control characters that have a letter. -/
def control? (b : UInt8) : Option UInt8 :=
  match Char.ofNat b.toNat with
  | 'a' => some 7
  | 'b' => some 8
  | 'f' => some 12
  | 'n' => some 10
  | 'r' => some 13
  | 't' => some 9
  | 'v' => some 11
  | '\\' => some 92
  | _ => none

/-- A character by its number in hexadecimal digits. -/
def numbered? (count : Nat) (s : Bytes) : Option (Symbol × Bytes) :=
  match digits? 16 count 0 s with
  | some (n, rest) => if n.isValidChar then some (.char (Char.ofNat n), rest) else none
  | none => none

/-- A byte by its number in a base. -/
def numberedByte? (base count : Nat) (s : Bytes) : Option (Symbol × Bytes) :=
  match digits? base count 0 s with
  | some (n, rest) => if n < 256 then some (.byte n.toUInt8, rest) else none
  | none => none

/-- Reads what stands behind a backslash. -/
def escaped? (quote : UInt8) : Bytes → Option (Symbol × Bytes)
  | [] => none
  | b :: rest =>
    match control? b with
    | some c => some (.byte c, rest)
    | none =>
      if b = 120 then numberedByte? 16 2 rest
      else if b = 117 then numbered? 4 rest
      else if b = 85 then numbered? 8 rest
      else if 48 ≤ b ∧ b ≤ 55 then numberedByte? 8 3 (b :: rest)
      else if (b = 34 ∨ b = 39) ∧ b = quote then some (.byte b, rest)
      else none

/-- Reads one unit between quotes; the quote itself is none. -/
def unit? (quote : UInt8) : Bytes → Option (Symbol × Bytes)
  | [] => none
  | b :: rest =>
    if b = quote then none
    else if b = 92 then escaped? quote rest
    else if b < 0x80 then some (.byte b, rest)
    else
      match Utf8.front? (b :: rest) with
      | some (n, w) => some (.char (Char.ofNat n), rest.drop (w - 1))
      | none => some (.char Utf8.replacement, rest)

/-- Reads units up to the closing quote, behind which nothing stands. -/
def units? (quote : UInt8) : (fuel : Nat) → Bytes → Option Bytes
  | 0, _ => none
  | fuel + 1, s =>
    if s = [quote] then some []
    else
      match unit? quote s with
      | none => none
      | some (u, rest) => (units? quote fuel rest).map (u.bytes ++ ·)

/-- The text that stands between double quotes or backquotes. -/
def read? : Bytes → Option Bytes
  | 34 :: body => units? 34 body.length body
  | 96 :: body => some ((body.take (body.length - 1)).filter (· != 13))
  | _ => none

end EngineHost.Quoted
