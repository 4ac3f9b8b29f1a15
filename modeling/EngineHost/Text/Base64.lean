import EngineHost.Text.Bytes

/-!
# Base 64

The standard alphabet with required padding; line ends may stand anywhere.
-/

namespace EngineHost.Base64

def digit? (b : UInt8) : Option Nat :=
  if 65 ≤ b ∧ b ≤ 90 then some (b.toNat - 65)
  else if 97 ≤ b ∧ b ≤ 122 then some (b.toNat - 71)
  else if 48 ≤ b ∧ b ≤ 57 then some (b.toNat + 4)
  else if b = 43 then some 62
  else if b = 47 then some 63
  else none

/-- The first `n` of the three bytes that four digits stand for. -/
def group (a b c d n : Nat) : Bytes :=
  let word := ((a * 64 + b) * 64 + c) * 64 + d
  [(word / 65536).toUInt8, (word / 256).toUInt8, word.toUInt8].take n

/-- The bytes of digits in groups of four, of which only the last may be padded. -/
def groups? : Bytes → Option Bytes
  | [] => some []
  | [a, b, 61, 61] => do return group (← digit? a) (← digit? b) 0 0 1
  | [a, b, c, 61] => do return group (← digit? a) (← digit? b) (← digit? c) 0 2
  | a :: b :: c :: d :: rest => do
    return group (← digit? a) (← digit? b) (← digit? c) (← digit? d) 3 ++ (← groups? rest)
  | _ => none

def decode? (s : Bytes) : Option Bytes := groups? (s.filter fun b => b != 10 && b != 13)

end EngineHost.Base64
