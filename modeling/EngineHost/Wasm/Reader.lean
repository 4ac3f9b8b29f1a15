import EngineHost.Text.Utf8

/-!
# Reading modules byte by byte

A reader takes bytes from the front of a file and leaves the rest. Numbers are written in groups of
seven bits, the lowest first, each byte but the last with its high bit set.
-/

namespace EngineHost.Wasm

inductive Fault
  /-- The file ends before anything that is needed. -/
  | ended
  /-- The file ends in the middle of what is needed. -/
  | cut
  /-- A number needs more bits. -/
  | overflow (bits : Nat)
  /-- A byte that cannot stand there. -/
  | invalidByte (detail : Bytes)
  | plain (text : Bytes)
  /-- A fault in a part of the file. -/
  | within (part : Bytes) (cause : Fault)
deriving DecidableEq, Repr

def Fault.message : Fault → Bytes
  | ended => "EOF"
  | cut => "unexpected EOF"
  | overflow bits => "overflows a " ++ Bytes.ofNat bits ++ "-bit integer"
  | invalidByte detail => "invalid byte" ++ detail
  | plain text => text
  | within part cause => part ++ ": " ++ cause.message

abbrev Reader := StateT Bytes (Except Fault)

namespace Reader

/-- Names the part of the file in which a computation fails. -/
def inside {α : Type} (part : Bytes) (m : Reader α) : Reader α := fun s =>
  match m s with
  | .ok r => .ok r
  | .error f => .error (.within part f)

def byte : Reader UInt8 := fun
  | [] => .error .ended
  | b :: rest => .ok (b, rest)

def bytes (n : Nat) : Reader Bytes := fun s =>
  if n ≤ s.length then .ok (s.take n, s.drop n)
  else .error (if s.isEmpty then .ended else .cut)

/-- Up to `n` bytes of a file that has not ended. -/
def someBytes (n : Nat) : Reader Bytes := fun s =>
  if s.isEmpty then .error .ended else .ok (s.take n, s.drop n)

def left : Reader Nat := return (← get).length

/-- The rest of an unsigned number of 32 bits, in at most `groups` bytes. -/
def unsignedFrom : (groups shift sum : Nat) → Reader Nat
  | 0, _, _ => throw (.overflow 32)
  | groups + 1, shift, sum => do
    let b ← byte
    let sum := sum + (b &&& 0x7f).toNat * 2 ^ shift
    if 0x80 ≤ b then unsignedFrom groups (shift + 7) sum
    else if groups = 0 && b &&& 0xf0 != 0 then throw (.overflow 32)
    else return sum

def unsigned : Reader Nat := unsignedFrom 5 0 0

/-- The groups of a number, the lowest first. -/
def groups : Reader Bytes := fun s =>
  let more := s.takeWhile (0x80 ≤ ·)
  match s.drop more.length with
  | [] => .error (.within "readByte failed" .ended)
  | last :: rest => .ok (more ++ [last], rest)

/-- A signed number of `bits` bits in two's complement, as its bits. The unused bits of the last
possible group must repeat the sign. -/
def signed (bits : Nat) : Reader Nat := do
  let gs ← groups
  let count := gs.length
  let last := gs.getLastD 0
  let full := (gs.foldr (fun g n => (g &&& 0x7f).toNat + 128 * n) 0) % 2 ^ bits
  let value : Nat :=
    if 7 * count < bits && last &&& 0x40 != 0 then full + 2 ^ bits - 2 ^ (7 * count) else full
  let most : Nat := (bits + 6) / 7
  let unused := (last &&& 0x7f).toNat / 2 ^ (bits - 7 * (most - 1)) % 2 ^ (7 * most - bits - 1)
  let wanted := if 2 ^ (bits - 1) ≤ value then 2 ^ (7 * most - bits - 1) - 1 else 0
  if most < count || (count = most && unused != wanted) then throw (.overflow bits)
  return value

/-- The groups of a number, `most` at most. -/
def groupsUpTo : (most : Nat) → Reader Bytes
  | 0 => return []
  | most + 1 => do
    let b ← inside "readByte failed" byte
    if 0x80 ≤ b then return b :: (← groupsUpTo most) else return [b]

/-- A signed number of 33 bits in five groups at most. The bit behind the sign must repeat it. -/
def signed33 : Reader Int := do
  let gs ← groupsUpTo 5
  let last := gs.getLastD 0
  let full : Nat := (gs.foldr (fun g n => (g &&& 0x7f).toNat + 128 * n) 0) % 2 ^ 33
  let value : Nat :=
    if gs.length < 5 && last &&& 0x40 != 0 then full + 2 ^ 33 - 2 ^ (7 * gs.length) else full
  let negative := decide (2 ^ 32 ≤ value)
  if gs.length = 5 && (last &&& 0x20 != 0) != negative then throw (.overflow 33)
  return if negative then (value : Int) - 2 ^ 33 else value

/-- A text behind its length; `what` names it. -/
def text (what : Bytes) : Reader Bytes := do
  let size ← inside ("failed to read " ++ what ++ " size") unsigned
  let s ← inside ("failed to read " ++ what) (bytes size)
  if !Utf8.valid s then throw (.plain (what ++ " is not valid UTF-8"))
  return s

/-- `n` things one behind the other, each read by its number. -/
def repeated {α : Type} (m : Nat → Reader α) : (n : Nat) → (number : Nat) → Reader (List α)
  | 0, _ => return []
  | n + 1, number => do
    let a ← m number
    return a :: (← repeated m n (number + 1))

/-- Things behind their number. -/
def vector {α : Type} (m : Nat → Reader α) : Reader (List α) := do
  let n ← inside "get size of vector" unsigned
  repeated m n 0

end Reader

end EngineHost.Wasm
