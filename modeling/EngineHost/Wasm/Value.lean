import EngineHost.Number.Binary32
import EngineHost.Wasm.Module

/-!
# Values

The values with which instructions compute. Fractions are kept as their bit patterns, and a reference
is the index of a function or nothing.
-/

namespace EngineHost.Wasm

inductive Value
  | i32 (n : BitVec 32)
  | i64 (n : BitVec 64)
  | f32 (bits : BitVec 32)
  | f64 (bits : BitVec 64)
  | v128 (bits : BitVec 128)
  | reference (function : Option Nat)
deriving DecidableEq, Inhabited, Repr

namespace Value

/-- The value with which a variable of a type starts. -/
def zero : ValueType → Value
  | .i32 => i32 0
  | .i64 => i64 0
  | .f32 => f32 0
  | .f64 => f64 0
  | .v128 => v128 0
  | .funcref | .externref => reference none

/-- The 32 bits of a short value; zero for values of other types. -/
def word : Value → BitVec 32
  | i32 n | f32 n => n
  | _ => 0

/-- The 64 bits of a long value; zero for values of other types. -/
def long : Value → BitVec 64
  | i64 n | f64 n => n
  | _ => 0

/-- The bits of a vector; zero for values of other types. -/
def vector : Value → BitVec 128
  | v128 n => n
  | _ => 0

def function? : Value → Option Nat
  | reference f => f
  | _ => none

def ofBool (b : Bool) : Value := i32 (if b then 1 else 0)

def toSingle (v : Value) : Binary64 := Binary32.toBinary64 ⟨UInt32.ofBitVec v.word⟩

def toDouble (v : Value) : Binary64 := ⟨UInt64.ofBitVec v.long⟩

def ofDouble (x : Binary64) : Value := f64 x.bits.toBitVec

/-- The bytes of a number, the lowest first. -/
def toBytes : Value → Bytes
  | i32 n | f32 n => Bytes.toLittleEndian 4 n.toNat
  | i64 n | f64 n => Bytes.toLittleEndian 8 n.toNat
  | v128 n => Bytes.toLittleEndian 16 n.toNat
  | reference _ => []

def ofBits (t : ValueType) (n : Nat) : Value :=
  match t with
  | .i32 => i32 (BitVec.ofNat 32 n)
  | .i64 => i64 (BitVec.ofNat 64 n)
  | .f32 => f32 (BitVec.ofNat 32 n)
  | .f64 => f64 (BitVec.ofNat 64 n)
  | .v128 => v128 (BitVec.ofNat 128 n)
  | .funcref | .externref => reference none

/-- The values of types that are passed as words; a vector takes two. -/
def ofWords : List ValueType → List UInt64 → List Value
  | [], _ => []
  | .v128 :: types, low :: high :: words =>
    ofBits .v128 (low.toNat + 2 ^ 64 * high.toNat) :: ofWords types words
  | t :: types, words => ofBits t (words.headD 0).toNat :: ofWords types words.tail

/-- The words as which a value is passed. A reference is passed as a word of which only the one to
nothing is known. -/
def toWords : Value → List UInt64
  | i32 n | f32 n => [UInt64.ofNat n.toNat]
  | i64 n | f64 n => [UInt64.ofBitVec n]
  | v128 n => [UInt64.ofNat n.toNat, UInt64.ofNat (n.toNat / 2 ^ 64)]
  | reference _ => [0]

end Value

/-- Why a function stops before its end. -/
inductive Trap
  | unreachable | outsideMemory | divisionByZero | integerOverflow | noInteger | outsideTable
  | wrongType
deriving DecidableEq, Inhabited, Repr

def Trap.message : Trap → Bytes
  | unreachable => "unreachable"
  | outsideMemory => "out of bounds memory access"
  | divisionByZero => "integer divide by zero"
  | integerOverflow => "integer overflow"
  | noInteger => "invalid conversion to integer"
  | outsideTable => "invalid table access"
  | wrongType => "indirect call type mismatch"

end EngineHost.Wasm
