import EngineHost.Number.Functions
import EngineHost.Wasm.Value

/-!
# Arithmetic of fractions

Fractions come in two lengths. A function of fractions is one of exact numbers, rounded to the length;
a pattern that is no number goes through all of them, and a result that is undefined has one pattern.
-/

namespace EngineHost.Wasm

structure FractionFormat (w : Nat) where
  /-- The number of a pattern. -/
  read : BitVec w → Binary64
  /-- The pattern of the nearest number. -/
  write : Binary64 → BitVec w
  /-- The bits that all patterns have that are no numbers and went through a function. -/
  quiet : BitVec w

namespace FractionFormat

def short : FractionFormat 32 where
  read bits := Binary32.toBinary64 ⟨UInt32.ofBitVec bits⟩
  write x := (Binary32.ofBinary64 x).bits.toBitVec
  quiet := 0x7fc00000

def long : FractionFormat 64 where
  read bits := ⟨UInt64.ofBitVec bits⟩
  write x := x.bits.toBitVec
  quiet := 0x7ff8000000000000

variable {w : Nat} (F : FractionFormat w)

def isNaN (a : BitVec w) : Bool := (F.read a).isNaN

/-- The pattern of a result; that of an undefined one is negative. -/
def settled (x : Binary64) : BitVec w := if x.isNaN then BitVec.intMin w ||| F.quiet else F.write x

def map (f : Binary64 → Binary64) (a : BitVec w) : BitVec w :=
  if F.isNaN a then a ||| F.quiet else F.settled (f (F.read a))

/-- A function of two fractions. Of two patterns that are no numbers the first goes through. -/
def map₂ (f : Binary64 → Binary64 → Binary64) (a b : BitVec w) : BitVec w :=
  if F.isNaN a then a ||| F.quiet
  else if F.isNaN b then b ||| F.quiet
  else F.settled (f (F.read a) (F.read b))

def compare (f : Binary64 → Binary64 → Bool) (a b : BitVec w) : Bool := f (F.read a) (F.read b)

/-- The short fraction nearest to a long one. The first digits of a pattern that is no number stay. -/
def demote (a : BitVec 64) : BitVec 32 :=
  if long.isNaN a then
    ((a >>> 32).setWidth 32 &&& BitVec.intMin 32) ||| short.quiet |||
      ((a >>> 29).setWidth 32 &&& 0x3fffff)
  else short.write (long.read a)

/-- The long fraction of the same value as a short one. -/
def promote (a : BitVec 32) : BitVec 64 :=
  if short.isNaN a then
    ((a.setWidth 64 <<< 32) &&& BitVec.intMin 64) ||| long.quiet |||
      ((a.setWidth 64 &&& 0x3fffff) <<< 29)
  else long.write (short.read a)

end FractionFormat

end EngineHost.Wasm
