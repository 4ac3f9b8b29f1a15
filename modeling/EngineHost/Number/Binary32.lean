import EngineHost.Number.Binary64

/-!
# Short binary floating point

A 32-bit floating-point number is its bit pattern. Every such number is also one of 64 bits, and a
sum, product, quotient or root that is rounded to 64 bits first and to 32 bits then is the nearest
one, because the longer format has more than twice as many digits.
-/

namespace EngineHost

/-- A number in the IEEE 754 binary32 format, as its bit pattern. -/
structure Binary32 where
  bits : UInt32
deriving DecidableEq, Repr, Inhabited

namespace Binary32

def infinityBits : Nat := 0xff * 2 ^ 23

def ofMagnitude (neg : Bool) (magnitude : Nat) : Binary32 :=
  ⟨UInt32.ofNat (magnitude + if neg then 2 ^ 31 else 0)⟩

def nan : Binary32 := ⟨0x7fc00000⟩

/-- The number nearest to a signed quotient. -/
def ofRatio (neg : Bool) (num den : Nat) : Binary32 :=
  if num = 0 then ofMagnitude neg 0
  else
    let e := max (-149) (floorLog2 num den - 23)
    let q := roundDiv (num * 2 ^ (-e).toNat) (den * 2 ^ e.toNat)
    ofMagnitude neg (min infinityBits (q + (e + 149).toNat * 2 ^ 23))

def ofInt (n : Int) : Binary32 := ofRatio (n < 0) n.natAbs 1

def ofBinary64 (x : Binary64) : Binary32 :=
  if x.isNaN then nan
  else if x.isInfinite then ofMagnitude x.negative infinityBits
  else ofRatio x.negative x.ratio.1 x.ratio.2

def toBinary64 (x : Binary32) : Binary64 :=
  let neg := decide (0x80000000 ≤ x.bits)
  let magnitude := x.bits.toNat % 2 ^ 31
  let field : Nat := magnitude / 2 ^ 23
  let fraction : Nat := magnitude % 2 ^ 23
  if infinityBits < magnitude then .nan
  else if magnitude = infinityBits then .infinity neg
  else if field = 0 then .ofRatio neg fraction (2 ^ 149)
  else .ofRatio neg ((fraction + 2 ^ 23) * 2 ^ field) (2 ^ 150)

end Binary32

end EngineHost
