import EngineHost.Number.Round

/-!
# Binary floating point

A 64-bit floating-point number is its bit pattern. Arithmetic is exact on the rational numbers that
finite patterns denote, followed by one rounding to nearest, ties to even.
-/

namespace EngineHost

/-- A number in the IEEE 754 binary64 format, as its bit pattern. -/
structure Binary64 where
  bits : UInt64
deriving DecidableEq, Repr, Inhabited

namespace Binary64

def negative (x : Binary64) : Bool := 0x8000000000000000 ≤ x.bits

def magnitudeBits (x : Binary64) : Nat := x.bits.toNat % 2 ^ 63

def infinityBits : Nat := 0x7ff * 2 ^ 52

def isNaN (x : Binary64) : Bool := infinityBits < x.magnitudeBits

def isInfinite (x : Binary64) : Bool := x.magnitudeBits == infinityBits

def isFinite (x : Binary64) : Bool := x.magnitudeBits < infinityBits

def isZero (x : Binary64) : Bool := x.magnitudeBits == 0

/-- The integer `m` of a finite number's magnitude `m * 2 ^ e`. -/
def mantissa (x : Binary64) : Nat :=
  let field : Nat := x.magnitudeBits / 2 ^ 52
  let fraction : Nat := x.magnitudeBits % 2 ^ 52
  if field = 0 then fraction else fraction + 2 ^ 52

/-- The integer `e` of a finite number's magnitude `m * 2 ^ e`. -/
def exponent (x : Binary64) : Int :=
  let field : Nat := x.magnitudeBits / 2 ^ 52
  if field = 0 then -1074 else (field : Int) - 1075

def ratio (x : Binary64) : Nat × Nat :=
  (x.mantissa * 2 ^ x.exponent.toNat, 2 ^ (-x.exponent).toNat)

def ofMagnitude (neg : Bool) (magnitude : Nat) : Binary64 :=
  ⟨UInt64.ofNat (magnitude + if neg then 2 ^ 63 else 0)⟩

def zero : Binary64 := ⟨0⟩

def infinity (neg : Bool) : Binary64 := ofMagnitude neg infinityBits

def nan : Binary64 := ⟨0x7ff8000000000001⟩

/-- The number nearest to a signed quotient. A rounded mantissa that reaches the next binade
carries into the exponent field, and one beyond the last binade is infinite. -/
def ofRatio (neg : Bool) (num den : Nat) : Binary64 :=
  if num = 0 then ofMagnitude neg 0
  else
    let e := max (-1074) (floorLog2 num den - 52)
    let q := roundDiv (num * 2 ^ (-e).toNat) (den * 2 ^ e.toNat)
    ofMagnitude neg (min infinityBits (q + (e + 1074).toNat * 2 ^ 52))

def ofNat (n : Nat) : Binary64 := ofRatio false n 1

def ofInt (n : Int) : Binary64 := ofRatio (n < 0) n.natAbs 1

def signedRatio (x : Binary64) : Int × Nat :=
  let (num, den) := x.ratio
  (if x.negative then -(num : Int) else num, den)

def neg (x : Binary64) : Binary64 := ofMagnitude (!x.negative) x.magnitudeBits

def mul (x y : Binary64) : Binary64 :=
  let sign := x.negative != y.negative
  if x.isNaN || y.isNaN then nan
  else if x.isInfinite || y.isInfinite then
    if x.isZero || y.isZero then nan else infinity sign
  else ofRatio sign (x.ratio.1 * y.ratio.1) (x.ratio.2 * y.ratio.2)

def div (x y : Binary64) : Binary64 :=
  let sign := x.negative != y.negative
  if x.isNaN || y.isNaN then nan
  else if x.isInfinite then if y.isInfinite then nan else infinity sign
  else if y.isInfinite then ofMagnitude sign 0
  else if y.isZero then if x.isZero then nan else infinity sign
  else ofRatio sign (x.ratio.1 * y.ratio.2) (x.ratio.2 * y.ratio.1)

def add (x y : Binary64) : Binary64 :=
  if x.isNaN || y.isNaN then nan
  else if x.isInfinite then
    if y.isInfinite && x.negative != y.negative then nan else x
  else if y.isInfinite then y
  else
    let (a, b) := x.signedRatio
    let (c, d) := y.signedRatio
    let num := a * d + c * b
    ofRatio (num < 0 || (num == 0 && x.negative && y.negative)) num.natAbs (b * d)

/-- The order of two numbers, absent when one of them is not a number. -/
def compare? (x y : Binary64) : Option Ordering :=
  if x.isNaN || y.isNaN then none
  else
    let key (z : Binary64) : Int := if z.negative then -(z.magnitudeBits : Int) else z.magnitudeBits
    some (compare (key x) (key y))

/-- Numerical equality: the two zeros are equal, and nothing equals a NaN. -/
def equal (x y : Binary64) : Bool := compare? x y == some .eq

def less (x y : Binary64) : Bool := compare? x y == some .lt

def lessEqual (x y : Binary64) : Bool := less x y || equal x y

def truncate (x : Binary64) : Int :=
  let (num, den) := x.ratio
  if x.negative then -((num / den : Nat) : Int) else ((num / den : Nat) : Int)

/-- The 64-bit integer part; a number outside the range becomes the least integer. -/
def toInt64 (x : Binary64) : Int64 :=
  if x.isFinite && -(2 ^ 63) ≤ x.truncate && x.truncate < 2 ^ 63 then Int64.ofInt x.truncate
  else Int64.minValue

end Binary64

end EngineHost
