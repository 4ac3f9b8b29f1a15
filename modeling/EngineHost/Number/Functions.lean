import EngineHost.Number.Binary64

/-!
# Functions of floating-point numbers

Roots, integral neighbours, and the lesser and the greater of two numbers. All of them are exact or
rounded once.
-/

namespace EngineHost

/-- The integral part of the root of a number below `2 ^ 128`, bit by bit. -/
def rootFloor (n : Nat) : Nat :=
  (List.range 64).reverse.foldl (fun s k => if (s + 2 ^ k) ^ 2 ≤ n then s + 2 ^ k else s) 0

namespace Binary64

def sub (x y : Binary64) : Binary64 := x.add y.neg

/-- The root. The mantissa is widened to an even power of two with so many digits that one more bit
for what is left over decides every rounding. -/
def sqrt (x : Binary64) : Binary64 :=
  if x.isNaN then nan
  else if x.isZero then x
  else if x.negative then nan
  else if x.isInfinite then x
  else
    let short := 124 - x.mantissa.log2
    let shift := if (x.exponent - short) % 2 = 0 then short else short + 1
    let m := x.mantissa * 2 ^ shift
    let s := rootFloor m
    let e := (x.exponent - shift) / 2 - 1
    let digits := 2 * s + if s ^ 2 = m then 0 else 1
    ofRatio false (digits * 2 ^ e.toNat) (2 ^ (-e).toNat)

/-- An integral number near by; its magnitude is that of a quotient, rounded in some way. -/
def integral (x : Binary64) (round : (num den : Nat) → Nat) : Binary64 :=
  if x.isNaN then nan
  else if x.isInfinite || x.ratio.2 = 1 then x
  else ofRatio x.negative (round x.ratio.1 x.ratio.2) 1

def trunc (x : Binary64) : Binary64 := x.integral fun num den => num / den

def floor (x : Binary64) : Binary64 :=
  x.integral fun num den => if x.negative then (num + den - 1) / den else num / den

def ceil (x : Binary64) : Binary64 :=
  x.integral fun num den => if x.negative then num / den else (num + den - 1) / den

/-- The nearest integral number; a tie goes to the even one. -/
def nearest (x : Binary64) : Binary64 := x.integral roundDiv

/-- The lesser of two numbers; of the zeros, the negative one. -/
def min (x y : Binary64) : Binary64 :=
  if x.isNaN || y.isNaN then nan
  else if x.less y || (x.equal y && x.negative) then x else y

/-- The greater of two numbers; of the zeros, the positive one. -/
def max (x y : Binary64) : Binary64 :=
  if x.isNaN || y.isNaN then nan
  else if y.less x || (x.equal y && !x.negative) then x else y

end Binary64

end EngineHost
