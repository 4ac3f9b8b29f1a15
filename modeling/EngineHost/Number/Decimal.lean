import EngineHost.Number.Binary64
import EngineHost.Text.Bytes

/-!
# Decimal digits of a binary number

`Decimal.shortest` gives the fewest digits that read back as the same number, and of these the
nearest; `Decimal.places` and `Decimal.significant` round the exact value to a number of digits.
-/

namespace EngineHost

/-- The number `0.d₁d₂d₃… * 10 ^ point`. Zero has no digits. -/
structure Decimal where
  digits : List Nat
  point : Int
deriving DecidableEq, Repr

namespace Decimal

/-- The decimal digits of a number, most significant first; none for zero. -/
def digitsOf (n : Nat) : List Nat :=
  if n = 0 then [] else (Nat.toDigits 10 n).map fun c => c.toNat - 48

/-- The decimal `n * 10 ^ e` without trailing zeros. -/
def ofScaled (n : Nat) (e : Int) : Decimal :=
  let ds := digitsOf n
  if n = 0 then ⟨[], 0⟩
  else ⟨(ds.reverse.dropWhile (· == 0)).reverse, (ds.length : Int) + e⟩

/-- The largest `k` with `10 ^ k ≤ num / den`, for positive arguments. -/
def floorLog10 (num den : Nat) : Int :=
  let digits (n : Nat) : Int := ((Nat.toDigits 10 n).length : Int)
  let k := digits num - digits den
  if den * 10 ^ k.toNat ≤ num * 10 ^ (-k).toNat then k else k - 1

/-- The interval of numbers that round to a positive finite number, as numerators over a common
denominator, and whether the ends belong to it. The gap below a power of two is half as wide. -/
def interval (x : Binary64) : Nat × Nat × Nat × Bool :=
  let m := x.mantissa
  let e := x.exponent
  let up := 2 ^ (e - 2).toNat
  let den := 2 ^ (2 - e).toNat
  let below := if m = 2 ^ 52 ∧ x.magnitudeBits / 2 ^ 52 ≠ 1 then 1 else 2
  ((4 * m - below) * up, (4 * m + 2) * up, den, m % 2 = 0)

/-- Whether `n * 10 ^ k` lies in the interval. -/
def within (bounds : Nat × Nat × Nat × Bool) (n : Nat) (k : Int) : Bool :=
  let (lo, hi, den, closed) := bounds
  let num := n * 10 ^ k.toNat * den
  let scale := 10 ^ (-k).toNat
  if closed then lo * scale ≤ num && num ≤ hi * scale else lo * scale < num && num < hi * scale

/-- Tries grids of 1, 2, … digits and takes the first on which a neighbour of the value reads
back, the nearer one if both do. -/
def search (num den : Nat) (bounds : Nat × Nat × Nat × Bool) (top : Int) :
    (fuel : Nat) → Nat → Decimal
  | 0, digits => ofScaled (roundDiv (num * 10 ^ ((digits : Int) - 1 - top).toNat)
      (den * 10 ^ (top + 1 - (digits : Int)).toNat)) (top + 1 - (digits : Int))
  | fuel + 1, digits =>
    let k := top + 1 - (digits : Int)
    let a := num * 10 ^ (-k).toNat
    let b := den * 10 ^ k.toNat
    let near := roundDiv a b
    let floor := a / b
    if within bounds near k then ofScaled near k
    else if within bounds floor k then ofScaled floor k
    else if within bounds (floor + 1) k then ofScaled (floor + 1) k
    else search num den bounds top fuel (digits + 1)

/-- The fewest digits that read back as the magnitude of a finite number. -/
def shortest (x : Binary64) : Decimal :=
  if x.isZero then ⟨[], 0⟩
  else
    let (num, den) := x.ratio
    search num den (interval x) (floorLog10 num den) 17 1

/-- The magnitude of a finite number in units of `10 ^ -n`, rounded. -/
def unitsAt (x : Binary64) (n : Nat) : Nat :=
  let (num, den) := x.ratio
  roundDiv (num * 10 ^ n) den

/-- The magnitude of a finite number rounded to `n` places behind the point. -/
def places (x : Binary64) (n : Nat) : Decimal := ofScaled (unitsAt x n) (-(n : Int))

/-- The magnitude of a finite number rounded to `n` significant digits. -/
def significant (x : Binary64) (n : Nat) : Decimal :=
  if x.isZero then ⟨[], 0⟩
  else
    let (num, den) := x.ratio
    let k := floorLog10 num den + 1 - (n : Int)
    ofScaled (roundDiv (num * 10 ^ (-k).toNat) (den * 10 ^ k.toNat)) k

end Decimal

end EngineHost
