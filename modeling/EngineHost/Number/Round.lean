/-!
# Rounding quotients

Every rounded number in this library, binary or decimal, is a quotient of natural numbers rounded
to the nearest integer, a half going to the even neighbour.
-/

-- A power or a sum of numbers is the core library's also where a module sees other instances.
attribute [instance(1100), default_instance 20000] instPowNat
attribute [instance(1100)] Zero.ofOfNat0

namespace EngineHost

/-- The integer nearest to `num / den`; a tie goes to the even one. -/
def roundDiv (num den : Nat) : Nat :=
  let q := num / den
  let r := num % den
  if 2 * r < den then q
  else if den < 2 * r then q + 1
  else if q % 2 = 0 then q else q + 1

/-- The largest integer `k` with `2 ^ k ≤ num / den`, for positive arguments. -/
def floorLog2 (num den : Nat) : Int :=
  let k : Int := (num.log2 : Int) - (den.log2 : Int)
  if den * 2 ^ k.toNat ≤ num * 2 ^ (-k).toNat then k else k - 1

end EngineHost
