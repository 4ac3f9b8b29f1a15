/-!
# Sets of code points

A property of code points is a list of closed ranges in increasing order.
-/

namespace EngineHost

abbrev Ranges := List (Nat × Nat)

/-- Whether a number lies in one of the ranges, which stand in increasing order. -/
def Ranges.has : Ranges → Nat → Bool
  | [], _ => false
  | (lo, hi) :: rest, n => if n < lo then false else n ≤ hi || Ranges.has rest n

end EngineHost
