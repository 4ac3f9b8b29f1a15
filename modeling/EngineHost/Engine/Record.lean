import EngineHost.Number.Binary64

/-!
# Evaluation records

The fixed-layout record through which the engine hands over the outcome of an evaluation. Its
addresses are owned by the record and mean nothing after it has been freed.
-/

namespace EngineHost

/-- An address on the engine's side of the boundary; zero is no address. -/
abbrev Ptr := UInt64

structure Record where
  iterations : UInt64 := 0
  seconds : Binary64 := ⟨0⟩
  result : Ptr := 0
  memDump : Ptr := 0
  /-- The engine's own release routine, which the host never calls. -/
  deallocator : Ptr := 0
deriving DecidableEq, Repr, Inhabited

end EngineHost
