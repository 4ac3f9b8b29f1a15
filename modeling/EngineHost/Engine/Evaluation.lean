import EngineHost.Json.OfValue

/-!
# Evaluations

The outcome of evaluating a program, owned by the host: nothing in it refers to engine memory.
-/

namespace EngineHost

structure Evaluation where
  /-- The readback of the reduced program. -/
  result : Bytes := []
  /-- The engine's memory dump, empty unless it was requested. -/
  memDump : Bytes := []
  /-- The number of interactions performed. -/
  iterations : UInt64 := 0
  duration : Duration := ⟨0⟩
deriving DecidableEq, Repr, Inhabited

namespace Evaluation

/-- Interactions per second, zero for an evaluation that took no time. -/
def perSecond (e : Evaluation) : Binary64 :=
  let seconds := e.duration.seconds
  if Binary64.lessEqual seconds Binary64.zero then Binary64.zero
  else Binary64.div (Binary64.ofNat e.iterations.toNat) seconds

def hasMemDump (e : Evaluation) : Bool := !e.memDump.isEmpty

/-- The text of an evaluation on one line, the memory dump on lines of its own. -/
def text (e : Evaluation) : Bytes :=
  let dump : Bytes := if e.hasMemDump then "\n" ++ e.memDump else "<empty>"
  "\x7b Iterations = " ++ Bytes.ofNat e.iterations.toNat ++
    ", Duration = " ++ e.duration.text ++
    ", IPS = " ++ Layout.fixed e.perSecond 2 ++
    ", Result = " ++ e.result ++
    ", MemDump = " ++ dump ++ " \x7d"

/-- The JSON form; an absent memory dump is left out. -/
def json (e : Evaluation) : Json :=
  Json.objectOf [
    Json.member "result" (.string e.result),
    Json.textMember "mem_dump" e.memDump,
    Json.member "iterations" (.ofNat e.iterations.toNat),
    Json.member "duration_ns" (.ofInt e.duration.nanoseconds.toInt)]

end Evaluation

end EngineHost
