import EngineHost.Engine.Evaluation
import EngineHost.Engine.Interpreter

/-!
# Run reports

What a run prints: when it happened, what it computed or why it failed, and how it was made.
-/

namespace EngineHost

structure Metadata where
  start : Instant
  stop : Instant
  backend : Bytes := []
  /-- The name of the interpreter that was asked for. -/
  interpreter : Bytes := []
  /-- The size of the program's binary encoding. -/
  serializedBytes : UInt64 := 0
deriving DecidableEq, Repr, Inhabited

/-- The time from the start to the end of the run. -/
def Metadata.duration (m : Metadata) : Duration := m.stop.since m.start

inductive Outcome
  | success (evaluation : Evaluation)
  | failure (detail : Option Detail)
deriving Inhabited, Repr

structure Report where
  runId : Bytes
  timestamp : Instant
  outcome : Outcome
  metadata : Option Metadata := none
deriving Inhabited, Repr

namespace Report

def isSuccess (r : Report) : Bool := match r.outcome with
  | .success _ => true
  | .failure _ => false

def evaluation? (r : Report) : Option Evaluation := match r.outcome with
  | .success e => some e
  | .failure _ => none

/-- The JSON form of a detail; an empty code and empty details are left out. -/
def detailJson (d : Detail) : Except Json.Unsupported Json :=
  let members := [
    Json.member "message" (.string d.message),
    Json.member "type" (.string d.kind),
    Json.textMember "code" d.code]
  match d.details with
  | none | some [] => .ok (Json.objectOf members)
  | some entries => Json.objectAround [] "details" (Json.ofValue (.map entries)) members

def metadataJson (m : Metadata) : Except Json.Unsupported Json := do
  return Json.objectOf [
    Json.member "start_time" (← Json.ofInstant m.start),
    Json.member "end_time" (← Json.ofInstant m.stop),
    Json.textMember "backend" m.backend,
    Json.textMember "runtime" m.interpreter,
    if m.serializedBytes = 0 then none
      else Json.member "serialized_bytes" (.ofNat m.serializedBytes.toNat),
    Json.member "duration_ns" (.ofInt m.duration.nanoseconds.toInt)]

/-- A number that is left out when it is zero. -/
def rateMember (x : Binary64) : Except Json.Unsupported (Option (Bytes × Json)) :=
  if x.isZero then pure none else (Json.ofFloat x).map (Json.member "iterations_per_second")

def json (r : Report) : Except Json.Unsupported Json := do
  let timestamp ← Json.ofInstant r.timestamp
  let metadata ← r.metadata.mapM metadataJson
  match r.outcome with
  | .success e =>
    return Json.objectOf [
      Json.member "timestamp" timestamp,
      Json.member "evaluation" e.json,
      Json.optionalMember "metadata" metadata,
      Json.member "run_id" (.string r.runId),
      Json.member "status" (.string "success"),
      ← rateMember e.perSecond]
  | .failure d =>
    let front := [
      Json.member "timestamp" timestamp,
      Json.optionalMember "metadata" metadata]
    let back := [
      Json.member "run_id" (.string r.runId),
      Json.member "status" (.string "error")]
    match d with
    | none => return Json.objectOf (front ++ back)
    | some d => Json.objectAround front "error" (detailJson d) back

/-- A line of the text form: the label in a column of twelve. -/
def line (label : String) (value : Bytes) : Bytes :=
  Bytes.padRight 12 32 (Bytes.ofString label) ++ value ++ "\n"

def text (program : Bytes) (r : Report) : Bytes :=
  let head := line "program:" program
  let origin : Bytes := match r.metadata with
    | none => []
    | some m => line "backend:" m.backend ++ line "runtime:" m.interpreter
  let body : Bytes := match r.evaluation? with
    | none => []
    | some e =>
      line "result:" e.result ++
      line "iterations:" (Bytes.ofNat e.iterations.toNat) ++
      line "duration:" e.duration.text ++
      line "ips:" (Layout.fixed e.perSecond 2)
  let size : Bytes := match r.metadata with
    | none => []
    | some m => line "serialized:" (Bytes.ofNat m.serializedBytes.toNat ++ " bytes")
  let dump : Bytes := match r.evaluation? with
    | none => []
    | some e => if e.hasMemDump then "mem dump:\n" ++ e.memDump else []
  Bytes.chomp (head ++ origin ++ body ++ size ++ dump)

end Report

end EngineHost
