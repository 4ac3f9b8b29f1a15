import EngineHost.Json.OfValue
import EngineHost.Value.Basic

/-!
# What commands write

A command writes results, errors and remarks, either as text or as JSON documents, one a line.
Remarks are written only when they are asked for.
-/

namespace EngineHost.Cli

/-- What has been written so far: the output, and the diagnostics beside it. -/
structure Written where
  out : Bytes := []
  err : Bytes := []
deriving DecidableEq, Repr, Inhabited

namespace Written

def print (w : Written) (s : Bytes) : Written := { w with out := w.out ++ s }

def remark (w : Written) (s : Bytes) : Written := { w with err := w.err ++ s }

def append (w v : Written) : Written := ⟨w.out ++ v.out, w.err ++ v.err⟩

instance : Append Written := ⟨append⟩

end Written

/-- What a command shows: its form as text, and as a JSON document if it has one. -/
structure Payload where
  text : Bytes
  json : Option (Except Json.Unsupported Json)

namespace Payload

/-- A dynamic value; nothing at all is left out of a document. -/
def ofValue (v : Value) : Payload where
  text := v.display
  json := match v with
    | .null => none
    | v => some (Json.ofValue v)

def ofText (s : Bytes) : Payload := ⟨s, some (.ok (.string s))⟩

end Payload

structure Format where
  /-- Whether documents are written rather than text. -/
  json : Bool := false
  /-- Whether remarks and details are written. -/
  verbose : Bool := false
  /-- Whether remarks stay out of the output. -/
  separate : Bool := true
deriving DecidableEq, Repr, Inhabited

def Format.names : List String := ["text", "json"]

namespace Format

def document (j : Json) : Written := { out := j.render ++ "\n" }

def success (f : Format) (p : Payload) : Except Json.Unsupported Written :=
  if f.json then
    let status := [Json.member "status" (.string "ok")]
    match p.json with
    | none => .ok (document (Json.objectOf status))
    | some data => (Json.objectAround status "data" data []).map document
  else .ok { out := p.text ++ "\n" }

/-- Writes an error. Text shows the details only when remarks are asked for. -/
def error (f : Format) (code message : Bytes) (details : Option Value) :
    Except Json.Unsupported Written :=
  if f.json then
    let status := [Json.member "status" (.string "error")]
    let members := [Json.member "code" (.string code), Json.member "message" (.string message)]
    let failure := match details with
      | none => .ok (Json.objectOf members)
      | some v => Json.objectAround members "details" (Json.ofValue v) []
    (Json.objectAround status "error" failure []).map document
  else
    let head := "Error [" ++ code ++ "]: " ++ message ++ "\n"
    match details with
    | some v =>
      if f.verbose then .ok { out := head ++ "Details: " ++ v.display ++ "\n" }
      else .ok { out := head }
    | none => .ok { out := head }

def remark (f : Format) (s : Bytes) : Written :=
  if !f.verbose then {}
  else if f.separate then { err := s ++ "\n" }
  else { out := s ++ "\n" }

end Format

end EngineHost.Cli
