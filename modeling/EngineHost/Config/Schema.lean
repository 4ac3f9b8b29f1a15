import EngineHost.Config.Validation

/-!
# Published schemas

The JSON schemas of the configuration file and of the records that reports are made of. A record
is an object with a fixed set of properties, some of them required.
-/

namespace EngineHost.Config

structure Property where
  name : String
  /-- The kind of its values. -/
  type : String
  required : Bool := false
  /-- The values allowed; every value if there are none. -/
  allowed : List String := []
  default : Option String := none
deriving Repr, DecidableEq

def Property.json (p : Property) : Json :=
  Json.objectOf [
    Json.member "type" (.string (Bytes.ofString p.type)),
    if p.allowed.isEmpty then none
      else Json.member "enum" (.array (p.allowed.map fun s => .string (Bytes.ofString s))),
    p.default.bind fun s => Json.member "default" (.string (Bytes.ofString s))]

structure Schema where
  /-- The last part of its identifier. -/
  id : String
  properties : List Property
  title : Option String := none
  description : Option String := none
deriving Repr, DecidableEq

namespace Schema

def required (s : Schema) : List String := (s.properties.filter (·.required)).map (·.name)

def json (s : Schema) : Json :=
  let string (t : String) : Json := .string (Bytes.ofString t)
  Json.objectOf [
    Json.member "$schema" (string "https://json-schema.org/draft/2020-12/schema"),
    Json.member "$id"
      (string ("https://github.com/hvm-interop/hvm-go/domain/entities/" ++ s.id)),
    Json.member "properties"
      (.object (s.properties.map fun p => (Bytes.ofString p.name, p.json))),
    Json.member "additionalProperties" (.bool false),
    Json.member "type" (string "object"),
    Json.member "required" (.array (s.required.map string)),
    s.title.bind fun t => Json.member "title" (string t),
    s.description.bind fun t => Json.member "description" (string t)]

def text (s : Schema) : Bytes := s.json.indented 0

def runConfig : Schema where
  id := "run-config"
  properties := [
    { name := "backend", type := "string", required := true, allowed := backendNames,
      default := some "wasm" },
    { name := "wasm_path", type := "string" },
    { name := "runtime", type := "string", required := true, allowed := runtimeNames,
      default := some "rust" },
    { name := "mem_dump", type := "boolean" },
    { name := "source", type := "string" },
    { name := "sample", type := "string" },
    { name := "params", type := "object" }]

def configFile : Schema :=
  { runConfig with
    title := some "hvm run configuration"
    description := some "Selects the engine backend, the program and how it is evaluated." }

def evaluation : Schema where
  id := "evaluation-result"
  properties := [
    { name := "result", type := "string", required := true },
    { name := "mem_dump", type := "string" },
    { name := "iterations", type := "integer", required := true },
    { name := "duration_ns", type := "integer", required := true }]

def detail : Schema where
  id := "error-detail"
  properties := [
    { name := "details", type := "object" },
    { name := "message", type := "string", required := true },
    { name := "type", type := "string", required := true },
    { name := "code", type := "string" }]

def event : Schema where
  id := "lifecycle-event"
  properties := [
    { name := "Kind", type := "string", required := true },
    { name := "Type", type := "string", required := true }]

end Schema

end EngineHost.Config
