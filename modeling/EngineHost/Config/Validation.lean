import EngineHost.Config.RunConfig

/-!
# Validation of configurations

Two checks: the rules on single fields and their combinations, of which the first that is broken
is reported, and the published schema, which knows only the values of single fields.
-/

namespace EngineHost.Config

def backendNames : List String := ["native", "wasm"]

def runtimeNames : List String := ["rust", "c"]

def rejected (field : String) (reason : Bytes) : Except Fault Unit :=
  .error (.config (Bytes.ofString field) (some (.plain reason)))

def notOneOf (value : Bytes) (allowed : List String) : Bytes :=
  Quoted.text value ++ " is not one of [" ++ Bytes.join " " (allowed.map Bytes.ofString) ++ "]"

def oneOf (value : Bytes) (allowed : List String) : Bool :=
  (allowed.map Bytes.ofString).contains value

/-- The rules on fields, in the order in which they are reported. -/
def checkFields (c : RunConfig) : Except Fault Unit := do
  if c.backend.isEmpty then rejected "backend" "is required"
  if !oneOf c.backend backendNames then rejected "backend" (notOneOf c.backend backendNames)
  if c.backend = "wasm" && c.wasmPath.isEmpty then
    rejected "wasm_path" "is required when Backend wasm"
  if !c.runtime.isEmpty && !oneOf c.runtime runtimeNames then
    rejected "runtime" (notOneOf c.runtime runtimeNames)
  if c.source.isEmpty && c.sample.isEmpty then
    rejected "source" "is required when sample is not set"
  if !c.source.isEmpty && !c.sample.isEmpty then
    rejected "source" "cannot be combined with sample"

/-- A value that is not among those a schema lists. -/
def mustBeOneOf (allowed : List String) : Bytes :=
  "value must be one of " ++ Bytes.join ", " (allowed.map fun s => Json.quote (Bytes.ofString s))

/-- The published schema. A configuration without a JSON form cannot be checked against it. -/
def checkSchema (c : RunConfig) : Except Fault Unit := do
  match c.json with
  | .error u =>
    .error (.config [] (some (.wrap "failed to prepare validation object" (.plain u.message))))
  | .ok _ =>
    if !oneOf c.backend backendNames then rejected "backend" (mustBeOneOf backendNames)
    if !oneOf c.runtime runtimeNames then rejected "runtime" (mustBeOneOf runtimeNames)

inductive Check
  | fields
  | schema
deriving DecidableEq, Repr

/-- Puts a configuration to a check; a missing one fails every check. -/
def Check.run (check : Check) : Option RunConfig → Except Fault Unit
  | none => .error (.config [] (some (.plain "configuration is nil")))
  | some c => match check with
    | fields => checkFields c
    | schema => checkSchema c

/-- Puts a configuration to several checks, of which the first that fails counts. -/
def runChecks (checks : List Check) (c : Option RunConfig) : Except Fault Unit :=
  checks.forM fun check => check.run c

end EngineHost.Config
