import EngineHost.Engine.Interpreter
import EngineHost.Json.OfValue

/-!
# Run configurations

What a run needs to know: how the engine is reached, which program is loaded and how it is
evaluated.
-/

namespace EngineHost

structure RunConfig where
  backend : Bytes := []
  wasmPath : Bytes := []
  runtime : Bytes := []
  memDump : Bool := false
  source : Bytes := []
  sample : Bytes := []
  /-- The parameters of the program; nothing and no parameters are told apart. -/
  params : Option Params := none
deriving Inhabited, Repr

namespace RunConfig

def standard : RunConfig := { backend := "wasm", runtime := "rust" }

def interpreter (c : RunConfig) : Except Fault Interpreter := Interpreter.ofName c.runtime

/-- The JSON form of a configuration; empty members are left out, the backend and the runtime
never. -/
def json (c : RunConfig) : Except Json.Unsupported Json :=
  let members := [
    Json.member "backend" (.string c.backend),
    Json.textMember "wasm_path" c.wasmPath,
    Json.member "runtime" (.string c.runtime),
    if c.memDump then Json.member "mem_dump" (.bool true) else none,
    Json.textMember "source" c.source,
    Json.textMember "sample" c.sample]
  match c.params with
  | none | some [] => .ok (Json.objectOf members)
  | some params => Json.objectAround members "params" (Json.ofValue (.map params)) []

end RunConfig

end EngineHost
