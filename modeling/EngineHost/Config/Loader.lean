import EngineHost.Config.Document
import EngineHost.Config.Validation

/-!
# Loading configurations

A configuration is a document on top of defaults, validated as a whole.
-/

namespace EngineHost.Config

structure Loader where
  base : RunConfig := RunConfig.standard
  /-- The checks to pass; without any list, not even the interpreter's name is looked at. -/
  checks : Option (List Check) := some [.fields]
deriving Inhabited

def parse (s : Bytes) (base : RunConfig) : Except Fault RunConfig :=
  match Document.read s base with
  | .ok c => .ok c
  | .error f => .error (.wrap "failed to parse run config" (.plain f.message))

namespace Loader

/-- Validates a configuration, its interpreter last. -/
def validate (l : Loader) (c : Option RunConfig) : Except Fault Unit :=
  match l.checks with
  | none => .ok ()
  | some checks => do
    runChecks checks c
    match (c.getD {}).interpreter with
    | .ok _ => .ok ()
    | .error f => .error (.config "runtime" (some f))

def load (l : Loader) (s : Bytes) : Except Fault RunConfig :=
  match parse s l.base with
  | .error f => .error (.config [] (some f))
  | .ok c => do
    l.validate (some c)
    return c

/-- Loads a file, given as its contents or the reason why it cannot be read. -/
def loadFile (l : Loader) : Except Fault Bytes → Except Fault RunConfig
  | .error f => .error (.config [] (some (.wrap "failed to read config" f)))
  | .ok s => l.load s

end Loader

end EngineHost.Config
