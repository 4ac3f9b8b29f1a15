import EngineHost.Config.Validation
import EngineHost.Engine.Boundary
import EngineHost.Files.Basic

/-!
# Backends of the command line

A run names the backend through which it reaches the engine. Opening it gives a boundary, or a fault
that says why the engine is out of reach.
-/

namespace EngineHost.Cli

/-- How the option that selects the backend is described; `linked` tells whether the native engine
is part of this program. -/
def backendUsage (linked : Bool) : Bytes :=
  "engine backend (" ++ Bytes.join "|" (Config.backendNames.map Bytes.ofString) ++ ")" ++
    if linked then [] else Bytes.ofString "; native is not linked into this binary"

structure Backend (σ : Type) where
  boundary : Boundary σ
  state : σ
  /-- What closing it leads to; nothing if it cannot be closed. -/
  closing : Option (Except Fault Unit) := some (.ok ())

/-- An attempt to open a backend, with what was logged on the way. -/
structure Opening (σ : Type) where
  log : List Log.Record := []
  outcome : Except Fault (Backend σ)

inductive EngineModule
  /-- The demonstration module by its heap. -/
  | demo (heap : UInt32)
  /-- A module from the bytes of a file. -/
  | compiled (r : Guest.Running)

namespace EngineModule

def run (f : Guest.Export) (args : List UInt64) (e : EngineModule) (m : Guest.Memory) :
    Guest.Run EngineModule :=
  match e with
  | demo heap => (Guest.Demo.run f args heap m).map demo
  | compiled r => (r.run f args m).map compiled

def machine (e : EngineModule) (maxLog : UInt32) : Guest.Machine EngineModule where
  run := run
  label := match e with
    | demo _ => Guest.Export.name
    | compiled r => r.label
  maxLog := maxLog

/-- A fresh instance of an engine module. -/
def start (e : EngineModule) (maxStderr : Nat) : Guest.Instance EngineModule where
  guest := e
  memory := match e with
    | demo _ => Guest.Demo.initialMemory
    | compiled r => r.memory
  stderr := { limit := maxStderr }

def ofLoaded (l : Guest.Loaded) : EngineModule :=
  match l.running with
  | some r => compiled r
  | none => demo (Guest.Demo.start 0).guest

end EngineModule

/-- Opens the backend of a configuration. The native engine is not part of this program. -/
def openBackend (files : Files) (c : RunConfig) : Opening (Guest.Instance EngineModule) :=
  if c.backend = "native" then
    { outcome := .error (.load "native" (some
        (.wrap "built without cgo or the hvmnative tag" (.condition .unavailable)))) }
  else if c.backend = "wasm" then
    match files.read c.wasmPath with
    | .error f =>
      { outcome := .error (Guest.loadFault (.wrap "failed to read engine module" f)) }
    | .ok image =>
      let options : Guest.LoadOptions := {}
      let loaded := Guest.load options image
      { log := loaded.log
        outcome := loaded.outcome.map fun () =>
          let engine := EngineModule.ofLoaded loaded
          { boundary := Guest.boundary (engine.machine options.maxLog)
            state := engine.start options.maxStderr } }
  else
    { outcome := .error (.config "backend"
        (some (.plain ("unknown backend " ++ Quoted.text c.backend)))) }

end EngineHost.Cli
