import EngineHost.Cli.Flag
import EngineHost.Cli.Output
import EngineHost.Config.Loader
import EngineHost.Config.Params
import EngineHost.Log.Record

/-!
# Settings of a run

The flags that were written, by what they mean, and the configuration that they make of a file or
of the defaults. A flag that was not written changes nothing.
-/

namespace EngineHost.Cli

structure GlobalSettings where
  verbose : Bool := false
  format : Bytes := "text"
  /-- Where metrics are written; nowhere if empty. -/
  metricsFile : Bytes := []
deriving DecidableEq, Repr, Inhabited

namespace GlobalSettings

def ofGiven (given : Given) : GlobalSettings where
  verbose := (Flag.switchOf? given "verbose").getD false
  format := (Flag.valueOf? given "format").getD "text"
  metricsFile := (Flag.valueOf? given "metrics-file").getD []

def output (s : GlobalSettings) : Format where
  json := s.format == Bytes.ofString "json"
  verbose := s.verbose

/-- The least level of the log records that are shown. -/
def level (s : GlobalSettings) : Log.Level := if s.verbose then .debug else .warn

def metered (s : GlobalSettings) : Bool := !s.metricsFile.isEmpty

end GlobalSettings

/-- The settings of a command that loads a program, as far as they were written. -/
structure RunSettings where
  /-- The configuration file; none if empty. -/
  configFile : Bytes := []
  backend : Option Bytes := none
  wasmPath : Option Bytes := none
  runtime : Option Bytes := none
  memDump : Option Bool := none
  source : Option Bytes := none
  sample : Option Bytes := none
  params : List Bytes := []
deriving DecidableEq, Repr, Inhabited

namespace RunSettings

def ofGiven (given : Given) : RunSettings where
  configFile := (Flag.valueOf? given "config").getD []
  backend := Flag.valueOf? given "backend"
  wasmPath := Flag.valueOf? given "wasm"
  runtime := Flag.valueOf? given "runtime"
  memDump := Flag.switchOf? given "mem-dump"
  source := Flag.valueOf? given "source"
  sample := Flag.valueOf? given "sample"
  params := Flag.valuesOf given "param"

/-- How configurations of commands are loaded: every check applies. -/
def loader : Config.Loader := { checks := some [.fields, .schema] }

def base (s : RunSettings) (read : Bytes → Except Fault Bytes) : Except Fault RunConfig :=
  if s.configFile.isEmpty then .ok RunConfig.standard
  else loader.loadFile (read s.configFile)

/-- Applies the flags other than parameters. A source takes the place of a sample and the other way
round; if both are written, the sample stays. -/
def overlay (s : RunSettings) (c : RunConfig) : RunConfig :=
  let c := { c with
    backend := s.backend.getD c.backend
    wasmPath := s.wasmPath.getD c.wasmPath
    runtime := s.runtime.getD c.runtime
    memDump := s.memDump.getD c.memDump }
  let c := match s.source with
    | some path => { c with source := path, sample := [] }
    | none => c
  match s.sample with
  | some name => { c with sample := name, source := [] }
  | none => c

/-- Puts the parameters written on top of those of a configuration. -/
def addParams (s : RunSettings) (c : RunConfig) : Except Fault RunConfig :=
  if s.params.isEmpty then .ok c
  else do
    let given ← Params.ofPairs s.params
    return { c with params := some (Params.merge (c.params.getD []) given) }

def resolve (s : RunSettings) (read : Bytes → Except Fault Bytes) : Except Fault RunConfig := do
  let c ← s.addParams (s.overlay (← s.base read))
  loader.validate (some c)
  return c

end RunSettings

end EngineHost.Cli
