import EngineHost.Cli.Command
import EngineHost.Cli.Output
import EngineHost.Cli.Settings
import EngineHost.Engine.Basic
import EngineHost.Log.Line
import EngineHost.Metrics.Exposition

/-!
# Work with an engine

A command opens a backend, works with a book and leaves everything as it found it: the book is
released first, then the backend is closed, and then the metrics are written, whatever happened
before.
-/

namespace EngineHost.Cli

variable {σ α : Type}

inductive Act
  /-- A backend was opened. -/
  | opened
  /-- A boundary call was made. -/
  | call (c : Call)
  /-- The backend was closed. -/
  | closed
  /-- A file was written. -/
  | saved (path data : Bytes)
deriving DecidableEq, Repr

def Act.call? : Act → Option Call
  | call c => some c
  | _ => none

/-- What is printed to complete command lines. It comes from outside of this program, which decides
only when to print it. -/
structure Completion where
  /-- The script for a shell, with descriptions or without. -/
  script : ShellName → (described : Bool) → Bytes := fun _ _ => []
  choices : (described : Bool) → List Bytes → Written := fun _ _ => {}

structure Environment (σ : Type) where
  files : Files
  openBackend : RunConfig → Opening σ
  /-- The identifier of a run. -/
  runId : Bytes
  /-- When a run starts and ends. -/
  start : Instant
  stop : Instant
  completion : Completion := {}
  /-- The length of the longest buffer that can be made. -/
  room : Nat := 2 ^ 64

/-- Which log records are shown, and the attributes that all of them carry. -/
structure Logger where
  least : Log.Level
  common : List Log.Attr := []
deriving Inhabited

def Logger.lines (l : Logger) (records : List Log.Record) : Bytes :=
  (Log.visible l.least records).flatMap (Log.Line.render l.common)

/-- Why a command failed: at which stage and with which fault. -/
structure Failure where
  stage : Bytes
  fault : Fault
deriving Inhabited, Repr

def Failure.crash? (f : Failure) : Option Bytes :=
  match f.fault with
  | .crash reason => some reason
  | _ => none

def Failure.exit (f : Failure) : Fault := .exit f.fault.exitCodeFor f.stage (some f.fault)

structure Work (σ : Type) where
  backend : σ
  /-- The diagnostics so far. -/
  diagnostics : Bytes := []
  acts : List Act := []
  metrics : Metrics.Registry := {}

abbrev WorkM (σ : Type) := StateM (Work σ)

/-- An engine at work: how it is reached and where its records go. -/
structure Workplace (σ : Type) where
  engine : Engine σ
  logger : Logger
  output : Format
  files : Files
  room : Nat

namespace Workplace

/-- Makes an operation of the host: its records become diagnostics, its calls acts, and its
transitions are counted. -/
def perform (p : Workplace σ) (op : HostM σ α) : WorkM σ α := fun w =>
  let (a, world) := op { backend := w.backend }
  (a, { backend := world.backend
        diagnostics := w.diagnostics ++ p.logger.lines world.log
        acts := w.acts ++ world.trace.map .call
        metrics := world.events.foldl Metrics.Registry.observe w.metrics })

def log (p : Workplace σ) (r : Log.Record) : WorkM σ Unit :=
  modify fun w => { w with diagnostics := w.diagnostics ++ p.logger.lines [r] }

def remark (p : Workplace σ) (s : Bytes) : WorkM σ Unit :=
  modify fun w => { w with diagnostics := w.diagnostics ++ (p.output.remark s).err }

def save (p : Workplace σ) (path data : Bytes) : WorkM σ (Except Fault Unit) := fun w =>
  match p.files.checkWrite path with
  | .error f => (.error f, w)
  | .ok () => (.ok (), { w with acts := w.acts ++ [.saved path data] })

/-- Parses a program, uses the book and releases it. -/
def withBook (p : Workplace σ) (source : Bytes)
    (use : Book → WorkM σ (Except Failure α)) : WorkM σ (Except Failure α) := do
  match ← p.perform (p.engine.parse source) with
  | .error f => return .error ⟨"failed to parse program", f⟩
  | .ok book =>
    let outcome ← use book
    let _ ← p.perform (p.engine.close book)
    return outcome

end Workplace

structure Finished (σ α : Type) where
  diagnostics : Bytes := []
  acts : List Act := []
  /-- The backend, if one was opened. -/
  backend : Option σ := none
  outcome : Except Failure α

namespace Finished

def close (logger : Logger) (name : Bytes) (b : Backend σ) (w : Work σ) : Work σ :=
  match b.closing with
  | none => w
  | some (.ok ()) => { w with acts := w.acts ++ [.closed] }
  | some (.error f) =>
    { w with
      acts := w.acts ++ [.closed]
      diagnostics := w.diagnostics ++ logger.lines [⟨.error, "error closing backend",
        [⟨"backend", .string name⟩, ⟨"error", .other f.message⟩]⟩] }

def saveMetrics (files : Files) (logger : Logger) (s : GlobalSettings) (m : Metrics.Registry)
    (r : Finished σ α) : Finished σ α :=
  if !s.metered then r
  else match files.checkReplace s.metricsFile with
    | .ok () => { r with acts := r.acts ++ [.saved s.metricsFile m.text] }
    | .error f =>
      { r with diagnostics := r.diagnostics ++ logger.lines [⟨.error, "failed to write metrics",
          [⟨"path", .string s.metricsFile⟩, ⟨"error", .other f.message⟩]⟩] }

end Finished

def withEngine (env : Environment σ) (s : GlobalSettings) (logger : Logger) (c : RunConfig)
    (diagnostics : Bytes) (use : Workplace σ → WorkM σ (Except Failure α)) : Finished σ α :=
  let opening := env.openBackend c
  let diagnostics := diagnostics ++ logger.lines opening.log
  match opening.outcome with
  | .error f =>
    Finished.saveMetrics env.files logger s {}
      { diagnostics := diagnostics, outcome := .error ⟨"failed to open engine", f⟩ }
  | .ok b =>
    let place : Workplace σ :=
      { engine := { boundary := b.boundary, observed := s.metered }
        logger := logger, output := s.output, files := env.files, room := env.room }
    let (outcome, w) := use place
      { backend := b.state, diagnostics := diagnostics, acts := [.opened] }
    let w := Finished.close logger c.backend b w
    Finished.saveMetrics env.files logger s w.metrics
      { diagnostics := w.diagnostics, acts := w.acts, backend := some w.backend
        outcome := outcome }

end EngineHost.Cli
