import EngineHost.Cli.Work
import EngineHost.Report.Basic
import EngineHost.Sample.Basic

/-!
# Runs

Loading a program, evaluating it and reporting what came out.
-/

namespace EngineHost.Cli

variable {σ : Type}

structure ProgramText where
  /-- The name under which it is reported. -/
  name : Bytes
  source : Bytes
deriving DecidableEq, Repr, Inhabited

/-- The program that a configuration names: a sample with its parameters, or a file. -/
def ProgramText.load (files : Files) (c : RunConfig) : Except Fault ProgramText :=
  if !c.sample.isEmpty then
    (Sample.render c.sample (c.params.getD [])).map (⟨c.sample, ·⟩)
  else match files.read c.source with
    | .ok image => .ok ⟨c.source, image.data⟩
    | .error f => .error (.config "source" (some (.wrap "failed to read program" f)))

def Environment.contents (env : Environment σ) (path : Bytes) : Except Fault Bytes :=
  (env.files.read path).map Guest.Image.data

def interpreterOf (c : RunConfig) : Interpreter := c.interpreter.toOption.getD .rust

/-- The identifier of a run that sixteen random bytes make: groups of hexadecimal digits, with the
version 4 and the variant in their places. -/
def runIdOf (random : Bytes) : Bytes :=
  let marked := random.mapIdx fun i b =>
    if i = 6 then (b &&& 0x0f) ||| 0x40 else if i = 8 then (b &&& 0x3f) ||| 0x80 else b
  let group (start count : Nat) : Bytes := Bytes.toHex ((marked.drop start).take count)
  Bytes.join "-" [group 0 4, group 4 2, group 6 2, group 8 2, group 10 6]

structure RunResult where
  program : Bytes
  report : Report
deriving Inhabited

def RunResult.payload (r : RunResult) : Payload where
  text := r.report.text r.program
  json := some r.report.json

def evaluateBook (env : Environment σ) (p : Workplace σ) (c : RunConfig) (program : Bytes)
    (book : Book) : WorkM σ (Except Failure RunResult) := do
  let interpreter := interpreterOf c
  let options : EvaluateOptions := .ofSettings [.interpreter interpreter, .memDump c.memDump]
  let outcome ← p.perform (p.engine.evaluate book options)
  modify fun w =>
    { w with metrics := w.metrics.observeEvaluation interpreter outcome.toOption }
  match outcome with
  | .error f => return .error ⟨"evaluation failed", f⟩
  | .ok evaluation =>
    match ← p.perform (p.engine.serializedLength book) with
    | .error f => return .error ⟨"failed to serialize program", f⟩
    | .ok size =>
      p.log ⟨.info, "run complete", [⟨"program", .string program⟩,
        ⟨"iterations", .uint64 evaluation.iterations⟩, ⟨"duration", .duration evaluation.duration⟩]⟩
      return .ok
        { program := program
          report :=
            { runId := env.runId
              timestamp := env.stop
              outcome := .success evaluation
              metadata := some
                { start := env.start, stop := env.stop, backend := c.backend
                  interpreter := interpreter.name, serializedBytes := size } } }

def runConfigured (env : Environment σ) (s : GlobalSettings) (c : RunConfig) :
    Finished σ RunResult :=
  let logger : Logger := { least := s.level, common := [⟨"run_id", .string env.runId⟩] }
  match ProgramText.load env.files c with
  | .error f => { outcome := .error ⟨"failed to load program", f⟩ }
  | .ok program =>
    let remark := s.output.remark ("Loaded " ++ program.name ++ " (" ++
      Bytes.ofNat program.source.length ++ " bytes)")
    withEngine env s logger c remark.err fun place =>
      place.withBook program.source (evaluateBook env place c program.name)

end EngineHost.Cli
