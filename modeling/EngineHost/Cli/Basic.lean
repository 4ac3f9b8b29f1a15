import EngineHost.Cli.Selection
import EngineHost.Cli.Serialize
import EngineHost.Cli.Usage
import EngineHost.Config.Schema

/-!
# The command line

A command line selects a command, which writes its result and ends with an exit code. The code is 0
if the command succeeds, 2 if its configuration or backend is at fault or the host itself gives up,
and 1 otherwise.
-/

namespace EngineHost.Cli

variable {σ α : Type}

inductive Ending
  | success
  /-- The command failed and said so. -/
  | failed (f : Failure)
  /-- The command line does not make sense. -/
  | refused (r : Refusal)
  /-- The result has no JSON form. -/
  | unwritable (u : Json.Unsupported)
  /-- The host gave up, and nothing more was said than that. -/
  | crashed (reason : Bytes)
deriving Inhabited

namespace Ending

def fault? : Ending → Option Fault
  | success => none
  | failed f => some f.exit
  | refused r => some (.plain r.message)
  | unwritable u => some (.plain u.message)
  | crashed reason => some (.crash reason)

def code (e : Ending) : Int := match e with
  | crashed _ => 2
  | _ => match e.fault? with
    | none => 0
    | some f => f.exitCode

end Ending

structure Result (σ : Type) where
  written : Written := {}
  acts : List Act := []
  /-- The backend, if one was opened. -/
  backend : Option σ := none
  ending : Ending := .success

namespace Result

def printing (s : Bytes) : Result σ := { written := { out := s } }

def succeed (f : Format) (p : Payload) : Result σ :=
  match f.success p with
  | .ok w => { written := w }
  | .error u => { ending := .unwritable u }

/-- Reports a failure. A run is identified in the details. -/
def fail (f : Format) (runId : Option Bytes) (failure : Failure) : Result σ :=
  let detail := failure.fault.describe.getD ⟨[], [], [], none⟩
  let details : Option Value := runId.map fun id => .map [("run_id", .string id)]
  { written := ((f.error detail.kind detail.message details).toOption).getD {}
    ending := .failed failure }

/-- The end of a host that gave up. The trace of where it was is left out. -/
def crash (reason : Bytes) : Result σ :=
  { written := { err := "panic: " ++ Fault.message (.crash reason) ++ "\n" }
    ending := .crashed reason }

def ofOutcome (f : Format) (runId : Option Bytes) (payload : α → Payload) :
    Except Failure α → Result σ
  | .ok a => succeed f (payload a)
  | .error failure => match failure.crash? with
    | some reason => crash reason
    | none => fail f runId failure

def ofFinished (f : Format) (runId : Option Bytes) (payload : α → Payload) (r : Finished σ α) :
    Result σ :=
  let reported : Result σ := ofOutcome f runId payload r.outcome
  { reported with
    written := { reported.written with err := r.diagnostics ++ reported.written.err }
    acts := r.acts
    backend := r.backend }

/-- Refuses a command line; some commands leave the message to their caller. -/
def refuse (c : Command) (r : Refusal) : Result σ :=
  { written :=
      if c.isSilent then {}
      else { out := c.usage true ++ "\n", err := "Error: " ++ r.message ++ "\n" }
    ending := .refused r }

end Result

def sampleJson (s : Sample) : Json :=
  let params := Dict.ofList (s.params.map fun p => (p.name, Json.ofInt p.default.toInt))
  Json.objectOf [
    Json.member "name" (.string s.name),
    Json.member "description" (.string s.description),
    if params.isEmpty then none else Json.member "params" (.object params)]

def samplesPayload : Payload where
  text := Sample.overview
  json := some (.ok (.array (Sample.all.map sampleJson)))

def schemaPayload : Payload where
  text := Config.Schema.configFile.text
  json := some (.ok Config.Schema.configFile.json)

def sampleText (name : Bytes) (pairs : List Bytes) : Except Failure Bytes := do
  let params ← (Params.ofPairs pairs).mapError (⟨"invalid parameters", ·⟩)
  let text ← (Sample.render name params).mapError (⟨"failed to render sample", ·⟩)
  return Bytes.chomp text

def helpFor (words : List Bytes) : Bytes :=
  match Command.select words with
  | .ok (c, _) => c.helpText
  | .error _ => "Unknown help topic [" ++ Bytes.join " " (words.map Quoted.rawText) ++ "]\n" ++
      Command.root.usage false

def checkFormat (s : GlobalSettings) : Except Refusal Unit :=
  let known := Format.names.map Bytes.ofString
  if known.contains s.format then .ok () else .error (.unknownFormat s.format known)

def withConfig (env : Environment σ) (f : Format) (given : Given) (next : RunConfig → Result σ) :
    Result σ :=
  match (RunSettings.ofGiven given).resolve env.contents with
  | .error fault => Result.fail f none ⟨"invalid run configuration", fault⟩
  | .ok c => next c

def act (env : Environment σ) (c : Command) (line : Flag.Line) : Result σ :=
  let s := GlobalSettings.ofGiven line.given
  let f := s.output
  match c with
  | .run => withConfig env f line.given fun c =>
      Result.ofFinished f (some env.runId) RunResult.payload (runConfigured env s c)
  | .serialize => withConfig env f line.given fun c =>
      Result.ofFinished f none Encoding.payload
        (serializeConfigured env s ((Flag.valueOf? line.given "output").getD []) c)
  | .samples => Result.succeed f samplesPayload
  | .sample => Result.ofOutcome f none Payload.ofText
      (sampleText (line.args.headD []) (Flag.valuesOf line.given "param"))
  | .schema => Result.succeed f schemaPayload
  | .help => Result.printing (helpFor line.args)
  | .completion shell =>
    let described := !(Flag.switchOf? line.given "no-descriptions").getD false
    Result.printing (env.completion.script shell described)
  | .root | .completions | .request => {}

/-- Runs a selected command with the arguments that are left. -/
def start (env : Environment σ) (c : Command) (args : List Bytes) : Result σ :=
  match Flag.read c.flags args with
  | .error f => Result.refuse c (.flag f)
  | .ok line =>
    if (Flag.switchOf? line.given "help").getD false || !c.isRunnable then
      Result.printing c.helpText
    else match c.checkArgs line.args *> checkFormat (GlobalSettings.ofGiven line.given) with
      | .error r => Result.refuse c r
      | .ok () => act env c line

/-- Prints the choices for a command line. -/
def complete (env : Environment σ) (described : Bool) (args : List Bytes) : Result σ :=
  match Command.request.checkArgs args with
  | .error r => Result.refuse .request r
  | .ok () => { written := env.completion.choices described args }

def execute (env : Environment σ) (args : List Bytes) : Result σ :=
  match Command.requested? args with
  | some (word, left) => complete env (word == Command.request.name) left
  | none => match Command.select args with
    | .error r =>
      { written := { err := "Error: " ++ r.message ++ "\nRun '" ++ Command.root.path ++
          " --help' for usage.\n" }
        ending := .refused r }
    | .ok (c, left) => start env c left

def programSettings? (args : List Bytes) : Option RunSettings :=
  match Command.select args with
  | .ok (.run, left) =>
    (Flag.read Command.run.flags left).toOption.map (RunSettings.ofGiven ·.given)
  | .ok (.serialize, left) =>
    (Flag.read Command.serialize.flags left).toOption.map (RunSettings.ofGiven ·.given)
  | _ => none

/-- The files that a command line reads: the configuration, and then what the configuration names,
as far as it can be read. -/
def filesRead (args : List Bytes) (read : Bytes → Except Fault Bytes) : List Bytes :=
  match programSettings? args with
  | none => []
  | some s =>
    let named := match s.resolve read with
      | .ok c => [c.source, c.wasmPath]
      | .error _ => []
    (s.configFile :: named).filter fun path => !path.isEmpty

end EngineHost.Cli
