import EngineHost.Cli.Basic
import EngineHost.Proofs.CommandCourse
import EngineHost.Proofs.LoadedProgram

/-!
# Exit codes by cause

The exit code of a command line tells what went wrong: 2 if the engine was never reached because of
the configuration, the program or the backend, and 1 if the engine was reached. There are two
exceptions. A command line that makes no sense is refused with 1, although the engine was not
reached; and a host that has no room for the encoding that the engine announces gives up with 2,
although the engine was reached.
-/

namespace EngineHost

variable {σ α : Type}

private theorem Engine.parse_asks (e : Engine σ) (source : Bytes) (w : World σ) :
    ∃ p v rest, (e.parse source w).2.trace = w.trace ++ .parse p v :: rest := by
  rcases hmade : (e.boundary.parse source 0 w.backend).value with ⟨p, v⟩
  refine ⟨p, v, ?_⟩
  by_cases hv : v = 0
  · subst hv
    by_cases hp : p = 0
    · subst hp
      exact ⟨_, (runs_parse_nothing hmade w rfl).2.2.1⟩
    · exact ⟨_, (runs_parse_made hmade hp w rfl).2.2.1⟩
  · exact ⟨_, (runs_parse_refused hmade hv w rfl).2.2.1⟩

private theorem Fault.exitCode_plain (message : Bytes) : (plain message).exitCode = 1 := by
  simp [exitCode, layers, carriedExit?]

namespace Cli

private theorem Uses.errand_asks {ops : List Operation} (h : Uses ops) (e : Engine σ) (backend : σ)
    (source : Bytes) : ∃ p v rest,
      ((Session.start backend).run e (errand source ops)).2.world.trace = .parse p v :: rest := by
  have hparsed : ∃ p v rest,
      ((Session.start backend).step e (.parse source)).2.world.trace = .parse p v :: rest := by
    have hasks := e.parse_asks source (Session.start backend).world
    cases hvalue : (e.parse source (Session.start backend).world).1 with
    | error f =>
      rw [Session.step_parse_error hvalue]
      exact hasks
    | ok book =>
      rw [Session.step_parse_ok hvalue]
      exact hasks
  refine Session.run_preserves (Q := fun op => op.throughEngine = true)
    (P := fun s => ∃ p v rest, s.world.trace = .parse p v :: rest) ?_
    (fun op hop => Operation.throughEngine_of_book? (h.errand_book? op hop)) hparsed
  rintro s op hop ⟨p, v, rest, htrace⟩
  refine ⟨p, v, rest ++ s.callsOf e op, ?_⟩
  rw [(s.step_trace e hop).1, htrace, List.cons_append]

theorem Ending.code_failed (f : Failure) : (failed f).code = f.fault.exitCodeFor := by
  simp only [code, fault?, Failure.exit, Fault.exitCode, Fault.layers]
  rfl

inductive Result.Settled (room : Nat) (r : Result σ) : Prop
  | success (hending : r.ending = .success)
  /-- The engine was not reached. -/
  | command {f : Failure} (hending : r.ending = .failed f) (hcode : r.ending.code = 2)
      (hcalls : ∀ c, Act.call c ∉ r.acts)
  /-- The engine was reached, and what it did, or the writing of the results, failed. -/
  | engine {p v : Ptr} (hcode : r.ending.code = 1)
      (hending : ∀ refusal, r.ending ≠ .refused refusal) (hcall : Act.call (.parse p v) ∈ r.acts)
  /-- The engine was reached, and told a length for which there is no room. -/
  | crash {reason : Bytes} {p v q : Ptr} {n : UInt64} (hending : r.ending = .crashed reason)
      (hcall : Act.call (.parse p v) ∈ r.acts) (hlength : Act.call (.vecLength q n) ∈ r.acts)
      (hroom : room < n.toNat)

private theorem Failure.crash?_eq_none {f : Failure} (h : ∀ reason, f.fault ≠ .crash reason) :
    f.crash? = none := by
  unfold crash?
  split
  · rename_i reason hf
    exact absurd hf (h reason)
  · rfl

private theorem Failure.crash?_of_command {f : Failure} (h : f.fault.isCommandFault = true) :
    f.crash? = none := by
  apply crash?_eq_none
  intro reason hf
  rw [hf] at h
  exact absurd h (by simp [Fault.isCommandFault])

namespace Result

variable (f : Format) (runId : Option Bytes) {room : Nat}

private theorem settled_fail {failure : Failure} (h : failure.fault.isCommandFault = true) :
    (fail f runId failure : Result σ).Settled room := by
  refine .command rfl ?_ (by simp [fail])
  exact (Ending.code_failed failure).trans (Fault.exitCodeFor_eq_two h)

private theorem settled_succeed {p : Payload} {j : Json} (h : p.json = some (.ok j)) :
    (succeed f p : Result σ).Settled room := by
  refine .success ?_
  rw [succeed, Format.success, h]
  cases f.json <;> rfl

private theorem ending_ofFinished_error (payload : α → Payload) {done : Finished σ α}
    {failure : Failure} (h : done.outcome = .error failure) (hcrash : failure.crash? = none) :
    (ofFinished f runId payload done).ending = .failed failure := by
  simp [ofFinished, ofOutcome, fail, h, hcrash]

private theorem settled_ofFinished_fault (payload : α → Payload) {done : Finished σ α}
    {failure : Failure}
    (h : done.outcome = .error failure) (hfault : failure.fault.isCommandFault = true)
    (hcalls : ∀ c, Act.call c ∉ done.acts) : (ofFinished f runId payload done).Settled room := by
  have hending :=
    ending_ofFinished_error f runId payload h (Failure.crash?_of_command hfault)
  refine .command hending ?_ hcalls
  rw [hending, Ending.code_failed, Fault.exitCodeFor_eq_two hfault]

end Result

theorem sampleText_outcome {P : Fault → Prop} {name : Bytes} {pairs : List Bytes} {f : Failure}
    (hf : sampleText name pairs = .error f) : f.fault.Rejection P := by
  have hparams := Params.ofPairs_outcome (P := P) pairs []
  simp only [sampleText, bind, Except.bind] at hf
  cases hpairs : Params.ofPairs pairs with
  | error fault =>
    simp only [hpairs, Except.mapError, Except.error.injEq] at hf
    exact hf ▸ hparams fault hpairs
  | ok params =>
    have hrender := (Sample.render_outcome name params).1 (P := P)
    cases htext : Sample.render name params with
    | error fault =>
      simp only [hpairs, htext, Except.mapError, Except.error.injEq] at hf
      exact hf ▸ hrender fault htext
    | ok text => simp [hpairs, htext, Except.mapError, pure, Except.pure] at hf

private theorem Attended.call_mem {env : Environment σ} {s : GlobalSettings} {b : Backend σ}
    {source : Bytes} {post : Postcondition α} {r : Finished σ α} {ops : List Operation}
    {work : List Act} {m : Metrics.Registry} (h : Attended env s b source post r ops work m)
    {c : Call} (hc : c ∈ (b.attend s.metered source ops).2.world.trace) : Act.call c ∈ r.acts := by
  rw [← h.calls] at hc
  obtain ⟨a, ha, hcall⟩ := List.mem_filterMap.1 hc
  cases a with
  | call c' =>
    obtain rfl := Option.some.inj hcall
    rw [h.acts]
    simp [ha]
  | _ => simp [Act.call?] at hcall

theorem Attended.asks {env : Environment σ} {s : GlobalSettings} {b : Backend σ} {source : Bytes}
    {post : Postcondition α} {r : Finished σ α} {ops : List Operation} {work : List Act}
    {m : Metrics.Registry} (h : Attended env s b source post r ops work m) :
    ∃ p v, Act.call (.parse p v) ∈ r.acts := by
  obtain ⟨p, v, rest, htrace⟩ := h.uses.errand_asks
    { boundary := b.boundary, observed := s.metered } b.state source
  exact ⟨p, v, h.call_mem (by rw [htrace]; exact List.mem_cons_self)⟩

private theorem settled_withConfig {env : Environment σ} (f : Format) (given : Given) {room : Nat}
    {next : RunConfig → Result σ} (hnext : ∀ c, c.Admissible → (next c).Settled room) :
    (withConfig env f given next).Settled room := by
  unfold withConfig
  cases hresolve : (RunSettings.ofGiven given).resolve env.contents with
  | error fault =>
    have hrejection := RunSettings.resolve_outcome (P := fun _ => True) (RunSettings.ofGiven given)
      (fun _ _ _ => trivial) fault hresolve
    exact Result.settled_fail f none hrejection.isCommandFault
  | ok c => exact hnext c (RunSettings.admissible_of_resolve hresolve)

section Commands

variable {env : Environment σ}
  (hopen : ∀ c f, (env.openBackend c).outcome = .error f →
    (openBackend env.files c).outcome = .error f)
  (hwrite : ∀ path f, env.files.checkWrite path = .error f →
    f.OfEngine ∧ ∀ reason, f ≠ .crash reason)

include hopen hwrite

private theorem settled_of_course {s : GlobalSettings} {c : RunConfig} (hc : c.Admissible)
    {post : ProgramText → Postcondition α} {done : Finished σ α}
    (hcourse : Course env s c post done)
    (f : Format) (runId : Option Bytes) (payload : α → Payload) :
    (Result.ofFinished f runId payload done).Settled env.room := by
  cases hcourse with
  | unloaded hload hacts hbackend houtcome =>
    refine Result.settled_ofFinished_fault f runId payload houtcome ?_ (by simp [hacts])
    exact (ProgramText.load_outcome (P := fun _ => True) (fun _ _ _ => trivial) c _
      hload).isCommandFault
  | unopened hload hrefused hacts hbackend houtcome =>
    refine Result.settled_ofFinished_fault f runId payload houtcome ?_ ?_
    · obtain ⟨cause, rfl⟩ := openBackend_fault hc env.files (hopen c _ hrefused)
      rfl
    · intro call hcall
      rw [hacts] at hcall
      exact nomatch GlobalSettings.eq_saved_of_mem hcall
  | worked hload hopened hattended =>
    obtain ⟨p, v, hcall⟩ := hattended.asks
    cases houtcome : done.outcome with
    | ok a =>
      have hending : (Result.ofFinished f runId payload done).ending =
          (Result.succeed f (payload a) : Result σ).ending := by
        simp [Result.ofFinished, Result.ofOutcome, houtcome]
      rw [Result.succeed] at hending
      cases hwritten : f.success (payload a) with
      | ok w =>
        rw [hwritten] at hending
        exact .success hending
      | error u =>
        rw [hwritten] at hending
        refine .engine ?_ ?_ hcall
        · rw [hending]
          exact Fault.exitCode_plain _
        · simp [hending]
    | error failure =>
      have hengine (hfault : failure.fault.OfEngine)
          (hcrash : ∀ reason, failure.fault ≠ .crash reason) :
          (Result.ofFinished f runId payload done).Settled env.room := by
        have hending := Result.ending_ofFinished_error f runId payload houtcome
          (Failure.crash?_eq_none hcrash)
        refine .engine ?_ ?_ hcall
        · rw [hending, Ending.code_failed, hfault.exitCodeFor_eq]
        · simp [hending]
      cases hattended.error failure houtcome with
      | engine hby =>
        refine hengine hby.ofEngine fun reason hf => ?_
        rw [hf] at hby
        cases hby
      | file hpath => exact hengine (hwrite _ _ hpath).1 (hwrite _ _ hpath).2
      | @crash reason q n hfault hroom hlength =>
        have hending : (Result.ofFinished f runId payload done).ending = .crashed reason := by
          simp [Result.ofFinished, Result.ofOutcome, Result.crash, houtcome, Failure.crash?, hfault]
        exact .crash hending hcall (hattended.call_mem hlength) hroom

private theorem settled_act (c : Command) (line : Flag.Line) :
    (act env c line).Settled env.room := by
  cases c with
  | run =>
    refine settled_withConfig _ _ fun c hc => ?_
    exact settled_of_course hopen hwrite hc (runConfigured_course ..) ..
  | serialize =>
    refine settled_withConfig _ _ fun c hc => ?_
    exact settled_of_course hopen hwrite hc (serializeConfigured_course ..) ..
  | samples => exact Result.settled_succeed _ rfl
  | sample =>
    simp only [act]
    cases htext : sampleText (line.args.headD []) (Flag.valuesOf line.given "param") with
    | error failure =>
      have hrejection := (sampleText_outcome (P := fun _ => True) htext).isCommandFault
      simp only [Result.ofOutcome, Failure.crash?_of_command hrejection]
      exact Result.settled_fail _ none hrejection
    | ok text => exact Result.settled_succeed _ rfl
  | schema => exact Result.settled_succeed _ rfl
  | help => exact .success rfl
  | root => exact .success rfl
  | completions => exact .success rfl
  | completion shell => exact .success rfl
  | request => exact .success rfl

end Commands

/-- A command line is refused, asks for help or for completions, or has a selected command done, and
which of them it is does not depend on the environment. -/
theorem execute_selects (args : List Bytes) :
    (∃ refusal written, ∀ {σ : Type} (env : Environment σ),
      execute env args = { written := written, ending := .refused refusal }) ∨
    (∃ printed : Completion → Written, ∀ {σ : Type} (env : Environment σ),
      execute env args = { written := printed env.completion }) ∨
    ∃ c left line, Command.select args = .ok (c, left) ∧ Flag.read c.flags left = .ok line ∧
      ∀ {σ : Type} (env : Environment σ), execute env args = act env c line := by
  unfold execute
  cases Command.requested? args with
  | some asked =>
    obtain ⟨word, left⟩ := asked
    simp only [complete]
    cases Command.request.checkArgs left with
    | error refusal => exact .inl ⟨refusal, _, fun env => rfl⟩
    | ok =>
      exact .inr (.inl ⟨fun c => c.choices (word == Command.request.name) left, fun env => rfl⟩)
  | none =>
    cases Command.select args with
    | error refusal => exact .inl ⟨refusal, _, fun env => rfl⟩
    | ok selected =>
      obtain ⟨c, left⟩ := selected
      simp only [start]
      cases hread : Flag.read c.flags left with
      | error fault => exact .inl ⟨.flag fault, _, fun env => rfl⟩
      | ok line =>
        simp only
        split
        · exact .inr (.inl ⟨fun _ => { out := c.helpText }, fun env => rfl⟩)
        · cases c.checkArgs line.args *> checkFormat (GlobalSettings.ofGiven line.given) with
          | error refusal => exact .inl ⟨refusal, _, fun env => rfl⟩
          | ok => exact .inr (.inr ⟨c, left, line, rfl, hread, fun env => rfl⟩)

/-- The exit code of a command line is 0 if it succeeds. It is 2 if the engine was not reached, as
long as the command line makes sense, and 1 if the engine was reached or if the command line is
refused, for which nothing but the command line itself matters. Only a host that gives up, because
the engine has told a length for which there is no room, ends with 2 after the engine was reached. A
backend may be any that is refused only where the program's own backends are, and a file may not be
writable for any reason that is not one of configuration. -/
theorem exit_code_tells_cause (env : Environment σ)
    (hopen : ∀ c f, (env.openBackend c).outcome = .error f →
      (openBackend env.files c).outcome = .error f)
    (hwrite : ∀ path f, env.files.checkWrite path = .error f →
      f.OfEngine ∧ ∀ reason, f ≠ .crash reason) (args : List Bytes) :
    let r := execute env args
    (r.ending.code = 0 ↔ r.ending = .success) ∧
    (r.ending.code = 2 ↔ (∃ reason, r.ending = .crashed reason) ∨
      r.ending ≠ .success ∧ (∀ refusal, r.ending ≠ .refused refusal) ∧
        ∀ c, Act.call c ∉ r.acts) ∧
    (r.ending.code = 1 ↔ (∃ refusal, r.ending = .refused refusal) ∨
      r.ending ≠ .success ∧ (∀ reason, r.ending ≠ .crashed reason) ∧
        ∃ p v, Act.call (.parse p v) ∈ r.acts) ∧
    (∀ refusal, r.ending = .refused refusal → r.acts = [] ∧
      ∀ {τ : Type} (env' : Environment τ), (execute env' args).ending = .refused refusal) ∧
    ∀ reason, r.ending = .crashed reason → (∃ p v, Act.call (.parse p v) ∈ r.acts) ∧
      ∃ p n, Act.call (.vecLength p n) ∈ r.acts ∧ env.room < n.toNat := by
  intro r
  rcases execute_selects args with ⟨refusal, written, h⟩ | hselected
  · have hending : r.ending = .refused refusal := congrArg Result.ending (h env)
    have hcode : r.ending.code = 1 := by
      rw [hending]
      exact Fault.exitCode_plain _
    rw [hcode, hending]
    refine ⟨by simp, by simp, by simp, ?_, nofun⟩
    rintro refusal' hrefused
    refine ⟨congrArg Result.acts (h env), fun env' => ?_⟩
    rw [h env', hrefused]
  · have hsettled : r.Settled env.room := by
      rcases hselected with ⟨printed, h⟩ | ⟨c, left, line, -, -, h⟩
      · exact .success (congrArg Result.ending (h env))
      · rw [show r = act env c line from h env]
        exact settled_act hopen hwrite c line
    cases hsettled with
    | success hending =>
      have hcode : r.ending.code = 0 := by rw [hending]; rfl
      rw [hcode, hending]
      simp
    | command hending hcode hcalls =>
      rw [hcode, hending]
      simp [hcalls]
    | @engine p v hcode hrefused hcall =>
      have hending : r.ending ≠ .success := by
        intro hending
        rw [hending] at hcode
        exact absurd hcode (by decide)
      have hcrashed : ∀ reason, r.ending ≠ .crashed reason := by
        intro reason hending
        rw [hending] at hcode
        exact absurd hcode (by simp [Ending.code])
      rw [hcode]
      refine ⟨by simp [hending], ?_, ?_, fun refusal h => absurd h (hrefused refusal),
        fun reason h => absurd h (hcrashed reason)⟩
      · refine iff_of_false (by decide) ?_
        rintro (⟨reason, h⟩ | ⟨-, -, hcalls⟩)
        · exact hcrashed reason h
        · exact hcalls _ hcall
      · exact iff_of_true rfl (.inr ⟨hending, hcrashed, p, v, hcall⟩)
    | @crash reason p v q n hending hcall hlength hroom =>
      have hcode : r.ending.code = 2 := by rw [hending]; rfl
      rw [hcode]
      refine ⟨by simp [hending], by simp [hending], by simp [hending], by simp [hending],
        fun _ _ => ⟨⟨p, v, hcall⟩, q, n, hlength, hroom⟩⟩

/-- A flag that no command has: the engine was not reached, and yet the code is 1. -/
theorem exit_code_tells_cause_unknown_flag :
    let files := ({} : Directory).toFiles []
    let env : Environment (Guest.Instance EngineModule) :=
      { files := files, openBackend := openBackend files, runId := [], start := default
        stop := default }
    let r := execute env ["run", "--bogus"]
    (∀ path f, files.checkWrite path = .error f → f.OfEngine ∧ ∀ reason, f ≠ .crash reason) ∧
      r.acts = [] ∧ r.ending.code = 1 ∧ ∃ refusal, r.ending = .refused refusal := by
  intro files env r
  have hwrite : ∀ path f, files.checkWrite path = .error f →
      f.OfEngine ∧ ∀ reason, f ≠ .crash reason := by
    intro path f hf
    change Directory.checkWrite _ path = .error f at hf
    unfold Directory.checkWrite at hf
    split at hf
    all_goals cases hf
    all_goals exact ⟨rfl, nofun⟩
  have hacts : r.acts = [] := by decide +kernel
  have hcode : r.ending.code = 1 := by decide +kernel
  obtain ⟨-, -, hone, -⟩ :=
    exit_code_tells_cause env (fun c f hf => hf) hwrite ["run", "--bogus"]
  refine ⟨hwrite, hacts, hcode, ?_⟩
  rcases hone.1 hcode with hrefused | ⟨-, -, p, v, hcall⟩
  · exact hrefused
  · rw [show (execute env ["run", "--bogus"]).acts = [] from hacts] at hcall
    exact nomatch hcall

end Cli

end EngineHost
