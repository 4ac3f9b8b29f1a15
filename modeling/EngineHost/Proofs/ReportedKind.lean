import EngineHost.Proofs.ExitCode
import EngineHost.Proofs.PrintedText

/-!
# The error that a command reports

A command that fails prints one error, and the kind that it prints goes with the exit code of the
process. Every fault of a command is nested, so the two cannot disagree.
-/

namespace EngineHost.Cli

variable {σ α : Type}

structure Environment.FailsNested (env : Environment σ) : Prop where
  read : ∀ path f, env.files.read path = .error f → f.Nested
  write : ∀ path f, env.files.checkWrite path = .error f → f.Nested
  opening : ∀ c f, (env.openBackend c).outcome = .error f → f.Nested

/-- If a command has failed, its fault is nested, and the response to it is all that was printed. -/
def Result.Reports (f : Format) (runId : Option Bytes) (r : Result σ) : Prop :=
  ∀ failure, r.ending = .failed failure → failure.fault.Nested ∧
    ∃ d, failure.fault.describe = some d ∧ r.written.out = f.response runId d

private theorem isPlain_kind {f : Fault} (h : f.Nested) {d : Detail} (hd : f.describe = some d) :
    d.kind.all Json.isPlain = true := by
  obtain ⟨d', hd', hcommand, hengine⟩ := h.corresponds
  obtain rfl := Option.some.inj (hd.symm.trans hd')
  by_cases hany : f.layers.any Fault.isCommandFault = true
  · rcases hcommand.1 (if_pos hany) with hkind | hkind <;> rw [hkind] <;> decide
  · rcases hengine.1 (if_neg hany) with hkind | hkind | hkind <;> rw [hkind] <;> decide

namespace Result

variable (f : Format) (runId : Option Bytes)

private theorem reports_fail {failure : Failure} (h : failure.fault.Nested) :
    (fail f runId failure : Result σ).Reports f runId := by
  intro failure' hending
  obtain rfl : failure = failure' := Ending.failed.inj hending
  obtain ⟨d, hdescribe, -⟩ := h.corresponds
  refine ⟨h, d, hdescribe, ?_⟩
  simp only [fail, hdescribe, Option.getD_some, f.error_response runId (isPlain_kind h hdescribe),
    Except.toOption]

private theorem ending_succeed (p : Payload) (failure : Failure) :
    (succeed f p : Result σ).ending ≠ .failed failure := by
  unfold succeed
  cases f.success p <;> simp

private theorem reports_ofOutcome (payload : α → Payload) {outcome : Except Failure α}
    (h : ∀ failure, outcome = .error failure → failure.crash? = none → failure.fault.Nested) :
    (ofOutcome f runId payload outcome : Result σ).Reports f runId := by
  cases outcome with
  | error failure =>
    cases hcrash : failure.crash? with
    | none =>
      simp only [ofOutcome, hcrash]
      exact reports_fail f runId (h failure rfl hcrash)
    | some reason =>
      intro failure' hending
      simp only [ofOutcome, hcrash] at hending
      cases hending
  | ok a =>
    intro failure hending
    exact absurd hending (ending_succeed f (payload a) failure)

private theorem reports_ofFinished (payload : α → Payload) {done : Finished σ α}
    (h : ∀ failure, done.outcome = .error failure → failure.crash? = none → failure.fault.Nested) :
    (ofFinished f runId payload done).Reports f runId :=
  reports_ofOutcome (σ := σ) f runId payload h

end Result

/-- The identifier that a command puts into its response: a run has one as soon as it is known how
it is configured. -/
def Environment.identifier? (env : Environment σ) (c : Command) (given : Given) : Option Bytes :=
  match c, (RunSettings.ofGiven given).resolve env.contents with
  | .run, .ok _ => some env.runId
  | _, _ => none

section Commands

variable {env : Environment σ} (henv : env.FailsNested)

include henv

private theorem nested_of_course {s : GlobalSettings} {c : RunConfig}
    {post : ProgramText → Postcondition α}
    {done : Finished σ α} (hcourse : Course env s c post done) (failure : Failure)
    (hfailure : done.outcome = .error failure) (hcrash : failure.crash? = none) :
    failure.fault.Nested := by
  cases hcourse with
  | unloaded hload hacts hbackend houtcome =>
    rw [houtcome] at hfailure
    rw [← Except.error.inj hfailure]
    exact (ProgramText.load_outcome henv.read c _ hload).nested fun _ h => h
  | unopened hload hopen hacts hbackend houtcome =>
    rw [houtcome] at hfailure
    rw [← Except.error.inj hfailure]
    exact henv.opening c _ hopen
  | worked hload hopen hattended =>
    cases hattended.error failure hfailure with
    | engine hengine => exact hengine.nested
    | file hpath => exact henv.write _ _ hpath
    | crash hfault => simp [Failure.crash?, hfault] at hcrash

private theorem reports_withConfig (f : Format) (given : Given) {next : RunConfig → Result σ}
    (runId : Option Bytes)
    (hrejected : ∀ fault, (RunSettings.ofGiven given).resolve env.contents = .error fault →
      runId = none)
    (hnext : ∀ c, (RunSettings.ofGiven given).resolve env.contents = .ok c →
      (next c).Reports f runId) : (withConfig env f given next).Reports f runId := by
  unfold withConfig
  cases hresolve : (RunSettings.ofGiven given).resolve env.contents with
  | ok c => exact hnext c hresolve
  | error fault =>
    have hread : ∀ path g, env.contents path = .error g → g.Nested := by
      intro path g hg
      cases hfile : env.files.read path with
      | ok image => simp [Environment.contents, hfile, Except.map] at hg
      | error g' =>
        rw [Environment.contents, hfile] at hg
        exact Except.error.inj hg ▸ henv.read path g' hfile
    have hrejection := RunSettings.resolve_outcome _ hread fault hresolve
    obtain rfl := hrejected fault hresolve
    exact Result.reports_fail f none (hrejection.nested fun _ h => h)

private theorem reports_act {c : Command} (hc : c = .run ∨ c = .serialize ∨ c = .sample)
    (line : Flag.Line) : (act env c line).Reports (GlobalSettings.ofGiven line.given).output
      (env.identifier? c line.given) := by
  rcases hc with rfl | rfl | rfl
  · apply reports_withConfig henv
    · intro fault hresolve
      simp [Environment.identifier?, hresolve]
    · intro c hresolve
      simp only [Environment.identifier?, hresolve]
      apply Result.reports_ofFinished
      exact nested_of_course henv (runConfigured_course ..)
  · apply reports_withConfig henv
    · exact fun _ _ => rfl
    · intro c _
      apply Result.reports_ofFinished
      exact nested_of_course henv (serializeConfigured_course ..)
  · apply Result.reports_ofOutcome
    intro failure hfailure _
    have hrejection := sampleText_outcome (P := Fault.Nested) hfailure
    exact hrejection.nested fun _ h => h

end Commands

/-- The other commands have nothing that could fail. -/
theorem eq_of_failed_act {env : Environment σ} {c : Command} {line : Flag.Line} {failure : Failure}
    (h : (act env c line).ending = .failed failure) : c = .run ∨ c = .serialize ∨ c = .sample := by
  cases c with
  | run => exact .inl rfl
  | serialize => exact .inr (.inl rfl)
  | sample => exact .inr (.inr rfl)
  | samples => exact absurd h (Result.ending_succeed _ _ failure)
  | schema => exact absurd h (Result.ending_succeed _ _ failure)
  | help => exact nomatch h
  | root => exact nomatch h
  | completions => exact nomatch h
  | completion shell => exact nomatch h
  | request => exact nomatch h

/-! ## The program's own environment -/

private theorem openBackend_nested {files : Files}
    (hread : ∀ path f, files.read path = .error f → f.Nested) {c : RunConfig} {f : Fault}
    (hf : (openBackend files c).outcome = .error f) : f.Nested := by
  unfold openBackend at hf
  split at hf
  · rw [← Except.error.inj hf]
    exact .load _ (Fault.Nested.wrap _ (.condition .unavailable)).behind
  · split at hf
    · split at hf
      · rename_i f' hfile
        rw [← Except.error.inj hf]
        exact .load _ (Fault.Nested.wrap _ (hread _ f' hfile)).behind
      · rename_i image _
        cases houtcome : (Guest.load {} image).outcome with
        | error f' =>
          simp only [houtcome, Except.map, Except.error.injEq] at hf
          obtain ⟨cause, rfl, hcause⟩ := load_fault houtcome
          rw [← hf]
          exact .load _ hcause.behind
        | ok => simp [houtcome, Except.map] at hf
    · rw [← Except.error.inj hf]
      exact .config _ (Fault.Nested.plain _).behind

private theorem nested_of_read {d : Directory} {path : Bytes} {f : Fault}
    (h : d.read path = .error f) :
    f.Nested := by
  unfold Directory.read at h
  split at h <;> cases h <;> exact .plain _

private theorem nested_of_checkWrite {d : Directory} {path : Bytes} {f : Fault}
    (h : d.checkWrite path = .error f) : f.Nested := by
  unfold Directory.checkWrite at h
  split at h <;> cases h <;> exact .plain _

private theorem failsNested_of_directory {env : Environment (Guest.Instance EngineModule)}
    {d : Directory} {digits : Bytes} (hfiles : env.files = d.toFiles digits)
    (hopen : env.openBackend = openBackend env.files) : env.FailsNested := by
  have hread : ∀ path f, env.files.read path = .error f → f.Nested := by
    intro path f hf
    rw [hfiles] at hf
    exact nested_of_read hf
  constructor
  · exact hread
  · intro path f hf
    rw [hfiles] at hf
    exact nested_of_checkWrite hf
  · intro c f hf
    rw [hopen] at hf
    exact openBackend_nested hread hf

/-- The kind of every nested fault goes with its exit code. So, wherever files and backends fail
with nested faults, as the program's own do, every command that fails prints one error response and
nothing else, and the kind in it goes with the exit code of the process. -/
theorem reported_kind_fits_exit_code :
    (∀ f : Fault, f.Nested →
      ∃ d, f.describe = some d ∧ Fault.Corresponds d.kind f.exitCodeFor) ∧
    (∀ env : Environment σ, env.FailsNested → ∀ args failure,
      (execute env args).ending = .failed failure →
      ∃ c left line d, Command.select args = .ok (c, left) ∧
        (c = .run ∨ c = .serialize ∨ c = .sample) ∧ Flag.read c.flags left = .ok line ∧
        failure.fault.Nested ∧ failure.fault.describe = some d ∧
        (execute env args).written.out =
          (GlobalSettings.ofGiven line.given).output.response (env.identifier? c line.given) d ∧
        Fault.Corresponds d.kind (execute env args).ending.code) ∧
    ∀ (env : Environment (Guest.Instance EngineModule)) (directory : Directory) (digits : Bytes),
      env.files = directory.toFiles digits → env.openBackend = openBackend env.files →
      env.FailsNested := by
  refine ⟨fun f h => h.corresponds, ?_, fun env directory digits => failsNested_of_directory⟩
  intro env henv args failure hending
  rcases execute_selects args with
    ⟨refusal, written, h⟩ | ⟨printed, h⟩ | ⟨c, left, line, hselect, hread, h⟩
  · simp [h env] at hending
  · simp [h env] at hending
  · rw [h env] at hending ⊢
    have hc := eq_of_failed_act hending
    obtain ⟨hnested, d, hdescribe, hout⟩ := reports_act henv hc line failure hending
    obtain ⟨d', hdescribe', hcorresponds⟩ := hnested.corresponds
    obtain rfl : d' = d := Option.some.inj (hdescribe'.symm.trans hdescribe)
    rw [hending, Ending.code_failed]
    exact ⟨c, left, line, d', hselect, hc, hread, hnested, hdescribe, hout, hcorresponds⟩

/-- A backend that is not linked, for a program that is there. -/
theorem reported_kind_fits_exit_code_native :
    let directory : Directory := { files := [(["a.hvm"], .bytes "@main = 1")] }
    let files := directory.toFiles []
    let env : Environment (Guest.Instance EngineModule) :=
      { files := files, openBackend := openBackend files, runId := [], start := default
        stop := default }
    let r := execute env ["run", "--backend", "native", "-s", "a.hvm", "--format", "json"]
    env.FailsNested ∧ r.ending.code = 2 ∧ ∃ failure d, r.ending = .failed failure ∧
      failure.fault.describe = some d ∧ Fault.Corresponds d.kind r.ending.code := by
  intro directory files env r
  obtain ⟨-, hfailed, hown⟩ := reported_kind_fits_exit_code (σ := Guest.Instance EngineModule)
  have henv : env.FailsNested := hown env directory [] rfl rfl
  have hcode : r.ending.code = 2 := by decide +kernel
  have hfailed? : (r.ending matches .failed _) = true := by decide +kernel
  cases hending : r.ending with
  | failed failure =>
    obtain ⟨_, _, _, d, -, -, -, -, hdescribe, -, hcorresponds⟩ :=
      hfailed env henv _ failure hending
    rw [← hending]
    exact ⟨henv, hcode, failure, d, hending, hdescribe, hcorresponds⟩
  | _ =>
    rw [hending] at hfailed?
    cases hfailed?

end EngineHost.Cli
