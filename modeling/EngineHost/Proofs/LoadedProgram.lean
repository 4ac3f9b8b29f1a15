import EngineHost.Cli.Run
import EngineHost.Proofs.ConfigOverlay
import EngineHost.Proofs.FaultKind
import EngineHost.Proofs.RunnableSamples

/-!
# Faults before an engine is reached

Before a command reaches an engine it resolves its configuration and loads a program. Whatever goes
wrong there is a fault of the configuration: the templates of the samples are well made, so filling
them with parameters that were accepted never fails.
-/

namespace EngineHost

variable {α β : Type} {P : Fault → Prop}

/-- A configuration is rejected for a reason in words, or for a fault from outside. -/
inductive Fault.Rejection (P : Fault → Prop) : Fault → Prop
  | words (field text : Bytes) : Rejection P (config field (some (plain text)))
  | phrase (field context text : Bytes) :
    Rejection P (config field (some (wrap context (plain text))))
  | outside (field context : Bytes) {f : Fault} (h : P f) :
    Rejection P (config field (some (wrap context f)))

theorem Fault.Rejection.isCommandFault {f : Fault} (h : f.Rejection P) :
    f.isCommandFault = true := by
  cases h <;> rfl

theorem Fault.Rejection.nested {f : Fault} (h : f.Rejection P) (hP : ∀ g, P g → g.Nested) :
    f.Nested := by
  cases h with
  | words field text => exact .config field (Nested.plain text).behind
  | phrase field context text => exact .config field (Nested.wrap context (.plain text)).behind
  | outside field context h => exact .config field (Nested.wrap context (hP _ h)).behind

/-- An outcome that is a failure only because a configuration is rejected. -/
def CommandOutcome (P : Fault → Prop) (a : Except Fault α) : Prop :=
  ∀ f, a = .error f → f.Rejection P

theorem Fault.exitCodeFor_eq_two {f : Fault} (h : f.isCommandFault = true) :
    f.exitCodeFor = 2 := by
  cases f with
  | load backend cause => rfl
  | config field cause => rfl
  | _ => simp [isCommandFault] at h

namespace CommandOutcome

theorem ok (a : α) : CommandOutcome P (.ok a : Except Fault α) := fun _ h => nomatch h

theorem error {f : Fault} (hf : f.Rejection P) :
    CommandOutcome P (.error f : Except Fault α) := by
  rintro f' h
  rwa [← Except.error.inj h]

theorem thrown {f : Fault} (hf : f.Rejection P) :
    CommandOutcome P (throw f : Except Fault α) :=
  error hf

theorem bind {x : Except Fault α} {k : α → Except Fault β} (hx : CommandOutcome P x)
    (hk : ∀ a, CommandOutcome P (k a)) : CommandOutcome P (x >>= k) := by
  cases x with
  | error f => exact .error (hx f rfl)
  | ok a => exact hk a

theorem ite {p : Prop} [Decidable p] {x y : Except Fault α} (hx : CommandOutcome P x)
    (hy : CommandOutcome P y) : CommandOutcome P (if p then x else y) := by
  split
  · exact hx
  · exact hy

theorem ifThen {p : Prop} [Decidable p] {x : Except Fault Unit} {k : Unit → Except Fault β}
    (hx : CommandOutcome P x) (hk : CommandOutcome P (k ())) :
    CommandOutcome P (if p then x >>= k else k ()) :=
  ite (hx.bind fun _ => hk) hk

end CommandOutcome

private theorem Interpreter.ofName_fault {s : Bytes} {f : Fault} (h : ofName s = .error f) :
    ∃ text, f = .plain text := by
  simp only [ofName] at h
  split at h
  · cases h
  · split at h
    · cases h
    · exact ⟨_, (Except.error.inj h).symm⟩

namespace Config

private theorem rejected_outcome (field : String) (reason : Bytes) :
    CommandOutcome P (rejected field reason) :=
  .error (.words _ _)

private theorem checkFields_outcome (c : RunConfig) : CommandOutcome P (checkFields c) := by
  unfold checkFields
  refine .ifThen (rejected_outcome _ _) (.ifThen (rejected_outcome _ _) ?_)
  refine .ifThen (rejected_outcome _ _) (.ifThen (rejected_outcome _ _) ?_)
  exact .ifThen (rejected_outcome _ _) (.ite (rejected_outcome _ _) (.ok _))

private theorem checkSchema_outcome (c : RunConfig) : CommandOutcome P (checkSchema c) := by
  unfold checkSchema
  cases c.json with
  | error u => exact .error (.phrase _ _ _)
  | ok j => exact .ifThen (rejected_outcome _ _) (.ite (rejected_outcome _ _) (.ok _))

private theorem validate_outcome (c : RunConfig) :
    CommandOutcome P (Cli.RunSettings.loader.validate (some c)) := by
  refine .bind ?_ fun _ => ?_
  · exact (checkFields_outcome c).bind fun _ => (checkSchema_outcome c).bind fun _ => .ok _
  · simp only [Option.getD_some]
    cases hinterpreter : c.interpreter with
    | ok i => exact .ok _
    | error f =>
      obtain ⟨text, rfl⟩ := Interpreter.ofName_fault hinterpreter
      exact .error (.words _ text)

private theorem loadFile_outcome {contents : Except Fault Bytes}
    (h : ∀ f, contents = .error f → P f) :
    CommandOutcome P (Cli.RunSettings.loader.loadFile contents) := by
  cases contents with
  | error f => exact .error (.outside _ _ (h f rfl))
  | ok data =>
    rw [Loader.loadFile]
    unfold Loader.load Config.parse
    cases Document.read data Cli.RunSettings.loader.base with
    | error f => exact .error (.phrase _ _ _)
    | ok c => exact (validate_outcome c).bind fun _ => .ok _

end Config

theorem Params.ofPairs_outcome (pairs : List Bytes) (params : Params) :
    CommandOutcome P (Params.ofPairs pairs params) := by
  induction pairs generalizing params with
  | nil => exact .ok _
  | cons pair pairs ih =>
    unfold Params.ofPairs
    cases Params.pair? pair with
    | none => exact .error (.words _ _)
    | some entry => exact ih _

theorem Cli.RunSettings.resolve_outcome (s : RunSettings) {read : Bytes → Except Fault Bytes}
    (hread : ∀ path f, read path = .error f → P f) : CommandOutcome P (s.resolve read) := by
  have hbase : CommandOutcome P (s.base read) := .ite (.ok _) (Config.loadFile_outcome (hread _))
  have hparams : ∀ c, CommandOutcome P (s.addParams c) := fun c =>
    .ite (.ok _) ((Params.ofPairs_outcome _ _).bind fun _ => .ok _)
  exact hbase.bind fun base => (hparams _).bind fun c =>
    (Config.validate_outcome c).bind fun _ => .ok _

namespace Sample

open Template

variable {s : Sample} {params : Params} {name text : Bytes}

/-- Whether parts refer to nothing but the parameters of a sample and make a text. -/
def fillable (s : Sample) (parts : List Part) : Bool :=
  parts.all (wellMade.refers s) &&
    decide ((fillIn (fun _ => "0") parts).length + 19 * parts.length < 2 ^ 63)

private theorem fillable_faulty :
    ∀ s ∈ all, s.name = "faulty" → s.parts?.any s.fillable = true := by
  decide +kernel

private theorem fillable_of_mem_all (hs : s ∈ all) : s.parts?.any s.fillable = true := by
  by_cases hname : s.name = "faulty"
  · exact fillable_faulty s hs hname
  · obtain ⟨parts, hparts, hmade⟩ := (Option.any_eq_true _ _).1 (wellMade_of_mem_all s hs hname)
    simp only [wellMade, Bool.and_eq_true] at hmade
    rw [hparts, Option.any_some, fillable, Bool.and_eq_true]
    exact ⟨hmade.1.1.1.1, hmade.1.2⟩

/-- Filling a sample fails only if its parameters are refused, and what comes out is not too long
for a text. -/
theorem instantiate_eq (hs : s ∈ all) (params : Params) :
    (∃ f, s.resolve params = .error f ∧ s.instantiate params = .error f) ∨
      ∃ text, s.instantiate params = .ok text ∧ text.length < 2 ^ 63 := by
  obtain ⟨parts, hparts, hfillable⟩ := (Option.any_eq_true _ _).1 (fillable_of_mem_all hs)
  rw [fillable, Bool.and_eq_true, decide_eq_true_eq] at hfillable
  have hrefers : ∀ name, .param name ∈ parts → s.hasParameter name = true :=
    fun name h => List.all_eq_true.1 hfillable.1 _ h
  cases hresolve : s.resolve params with
  | error f => exact .inl ⟨f, rfl, by simp [instantiate, hresolve, bind, Except.bind]⟩
  | ok resolved =>
    refine .inr ⟨_, (instantiate_eq_ok_iff hparts hrefers).2 ⟨resolved, hresolve, rfl⟩, ?_⟩
    have hleast := fun p hp => (ranges_of_mem_all s hs p hp).1
    have hlength := (numerals_written hresolve hleast hrefers).2
    exact Nat.lt_of_le_of_lt (length_fillIn_le hlength fun _ => "0") hfillable.2

private theorem value_outcome (params : Params) (p : Parameter) :
    CommandOutcome P (value params p) := by
  have hgiven : CommandOutcome P (Params.getInt params p.name) := by
    unfold Params.getInt
    cases Params.getInt? params p.name with
    | none => exact .error (.words _ _)
    | some n => exact .ok _
  unfold value
  refine .ite (hgiven.bind fun n => ?_) (.bind (.ok p.default) fun n => ?_)
  · exact .ifThen (.thrown (.words _ _)) (.ok _)
  · exact .ifThen (.thrown (.words _ _)) (.ok _)

theorem resolve_outcome (s : Sample) (params : Params) : CommandOutcome P (s.resolve params) := by
  have hvalues : ∀ ps, CommandOutcome P (values params ps) := by
    intro ps
    induction ps with
    | nil => exact .ok _
    | cons p ps ih => exact (value_outcome params p).bind fun n => ih.bind fun _ => .ok _
  refine (hvalues s.params).bind fun resolved => ?_
  cases (Dict.keys params).find? fun k => !s.hasParameter k with
  | none => exact .ok _
  | some k => exact .error (.words _ _)

theorem render_outcome (name : Bytes) (params : Params) :
    (∀ {P : Fault → Prop}, CommandOutcome P (render name params)) ∧
      ∀ text, render name params = .ok text → text.length < 2 ^ 63 := by
  unfold render get
  cases hfind : find? name with
  | none => exact ⟨.error (.words _ _), nofun⟩
  | some s =>
    change (∀ {P : Fault → Prop}, CommandOutcome P (s.instantiate params)) ∧
      ∀ text, s.instantiate params = .ok text → text.length < 2 ^ 63
    rcases instantiate_eq (List.mem_of_find?_eq_some hfind) params with
      ⟨f, hresolve, hinstantiate⟩ | ⟨text, hinstantiate, hlength⟩
    · rw [hinstantiate]
      exact ⟨.error (s.resolve_outcome params f hresolve), nofun⟩
    · rw [hinstantiate]
      refine ⟨.ok _, fun text' h => ?_⟩
      rwa [← Except.ok.inj h]

end Sample

namespace Cli

theorem ProgramText.load_outcome {files : Files}
    (hread : ∀ path f, files.read path = .error f → P f) (c : RunConfig) :
    CommandOutcome P (ProgramText.load files c) := by
  unfold load
  refine .ite ?_ ?_
  · have hrender := (Sample.render_outcome c.sample (c.params.getD [])).1 (P := P)
    cases htext : Sample.render c.sample (c.params.getD []) with
    | error f => exact .error (hrender f htext)
    | ok text => exact .ok _
  · cases hfile : files.read c.source with
    | ok image => exact .ok _
    | error f => exact .error (.outside _ _ (hread _ f hfile))

theorem ProgramText.length_load {files : Files} {c : RunConfig} {program : ProgramText}
    (hread : ∀ path image, files.read path = .ok image → image.data.length < 2 ^ 63)
    (h : ProgramText.load files c = .ok program) : program.source.length < 2 ^ 63 := by
  unfold load at h
  split at h
  · have hrender := (Sample.render_outcome c.sample (c.params.getD [])).2
    cases htext : Sample.render c.sample (c.params.getD []) with
    | error f => simp [htext, Except.map] at h
    | ok text =>
      rw [htext] at h
      rw [← Except.ok.inj h]
      exact hrender text htext
  · cases himage : files.read c.source with
    | error f => simp [himage] at h
    | ok image =>
      rw [himage] at h
      rw [← Except.ok.inj h]
      exact hread c.source image himage

end Cli

end EngineHost
