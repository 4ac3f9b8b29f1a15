import EngineHost.Cli.Run
import EngineHost.Proofs.Dictionary
import EngineHost.Proofs.FaultKind

/-!
# Flags on top of a configuration

The configuration of a run is that of its file, or the standard one, with each flag that was
written put on top, and it is accepted only if it can be acted upon: a backend that can be opened,
an interpreter that exists, and one program to load.
-/

namespace EngineHost

structure RunConfig.Admissible (c : RunConfig) : Prop where
  backend : c.backend = "native" ∨ c.backend = "wasm"
  wasmPath : c.backend = "wasm" → c.wasmPath ≠ []
  runtime : c.runtime = "rust" ∨ c.runtime = "c"
  /-- There is one program, in a file or among the samples. -/
  program : c.source = [] ∧ c.sample ≠ [] ∨ c.source ≠ [] ∧ c.sample = []

namespace RunConfig

variable {c : RunConfig}

theorem Admissible.interpreter_eq (h : c.Admissible) :
    c.interpreter = .ok (if c.runtime = "c" then .c else .rust) := by
  rcases h.runtime with hruntime | hruntime <;> rw [RunConfig.interpreter, hruntime] <;> rfl

theorem Admissible.interpreterOf_eq (h : c.Admissible) :
    Cli.interpreterOf c = if c.runtime = "c" then .c else .rust := by
  rw [Cli.interpreterOf, h.interpreter_eq]
  rfl

end RunConfig

namespace Config

variable {c : RunConfig}

theorem bind_eq_ok_iff {α β : Type} {x : Except Fault α} {f : α → Except Fault β} {b : β} :
    x >>= f = .ok b ↔ ∃ a, x = .ok a ∧ f a = .ok b := by
  cases x <;> simp [bind, Except.bind]

theorem seq_eq_ok_iff {β : Type} {x : Except Fault Unit} {f : Unit → Except Fault β} {b : β} :
    x >>= f = .ok b ↔ x = .ok () ∧ f () = .ok b := by
  cases x <;> simp [bind, Except.bind]

private theorem ite_error_eq_ok_iff {α : Type} {p : Prop} [Decidable p] {f : Fault}
    {x : Except Fault α} {a : α} : (if p then .error f else x) = .ok a ↔ ¬p ∧ x = .ok a := by
  by_cases h : p <;> simp [h]

private theorem oneOf_backendNames {s : Bytes} :
    oneOf s backendNames = true ↔ s = "native" ∨ s = "wasm" := by
  simp [oneOf, backendNames]

private theorem oneOf_runtimeNames {s : Bytes} :
    oneOf s runtimeNames = true ↔ s = "rust" ∨ s = "c" := by
  simp [oneOf, runtimeNames]

private theorem checkSchema_eq_ok_iff : checkSchema c = .ok () ↔
    (∃ j, c.json = .ok j) ∧ (c.backend = "native" ∨ c.backend = "wasm") ∧
      (c.runtime = "rust" ∨ c.runtime = "c") := by
  unfold checkSchema rejected
  cases c.json with
  | error u => simp
  | ok j =>
    simp only [bind, Except.bind, pure, Except.pure, ite_error_eq_ok_iff, Bool.not_eq_true',
      Bool.not_eq_false, oneOf_backendNames, oneOf_runtimeNames]
    simp

private theorem checkFields_eq_ok_iff : checkFields c = .ok () ↔
    (c.backend = "native" ∨ c.backend = "wasm") ∧ (c.backend = "wasm" → c.wasmPath ≠ []) ∧
      (c.runtime = [] ∨ c.runtime = "rust" ∨ c.runtime = "c") ∧
      (c.source = [] ∧ c.sample ≠ [] ∨ c.source ≠ [] ∧ c.sample = []) := by
  unfold checkFields rejected
  simp only [bind, Except.bind, pure, Except.pure, ite_error_eq_ok_iff, Bool.and_eq_true,
    Bool.not_eq_true', List.isEmpty_iff, decide_eq_true_eq, not_and, ← Bool.not_eq_true,
    oneOf_backendNames, oneOf_runtimeNames]
  have hnative : Bytes.ofString "native" ≠ [] := by decide
  have hwasm : Bytes.ofString "wasm" ≠ [] := by decide
  grind

private theorem validate_eq_ok_iff :
    Cli.RunSettings.loader.validate (some c) = .ok () ↔ c.Admissible ∧ ∃ j, c.json = .ok j := by
  have hchecks : runChecks [.fields, .schema] (some c) = .ok () ↔
      checkFields c = .ok () ∧ checkSchema c = .ok () := by
    simp [runChecks, Check.run, seq_eq_ok_iff, pure, Except.pure]
  have hloader : Cli.RunSettings.loader.validate (some c) = .ok () ↔
      runChecks [.fields, .schema] (some c) = .ok () ∧ ∃ i, c.interpreter = .ok i := by
    simp only [Loader.validate, Cli.RunSettings.loader, seq_eq_ok_iff, Option.getD_some]
    cases c.interpreter <;> simp
  rw [hloader, hchecks, checkFields_eq_ok_iff, checkSchema_eq_ok_iff]
  constructor
  · rintro ⟨⟨⟨hbackend, hpath, -, hprogram⟩, hjson, -, hruntime⟩, -⟩
    exact ⟨⟨hbackend, hpath, hruntime, hprogram⟩, hjson⟩
  · rintro ⟨h, hjson⟩
    exact ⟨⟨⟨h.backend, h.wasmPath, .inr h.runtime, h.program⟩, hjson, h.backend, h.runtime⟩,
      _, h.interpreter_eq⟩

theorem parse_eq_ok_iff {s : Bytes} {base : RunConfig} :
    Config.parse s base = .ok c ↔ Document.read s base = .ok c := by
  unfold Config.parse
  generalize Document.read s base = document
  cases document <;> simp

private theorem loadFile_eq_ok_iff {l : Loader} {contents : Except Fault Bytes} :
    l.loadFile contents = .ok c ↔ ∃ data, contents = .ok data ∧
      Document.read data l.base = .ok c ∧ l.validate (some c) = .ok () := by
  simp only [← parse_eq_ok_iff]
  cases contents with
  | error f => simp [Loader.loadFile]
  | ok data =>
    simp only [Loader.loadFile, Except.ok.injEq, exists_eq_left']
    unfold Loader.load
    generalize Config.parse data l.base = document
    cases document with
    | error f => simp
    | ok c' =>
      simp only [seq_eq_ok_iff, pure, Except.pure, Except.ok.injEq]
      constructor
      · rintro ⟨hvalid, rfl⟩
        exact ⟨rfl, hvalid⟩
      · rintro ⟨rfl, hvalid⟩
        exact ⟨hvalid, rfl⟩

end Config

namespace Cli

open Config

private theorem linked_fault {l : Guest.Linked} {f : Fault} (hf : l.outcome = .error f) :
    f.Nested := by
  unfold Guest.Linked.outcome at hf
  split at hf
  · rw [← Except.error.inj hf]
    exact .wrap _ (.plain _)
  · unfold Guest.checkExports at hf
    split at hf
    · cases hf
    · rw [← Except.error.inj hf]
      exact .plain _

theorem load_fault {o : Guest.LoadOptions} {image : Guest.Image} {f : Fault}
    (hf : (Guest.load o image).outcome = .error f) :
    ∃ cause : Fault, f = .load "wasm" (some cause) ∧ cause.Nested := by
  unfold Guest.load at hf
  split at hf
  · exact ⟨_, (Except.error.inj hf).symm, .wrap _ (.plain _)⟩
  · split at hf
    · exact ⟨_, (Except.error.inj hf).symm, .wrap _ (.plain _)⟩
    · dsimp only at hf
      split at hf
      · rename_i hlinked
        exact ⟨_, (Except.error.inj hf).symm, linked_fault hlinked⟩
      · simp at hf

theorem openBackend_fault {c : RunConfig} (h : c.Admissible) (files : Files) {f : Fault}
    (hf : (openBackend files c).outcome = .error f) : ∃ cause, f = .load c.backend cause := by
  rcases h.backend with hbackend | hbackend
  · rw [openBackend, if_pos hbackend] at hf
    rw [hbackend, ← Except.error.inj hf]
    exact ⟨_, rfl⟩
  · have hnative : c.backend ≠ "native" := by
      rw [hbackend]
      decide
    rw [openBackend, if_neg hnative, if_pos hbackend] at hf
    rw [hbackend]
    split at hf
    · rw [← Except.error.inj hf]
      exact ⟨_, rfl⟩
    · rename_i image _
      cases houtcome : (Guest.load {} image).outcome with
      | error f' =>
        simp only [houtcome, Except.map, Except.error.injEq] at hf
        obtain ⟨cause, hcause, -⟩ := load_fault houtcome
        exact ⟨cause, hf.symm.trans hcause⟩
      | ok u => simp [houtcome, Except.map] at hf

namespace RunSettings

variable {s : RunSettings} {read : Bytes → Except Fault Bytes} {base c : RunConfig}
  {written : List (Bytes × Value)}

/-- The configurations that flags are put on top of: that of a file, once it is accepted, or the
standard one. -/
inductive StartsFrom (s : RunSettings) (read : Bytes → Except Fault Bytes) : RunConfig → Prop
  | standard (hfile : s.configFile = []) : StartsFrom s read RunConfig.standard
  | file {data : Bytes} {base : RunConfig} (hfile : s.configFile ≠ [])
      (hread : read s.configFile = .ok data)
      (hdocument : Document.read data RunConfig.standard = .ok base)
      (hbase : base.Admissible) (hjson : ∃ j, base.json = .ok j) : StartsFrom s read base

private theorem base_eq_ok_iff : s.base read = .ok base ↔ s.StartsFrom read base := by
  unfold RunSettings.base
  by_cases hfile : s.configFile = []
  · simp only [hfile, List.isEmpty_nil, if_true, Except.ok.injEq]
    constructor
    · rintro rfl
      exact .standard hfile
    · intro h
      cases h with
      | standard => rfl
      | file hne => exact absurd hfile hne
  · rw [if_neg (by simpa using hfile), loadFile_eq_ok_iff]
    constructor
    · rintro ⟨data, hread, hdocument, hvalid⟩
      obtain ⟨hbase, hjson⟩ := validate_eq_ok_iff.1 hvalid
      exact .file hfile hread hdocument hbase hjson
    · intro h
      cases h with
      | standard hempty => exact absurd hempty hfile
      | file _ hread hdocument hbase hjson =>
        exact ⟨_, hread, hdocument, validate_eq_ok_iff.2 ⟨hbase, hjson⟩⟩

/-- Flags on top of a configuration. The pairs that were written are read one by one. -/
structure Overlays (s : RunSettings) (base : RunConfig) (written : List (Bytes × Value))
    (c : RunConfig) : Prop where
  pairs : s.params.map Params.pair? = written.map some
  backend : c.backend = s.backend.getD base.backend
  wasmPath : c.wasmPath = s.wasmPath.getD base.wasmPath
  runtime : c.runtime = s.runtime.getD base.runtime
  memDump : c.memDump = s.memDump.getD base.memDump
  /-- A source that is written counts unless a sample is written too. -/
  source : c.source = if s.sample.isSome then [] else s.source.getD base.source
  sample : c.sample = s.sample.getD (if s.source.isSome then [] else base.sample)
  params : c.params = if s.params = [] then base.params else
    some (Params.merge (base.params.getD []) (Dict.ofList written))
  /-- Key by key, the last pair counts, and else the configuration. -/
  param : ∀ key, Dict.get? (c.params.getD []) key =
    (Dict.lastValue? written key).or (Dict.get? (base.params.getD []) key)

private theorem overlay_eq (s : RunSettings) (c : RunConfig) :
    s.overlay c =
    { backend := s.backend.getD c.backend
      wasmPath := s.wasmPath.getD c.wasmPath
      runtime := s.runtime.getD c.runtime
      memDump := s.memDump.getD c.memDump
      source := if s.sample.isSome then [] else s.source.getD c.source
      sample := s.sample.getD (if s.source.isSome then [] else c.sample)
      params := c.params } := by
  unfold overlay
  cases s.source <;> cases s.sample <;> rfl

private theorem addParams_eq_ok_iff : s.addParams base = .ok c ↔
    ∃ written : List (Bytes × Value), s.params.map Params.pair? = written.map some ∧
      c = { base with params := c.params } ∧ c.params = if s.params = [] then base.params else
        some (Params.merge (base.params.getD []) (Dict.ofList written)) := by
  unfold addParams
  by_cases hempty : s.params = []
  · simp only [hempty, List.isEmpty_nil, if_true, Except.ok.injEq, List.map_nil]
    constructor
    · rintro rfl
      exact ⟨[], rfl, rfl, rfl⟩
    · rintro ⟨written, -, hc, hparams⟩
      rw [hc, hparams]
  · rw [if_neg (by simpa using hempty), bind_eq_ok_iff]
    simp only [Params.ofPairs_eq_ok_iff, hempty, if_false, pure, Except.pure, Except.ok.injEq]
    constructor
    · rintro ⟨given, ⟨written, hwritten, rfl⟩, rfl⟩
      exact ⟨written, hwritten, rfl, rfl⟩
    · rintro ⟨written, hwritten, hc, hparams⟩
      refine ⟨_, ⟨written, hwritten, rfl⟩, ?_⟩
      rw [hc, hparams]
      rfl

theorem addParams_overlay_eq_ok_iff : s.addParams (s.overlay base) = .ok c ↔
    ∃ written, s.Overlays base written c := by
  rw [addParams_eq_ok_iff, overlay_eq]
  constructor
  · rintro ⟨written, hwritten, hc, hparams⟩
    have hparam : ∀ key, Dict.get? (c.params.getD []) key =
        (Dict.lastValue? written key).or (Dict.get? (base.params.getD []) key) := by
      intro key
      rw [hparams]
      by_cases hempty : s.params = []
      · obtain rfl : written = [] := by simpa [hempty] using hwritten.symm
        simp [hempty, Dict.lastValue?]
      · simp only [hempty, if_false, Option.getD_some, Params.merge]
        rw [Dict.get?_merge (Dict.increasing_ofList written), Dict.get?_ofList]
    rw [hc] at hparams hparam ⊢
    exact ⟨written, hwritten, rfl, rfl, rfl, rfl, rfl, rfl, hparams, hparam⟩
  · rintro ⟨written, h⟩
    refine ⟨written, h.pairs, ?_, h.params⟩
    rw [← h.backend, ← h.wasmPath, ← h.runtime, ← h.memDump, ← h.source, ← h.sample]

theorem admissible_of_resolve {s : RunSettings} {read : Bytes → Except Fault Bytes} {c : RunConfig}
    (h : s.resolve read = .ok c) : c.Admissible := by
  simp only [resolve, bind_eq_ok_iff, pure, Except.pure, Except.ok.injEq] at h
  obtain ⟨base, -, c', -, ⟨⟩, hvalid, rfl⟩ := h
  exact (validate_eq_ok_iff.1 hvalid).1

/-- The configuration of a run is its file with the flags on top, and no other; it is found
whenever it can be acted upon, and what is found can be: its interpreter is known, and its backend
is one that can be opened. -/
theorem resolve_overlays (s : RunSettings) (read : Bytes → Except Fault Bytes) (c : RunConfig) :
    (s.resolve read = .ok c ↔ ∃ base written, s.StartsFrom read base ∧
      s.Overlays base written c ∧ c.Admissible ∧ ∃ j, c.json = .ok j) ∧
    (s.resolve read = .ok c → c.interpreter = .ok (interpreterOf c) ∧
      ∀ files f, (openBackend files c).outcome = .error f →
        ∃ cause, f = .load c.backend cause) := by
  have hresolve : s.resolve read = .ok c ↔ ∃ base written, s.StartsFrom read base ∧
      s.Overlays base written c ∧ c.Admissible ∧ ∃ j, c.json = .ok j := by
    simp only [resolve, bind_eq_ok_iff, base_eq_ok_iff, addParams_overlay_eq_ok_iff, pure,
      Except.pure, Except.ok.injEq]
    constructor
    · rintro ⟨base, hbase, c', ⟨written, hoverlays⟩, ⟨⟩, hvalid, rfl⟩
      exact ⟨base, written, hbase, hoverlays, validate_eq_ok_iff.1 hvalid⟩
    · rintro ⟨base, written, hbase, hoverlays, hvalid⟩
      exact ⟨base, hbase, c, ⟨written, hoverlays⟩, (), validate_eq_ok_iff.2 hvalid, rfl⟩
  refine ⟨hresolve, fun h => ?_⟩
  obtain ⟨base, written, -, -, hadmissible, -⟩ := hresolve.1 h
  refine ⟨?_, fun files f => openBackend_fault hadmissible files⟩
  rw [hadmissible.interpreterOf_eq, hadmissible.interpreter_eq]

/-- A file with a source and parameters, a sample written after a source, and a key written
twice. -/
theorem resolve_overlays_file :
    let s : RunSettings :=
      { configFile := "run.yaml", runtime := some "c"
        source := some "a.hvm", sample := some "b", params := ["n=4", "m=x", "n=5"] }
    let read : Bytes → Except Fault Bytes := fun _ =>
      .ok "wasm_path: m.wasm\nsource: p.hvm\nparams:\n  k: 3\n  n: 1\n"
    ∃ c, s.resolve read = .ok c ∧
      [c.backend, c.wasmPath, c.runtime, c.source, c.sample] =
        ["wasm", "m.wasm", "c", "", "b"].map Bytes.ofString ∧
      (Value.map (c.params.getD [])).display = "map[k:3 m:x n:5]" ∧
      (∃ base written, s.StartsFrom read base ∧ s.Overlays base written c ∧ c.Admissible ∧
        ∃ j, c.json = .ok j) ∧
      c.interpreter = .ok (interpreterOf c) := by
  intro s read
  have hshown : (s.resolve read).toOption.map (fun c =>
      ([c.backend, c.wasmPath, c.runtime, c.source, c.sample],
        (Value.map (c.params.getD [])).display)) =
      some (["wasm", "m.wasm", "c", "", "b"].map Bytes.ofString,
        Bytes.ofString "map[k:3 m:x n:5]") := by
    decide +kernel
  cases hresolve : s.resolve read with
  | error f => simp [hresolve, Except.toOption] at hshown
  | ok c =>
    simp only [hresolve, Except.toOption, Option.map_some, Option.some.injEq,
      Prod.mk.injEq] at hshown
    obtain ⟨hoverlays, hactable⟩ := resolve_overlays s read c
    exact ⟨c, rfl, hshown.1, hshown.2, hoverlays.1 hresolve, (hactable hresolve).1⟩

end RunSettings

end Cli

end EngineHost
