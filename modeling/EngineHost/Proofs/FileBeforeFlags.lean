import EngineHost.Proofs.ConfigOverlay

/-!
# A configuration file comes before the flags

A command checks its configuration file twice, on its own and with the flags on top. A file that is
accepted on its own gives way to the flags in everything that they set. Any other file is refused
with its own fault, whatever the flags would have made of it, and the empty file is one of those.
-/

namespace EngineHost

private theorem Config.Document.read_nil (base : RunConfig) : Document.read [] base = .ok base := by
  have hnothing : (Yaml.Graph.ofBytes? []).toOption.map Option.isNone = some true := by
    decide +kernel
  unfold Document.read
  cases hgraph : Yaml.Graph.ofBytes? [] with
  | error f => simp [hgraph, Except.toOption] at hnothing
  | ok graph =>
    cases graph with
    | none => rfl
    | some g => simp [hgraph, Except.toOption] at hnothing

private theorem Config.Loader.load_eq {l : Loader} {data : Bytes} {base : RunConfig}
    (h : Document.read data l.base = .ok base) :
    l.load data = l.validate (some base) >>= fun _ => pure base := by
  have hparse := parse_eq_ok_iff.2 h
  unfold Loader.load
  generalize Config.parse data l.base = document at hparse ⊢
  subst hparse
  rfl

namespace Cli.RunSettings

open Config

variable {s : RunSettings} {read : Bytes → Except Fault Bytes} {data : Bytes} {base c : RunConfig}
  {written : List (Bytes × Value)}

/-- The configuration that flags make of another one, checked as a whole. -/
def configure (s : RunSettings) (base : RunConfig) : Except Fault RunConfig := do
  let c ← s.addParams (s.overlay base)
  loader.validate (some c)
  return c

private theorem configure_eq_ok_iff : s.configure base = .ok c ↔
    (∃ written, s.Overlays base written c) ∧ loader.validate (some c) = .ok () := by
  simp only [configure, bind_eq_ok_iff, addParams_overlay_eq_ok_iff, pure, Except.pure,
    Except.ok.injEq]
  constructor
  · rintro ⟨c', hoverlays, ⟨⟩, hvalid, rfl⟩
    exact ⟨hoverlays, hvalid⟩
  · rintro ⟨hoverlays, hvalid⟩
    exact ⟨c, hoverlays, (), hvalid, rfl⟩

private theorem resolve_of_no_file (hfile : s.configFile = []) :
    s.resolve read = s.configure RunConfig.standard := by
  have hbase : s.base read = .ok RunConfig.standard := by simp [RunSettings.base, hfile]
  rw [resolve, hbase]
  rfl

private theorem resolve_of_file (hfile : s.configFile ≠ []) (hread : read s.configFile = .ok data)
    (hdocument : Document.read data RunConfig.standard = .ok base) :
    s.resolve read = loader.validate (some base) >>= fun _ => s.configure base := by
  have hbase : s.base read = loader.validate (some base) >>= fun _ => pure base := by
    rw [RunSettings.base, if_neg (by simpa using hfile), hread]
    exact Loader.load_eq (l := loader) hdocument
  rw [resolve, hbase]
  cases loader.validate (some base) <;> rfl

/-- The standard configuration names no module, so it is not accepted as it is. -/
theorem validate_standard : loader.validate (some RunConfig.standard) =
    .error (.config "wasm_path" (some (.plain "is required when Backend wasm"))) := by
  rfl

/-- Where the flags make a configuration that is accepted, the file decides: the run has that
configuration if and only if the file is accepted on its own, and else fails with the fault of the
file. The empty file fails even where the flags need no file. -/
theorem resolve_iff_file_accepted (s : RunSettings) (read : Bytes → Except Fault Bytes)
    (hfile : s.configFile ≠ []) (hread : read s.configFile = .ok data)
    (hdocument : Document.read data RunConfig.standard = .ok base)
    (hoverlays : s.Overlays base written c) (hvalid : loader.validate (some c) = .ok ()) :
    (s.resolve read = .ok c ↔ loader.validate (some base) = .ok ()) ∧
    (∀ f, loader.validate (some base) = .error f → s.resolve read = .error f) ∧
    (data = [] →
      s.resolve read =
        .error (.config "wasm_path" (some (.plain "is required when Backend wasm"))) ∧
      { s with configFile := [] }.resolve read = .ok c) := by
  have hresolve := resolve_of_file hfile hread hdocument
  have hconfigure : s.configure base = .ok c := configure_eq_ok_iff.2 ⟨⟨written, hoverlays⟩, hvalid⟩
  refine ⟨?_, fun f hf => ?_, ?_⟩
  · rw [hresolve, seq_eq_ok_iff]
    exact and_iff_left hconfigure
  · rw [hresolve, hf]
    rfl
  · rintro rfl
    obtain rfl : RunConfig.standard = base :=
      Except.ok.inj ((Document.read_nil RunConfig.standard).symm.trans hdocument)
    constructor
    · rw [hresolve, validate_standard]
      rfl
    · rw [resolve_of_no_file rfl]
      exact hconfigure

/-- Flags that say all there is to say, next to an empty file. -/
theorem resolve_iff_file_accepted_empty :
    let s : RunSettings :=
      { configFile := "run.yaml", wasmPath := some "m.wasm", sample := some "fib"
        params := ["N=5"] }
    let read : Bytes → Except Fault Bytes := fun _ => .ok []
    s.configFile ≠ [] ∧ Document.read [] RunConfig.standard = .ok RunConfig.standard ∧
      ∃ written c, s.Overlays RunConfig.standard written c ∧
        loader.validate (some c) = .ok () ∧
        ¬loader.validate (some RunConfig.standard) = .ok () ∧
        s.resolve read =
          .error (.config "wasm_path" (some (.plain "is required when Backend wasm"))) ∧
        { s with configFile := [] }.resolve read = .ok c := by
  intro s read
  have hfile : s.configFile ≠ [] := by decide
  have hdocument := Document.read_nil RunConfig.standard
  have hconfigured : (s.configure RunConfig.standard).isOk = true := by decide +kernel
  refine ⟨hfile, hdocument, ?_⟩
  cases hconfigure : s.configure RunConfig.standard with
  | error f => simp [hconfigure, Except.isOk, Except.toBool] at hconfigured
  | ok c =>
    obtain ⟨⟨written, hoverlays⟩, hvalid⟩ := configure_eq_ok_iff.1 hconfigure
    obtain ⟨hiff, -, hempty⟩ :=
      resolve_iff_file_accepted s read hfile rfl hdocument hoverlays hvalid
    obtain ⟨hrefused, hresolved⟩ := hempty rfl
    refine ⟨written, c, hoverlays, hvalid, fun haccepted => ?_, hrefused, hresolved⟩
    exact nomatch hrefused.symm.trans (hiff.2 haccepted)

end Cli.RunSettings

end EngineHost
