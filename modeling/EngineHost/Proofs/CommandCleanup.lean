import EngineHost.Cli.Basic
import EngineHost.Proofs.CommandCourse
import EngineHost.Proofs.LoadedProgram

/-!
# Commands clean up

However a command ends, it has given back what the engine handed over, it has closed a backend that
it opened, and it writes its metrics after that. So the gauge of live resources that a command
leaves behind shows nothing.
-/

namespace EngineHost

namespace Metrics

namespace Registry

/-- The gauge of live resources has one entry for each kind that was reported. -/
structure Gauged (m : Registry) : Prop where
  nodup : (m.live.map Prod.fst).Nodup
  kinds : ∀ k ∈ m.live.map Prod.fst, ∃ r : Resource, k = [r.name]

theorem Gauged.update {m m' : Registry} (h : m.Gauged) (r : Resource) (f : Binary64 → Binary64)
    (hlive : m'.live = m.live.update [r.name] .zero f) : m'.Gauged := by
  have hkeys := m.live.keys_update [r.name] .zero f
  rw [← hlive] at hkeys
  by_cases hmem : [r.name] ∈ m.live.map Prod.fst
  · rw [if_pos hmem] at hkeys
    exact ⟨hkeys ▸ h.nodup, hkeys ▸ h.kinds⟩
  · rw [if_neg hmem] at hkeys
    constructor
    · rw [hkeys, (List.perm_append_singleton _ _).nodup_iff, List.nodup_cons]
      exact ⟨hmem, h.nodup⟩
    · rw [hkeys, List.forall_mem_append]
      exact ⟨h.kinds, fun k hk => ⟨r, List.mem_singleton.1 hk⟩⟩

theorem Gauged.observe {m : Registry} (h : m.Gauged) (event : Event) :
    (m.observe event).Gauged := by
  obtain ⟨r, t⟩ := event
  cases t with
  | allocated =>
    refine h.update r (fun x => x.add (.ofNat 1)) ?_
    simp [Registry.observe, count]
  | released =>
    refine h.update r (fun x => x.add (.ofInt (-1))) ?_
    simp [Registry.observe, count, Transition.name_inj]
  | finalized =>
    have hlive : (m.observe ⟨r, .finalized⟩).live = m.live := by
      simp [Registry.observe, count, Transition.name_inj]
    exact ⟨hlive ▸ h.nodup, hlive ▸ h.kinds⟩

private theorem gauged_foldl {m : Registry} (h : m.Gauged) (events : List Event) :
    (events.foldl Registry.observe m).Gauged := by
  induction events generalizing m with
  | nil => exact h
  | cons event events ih => exact ih (h.observe event)

private theorem Gauged.zero_of_mem {m : Registry} (h : m.Gauged) (hzero : ∀ r, m.gauge r = .ofNat 0)
    {entry : List Bytes × Binary64} (hmem : entry ∈ m.live) :
    ∃ r : Resource, entry = ([r.name], .ofNat 0) := by
  obtain ⟨k, v⟩ := entry
  obtain ⟨r, rfl⟩ := h.kinds k (List.mem_map_of_mem hmem)
  have hgauge := hzero r
  rw [gauge, Table.get?_of_mem h.nodup hmem] at hgauge
  exact ⟨r, by rw [← hgauge]; rfl⟩

end Registry

/-- A text of metrics that shows nothing as live: behind the text without the gauge of live
resources, the samples of that gauge are all zero. -/
def NothingLive (text : Bytes) : Prop :=
  ∃ (m : Registry) (samples : List Bytes), m.live = [] ∧
    text = m.text ++ family "hvm_native_resources_live"
      "Native allocations currently owned by the host." "gauge" samples ∧
    ∀ s ∈ samples, ∃ r : Resource, s = sample "hvm_native_resources_live" ["kind"] [r.name] "0"

private theorem Registry.Gauged.nothingLive {m : Registry} (h : m.Gauged)
    (hzero : ∀ r, m.gauge r = .ofNat 0) : NothingLive m.text := by
  refine ⟨{ m with live := [] }, numbers "hvm_native_resources_live" ["kind"] id m.live, rfl,
    ?_, ?_⟩
  · have hnone : numbers "hvm_native_resources_live" ["kind"] id ([] : Table Binary64) = [] := by
      simp [numbers, Table.sorted]
    simp [Registry.text, hnone, family]
  · intro s hs
    obtain ⟨entry, hentry, rfl⟩ := List.mem_map.1 hs
    obtain ⟨r, rfl⟩ := h.zero_of_mem hzero (List.mem_mergeSort.1 hentry)
    exact ⟨r, rfl⟩

end Metrics

namespace Cli

open Metrics Simulator

variable {σ α : Type} {ops : List Operation}

section Errands

variable (h : Uses ops) (boundary : Boundary σ) (backend : σ) (source : Bytes)

include h

private theorem Uses.errand_gauge (r : Resource) :
    let s := ((Session.start backend).run { boundary := boundary } (errand source ops)).2
    (s.world.events.foldl Registry.observe {}).gauge r = .ofNat 0 := by
  have hstart : (Session.start backend).Balanced := fun r => by cases r <;> rfl
  have hengine := h.errand_throughEngine source
  have hbalanced := Session.run_preserves (Q := fun op => op.throughEngine = true)
    (P := Session.Balanced) (e := { boundary := boundary })
    (fun s op hop hs => Session.step_balanced rfl hs hop) hengine hstart
  have hnone : liveBooks
      ((Session.start backend).run { boundary := boundary } (errand source ops)).2.books = 0 :=
    List.countP_eq_zero.2 fun b hb => by
      simpa using h.errand_released { boundary := boundary } backend source b hb
  have hsolvent : Solvent (2 ^ 53)
      ((Session.start backend).run { boundary := boundary }
        (errand source ops)).2.world.events := by
    refine Session.run_solvent rfl hstart (solvent_nil _) hengine fun before after heq => ?_
    suffices hfew :
        ((Session.start backend).run { boundary := boundary } before).2.books.length ≤ 1 from
      Nat.lt_of_le_of_lt (List.countP_le_length.trans hfew) (by decide)
    cases before with
    | nil => exact Nat.zero_le 1
    | cons op before =>
      obtain ⟨rfl, htail⟩ := List.cons.inj heq
      refine length_books_le_one _ backend source fun op hop => h.errand_book? op ?_
      rw [htail]
      exact List.mem_append_left after hop
  simp only
  rw [Registry.gauge_foldl hsolvent, hbalanced r, hnone]
  simp

end Errands

private theorem Uses.errand_clean (h : Uses ops) (o : Options) (observed : Bool) {source : Bytes}
    (hsource : source.length < 2 ^ 63) :
    let l := ((Session.start {}).run (host o observed) (errand source ops)).2.world.backend
    l.live = [] ∧ l.outstanding = 0 ∧ l.violations = [] := by
  have hwithin := h.errand_within (host o observed) {} hsource
  have hclean := clean_run o observed hwithin.engine hwithin.sources hwithin.addresses
  obtain ⟨hlive, houtstanding⟩ := hclean.outstanding_eq_zero (h.errand_released _ _ source)
  exact ⟨hlive, houtstanding, hclean.violations⟩

private theorem Attended.nothingLive {env : Environment σ} {s : GlobalSettings} {b : Backend σ}
    {source : Bytes} {post : Postcondition α} {r : Finished σ α} {work : List Act} {m : Registry}
    (h : Attended env s b source post r ops work m) (hmetered : s.metered = true) :
    NothingLive m.text := by
  have hlive := h.live
  rw [hmetered] at hlive
  have hgauged := Registry.gauged_foldl (m := {}) ⟨.nil, by simp⟩
    (b.attend true source ops).2.world.events
  refine Registry.Gauged.nothingLive ⟨hlive ▸ hgauged.nodup, hlive ▸ hgauged.kinds⟩ fun r => ?_
  rw [Registry.gauge, hlive]
  exact h.uses.errand_gauge b.boundary b.state source r

/-- How a command that loads a program leaves things behind, with the simulated engine. -/
structure CleansUp (env : Environment Ledger) (given : Given) (r : Result Ledger) : Prop where
  /-- The engine holds nothing, and it was not misused. -/
  settled : ∀ l, r.backend = some l → l.live = [] ∧ l.outstanding = 0 ∧ l.violations = []
  /-- A backend that was not opened is neither called nor closed. -/
  unopened : r.backend = none → ∀ a ∈ r.acts, a.saved?.isSome = true
  /-- A backend that was opened is closed once, if it can be closed, and it is closed after
  everything was given back. -/
  closed : r.backend.isSome = true → ∃ c b work after,
    (RunSettings.ofGiven given).resolve env.contents = .ok c ∧
    (env.openBackend c).outcome = .ok b ∧
    r.acts = .opened :: (work ++ b.closingActs ++ after) ∧
    (∀ a ∈ work, a.isWork = true) ∧ (∀ a ∈ after, a.saved?.isSome = true) ∧
    ((work.filterMap Act.call?).flatMap Call.handed).Perm
      ((work.filterMap Act.call?).flatMap Call.released)
  /-- Once there is a program, the metrics are written last of all. -/
  metrics : ∀ c program, (RunSettings.ofGiven given).resolve env.contents = .ok c →
    ProgramText.load env.files c = .ok program →
    (GlobalSettings.ofGiven given).metered = true →
    env.files.checkReplace (GlobalSettings.ofGiven given).metricsFile = .ok () →
    ∃ before text,
      r.acts = before ++ [.saved (GlobalSettings.ofGiven given).metricsFile text] ∧
        NothingLive text

section Commands

variable {env : Environment Ledger} {given : Given} {c : RunConfig}

private theorem CleansUp.of_course {post : ProgramText → Postcondition α} {done : Finished Ledger α}
    {r : Result Ledger}
    (hopen : ∀ c b, (env.openBackend c).outcome = .ok b →
      ∃ o, b.boundary = Simulator.boundary o ∧ b.state = {})
    (hread : ∀ path image, env.files.read path = .ok image → image.data.length < 2 ^ 63)
    (hresolve : (RunSettings.ofGiven given).resolve env.contents = .ok c)
    (hcourse : Course env (GlobalSettings.ofGiven given) c post done)
    (hacts : r.acts = done.acts) (hbackend : r.backend = done.backend) :
    CleansUp env given r := by
  cases hcourse with
  | unloaded hload hnone hunopened houtcome =>
    refine ⟨?_, ?_, ?_, ?_⟩
    · simp [hbackend, hunopened]
    · simp [hacts, hnone]
    · simp [hbackend, hunopened]
    · intro c' program hc' hprogram
      obtain rfl : c = c' := Except.ok.inj (hresolve.symm.trans hc')
      exact nomatch hload.symm.trans hprogram
  | unopened hload hrefused hmetrics hunopened houtcome =>
    rw [hmetrics] at hacts
    refine ⟨?_, ?_, ?_, ?_⟩
    · simp [hbackend, hunopened]
    · intro _ a ha
      rw [hacts] at ha
      rw [GlobalSettings.eq_saved_of_mem ha]
      rfl
    · simp [hbackend, hunopened]
    · intro c' program _ _ hmetered hreplace
      refine ⟨[], Registry.text {}, ?_, ?_⟩
      · simp [hacts, GlobalSettings.metricsActs, hmetered, hreplace]
      · exact Registry.Gauged.nothingLive ⟨.nil, by simp⟩ fun r => rfl
  | @worked program b ops work m hload hopened hattended =>
    rw [hattended.acts] at hacts
    rw [hattended.backend] at hbackend
    obtain ⟨o, hboundary, hstate⟩ := hopen c b hopened
    have hsource := ProgramText.length_load hread hload
    refine ⟨?_, ?_, fun _ => ?_, ?_⟩
    · intro l hl
      rw [hbackend, Option.some_inj] at hl
      rw [← hl, Backend.attend, hboundary, hstate]
      exact hattended.uses.errand_clean o _ hsource
    · simp [hbackend]
    · refine ⟨c, b, work, _, hresolve, hopened, hacts, hattended.isWork, fun a ha => ?_, ?_⟩
      · rw [GlobalSettings.eq_saved_of_mem ha]
        rfl
      · rw [hattended.calls]
        exact hattended.uses.errand_settled _ b.state program.source
    · intro c' program' _ _ hmetered hreplace
      refine ⟨.opened :: (work ++ b.closingActs), m.text, ?_, hattended.nothingLive hmetered⟩
      simp [hacts, GlobalSettings.metricsActs, hmetered, hreplace]

private theorem CleansUp.of_unresolved {f : Fault} {r : Result Ledger}
    (hresolve : (RunSettings.ofGiven given).resolve env.contents = .error f)
    (hacts : r.acts = []) (hbackend : r.backend = none) : CleansUp env given r where
  settled := by simp [hbackend]
  unopened := by simp [hacts]
  closed := by simp [hbackend]
  metrics := by simp [hresolve]

end Commands

/-- However a command that loads a program ends, for whatever settings and whatever the engine is
told to refuse, it has cleaned up. -/
theorem commands_clean_up (env : Environment Ledger)
    (hopen : ∀ c b, (env.openBackend c).outcome = .ok b →
      ∃ o, b.boundary = Simulator.boundary o ∧ b.state = {})
    (hread : ∀ path image, env.files.read path = .ok image → image.data.length < 2 ^ 63)
    (command : Command) (hcommand : command = .run ∨ command = .serialize) (line : Flag.Line) :
    CleansUp env line.given (act env command line) := by
  rcases hcommand with rfl | rfl
  · simp only [act, withConfig]
    cases hresolve : (RunSettings.ofGiven line.given).resolve env.contents with
    | error f => exact .of_unresolved hresolve rfl rfl
    | ok c => exact .of_course hopen hread hresolve (runConfigured_course ..) rfl rfl
  · simp only [act, withConfig]
    cases hresolve : (RunSettings.ofGiven line.given).resolve env.contents with
    | error f => exact .of_unresolved hresolve rfl rfl
    | ok c => exact .of_course hopen hread hresolve (serializeConfigured_course ..) rfl rfl

/-- A run with metrics whose evaluation is refused: the backend was opened all the same. -/
theorem commands_clean_up_refused_evaluation :
    let env : Environment Ledger :=
      { files := ⟨fun _ => .ok (.bytes "@main = (1)"), fun _ => .ok (), fun _ => .ok ()⟩
        openBackend := fun _ =>
          { outcome := .ok ⟨Simulator.boundary { evaluateError := "stopped" }, {}, some (.ok ())⟩ }
        runId := [], start := default, stop := default }
    let args : List Bytes := ["--wasm", "m.wasm", "--source", "p.hvm", "--metrics-file", "m.prom"]
    ∃ line, Flag.read Command.run.flags args = .ok line ∧
      (act env .run line).backend.isSome = true ∧ (GlobalSettings.ofGiven line.given).metered ∧
      CleansUp env line.given (act env .run line) := by
  intro env args
  have hread : ((Flag.read Command.run.flags args).toOption.any fun line =>
      (act env .run line).backend.isSome &&
        (GlobalSettings.ofGiven line.given).metered) = true := by
    decide +kernel
  cases hline : Flag.read Command.run.flags args with
  | error f => simp [hline, Except.toOption] at hread
  | ok line =>
    simp only [hline, Except.toOption, Option.any_some, Bool.and_eq_true] at hread
    refine ⟨line, rfl, hread.1, hread.2, commands_clean_up env ?_ ?_ .run (.inl rfl) line⟩
    · intro c b hb
      obtain rfl := Except.ok.inj hb
      exact ⟨_, rfl, rfl⟩
    · intro path image himage
      obtain rfl := Except.ok.inj himage
      decide

end Cli

end EngineHost
