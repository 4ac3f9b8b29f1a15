import EngineHost.Proofs.CleanLedger
import EngineHost.Proofs.CountedCalls
import EngineHost.Proofs.ExactMetrics
import EngineHost.Proofs.Lifecycle

/-!
# The gauge of live resources

Metrics know of native resources only what the engine reports. Over the simulated engine, which
keeps a ledger of its own, the two can be compared: what the gauge shows is what the ledger has.
-/

namespace EngineHost

theorem Resource.name_inj {r r' : Resource} : r.name = r'.name ↔ r = r' := by
  cases r <;> cases r' <;> decide

theorem Transition.name_inj {t t' : Transition} : t.name = t'.name ↔ t = t' := by
  cases t <;> cases t' <;> decide

/-- A reported transition as metrics are told of it. -/
def Event.observation (e : Event) : Metrics.Observation :=
  .transition e.resource.name e.transition.name

private theorem Event.countP_observation (events : List Event) (r : Resource) (t : Transition) :
    (events.map Event.observation).countP (Metrics.Observation.isTransition r.name t.name) =
      events.count ⟨r, t⟩ := by
  rw [List.countP_map, List.count]
  congr 1
  funext e
  rw [Bool.eq_iff_iff]
  obtain ⟨r', t'⟩ := e
  simp [Event.observation, Metrics.Observation.isTransition, Resource.name_inj, Transition.name_inj]

namespace Metrics

namespace Registry

def gauge (m : Registry) (r : Resource) : Binary64 := (m.live.get? [r.name]).getD .zero

private theorem foldl_observe (events : List Event) :
    events.foldl observe {} = after (events.map Event.observation) := by
  rw [after, List.foldl_map]
  rfl

/-- As long as there are no more of a kind than a floating-point number counts exactly, the gauge
shows how many more were reported as allocated than as released. -/
theorem gauge_foldl {events : List Event} (h : Solvent (2 ^ 53) events) (r : Resource) :
    (events.foldl observe {}).gauge r =
      .ofNat (events.count ⟨r, .allocated⟩ - events.count ⟨r, .released⟩) := by
  have hsum : ∀ pre : List Event,
      ((pre.map Event.observation).map (Observation.change r.name)).sum =
      (pre.count ⟨r, .allocated⟩ : Int) - pre.count ⟨r, .released⟩ := by
    intro pre
    rw [Observation.sum_change, Event.countP_observation, Event.countP_observation]
  have hlive : (after (events.map Event.observation)).resourcesLive r.name =
      .ofInt (events.count ⟨r, .allocated⟩ - events.count ⟨r, .released⟩) := by
    rw [← hsum]
    apply resourcesLive_after
    intro told htold
    obtain ⟨pre, hpre, rfl⟩ := List.prefix_map_iff.1 htold
    have hsolvent := h pre hpre r
    rw [hsum]
    omega
  have hless := (h events (List.prefix_refl _) r).1
  rw [foldl_observe, ← Binary64.ofInt_natCast, Int.ofNat_sub hless]
  exact hlive

end Registry

end Metrics

def Resource.releaseFunction : Resource → Simulator.Function
  | book => .freeBook
  | vec => .freeVec
  | evaluation => .freeEvaluation
  | text => .freeText

private theorem count_releaseFunction (calls : List Call) (r : Resource) :
    (calls.filterMap Call.function?).count r.releaseFunction =
      (calls.flatMap Call.released).countP fun h => h.resource = r := by
  induction calls with
  | nil => rfl
  | cons c calls ih =>
    rw [List.flatMap_cons, List.countP_append, ← ih, ← List.singleton_append,
      List.filterMap_append, List.count_append]
    congr 1
    cases c <;> cases r <;> rfl

namespace Simulator

open Ledger Session

private theorem Clean.outstandingOf_eq {s : Session Ledger} (hs : Clean s) (r : Resource) :
    s.world.backend.outstandingOf r.name = if r = .book then liveBooks s.books else 0 := by
  have hkind : ∀ a : Allocation, (a.kindName == r.name) = decide (a.resource? = some r) := by
    intro a
    cases a <;> cases r <;> rfl
  calc s.world.backend.outstandingOf r.name
      = (tally s.world.backend.live).countP fun e => e.2 = some r := by
        simp only [outstandingOf, hkind, tally, List.countP_map, Function.comp_def]
    _ = (bookEntries s.books).countP fun e => e.2 = some r := by rw [hs.live]
    _ = if r = .book then liveBooks s.books else 0 := by
        rw [bookEntries, List.countP_map]
        by_cases hr : r = .book
        · simp [hr, Function.comp_def, liveBooks, List.countP_eq_length_filter]
        · simp [hr, Function.comp_def, Ne.symm hr]

/-- What the reports of a history, the metrics that count them and the ledger say of each other. -/
structure Reported (e : Engine Ledger) (ops : List Operation) (s : Session Ledger) : Prop where
  gauge : ∀ r, (s.world.events.foldl Metrics.Registry.observe {}).gauge r =
    .ofNat (s.world.backend.outstandingOf r.name)
  released : ∀ r, s.world.events.count ⟨r, .released⟩ =
    s.world.backend.callCount r.releaseFunction
  /-- At no time are more released than were allocated, so that the gauge is never negative. -/
  solvent : ∀ pre, pre <+: s.world.events → ∀ r,
    pre.count ⟨r, .released⟩ ≤ pre.count ⟨r, .allocated⟩ ∧
      (pre.foldl Metrics.Registry.observe {}).gauge r =
        .ofNat (pre.count ⟨r, .allocated⟩ - pre.count ⟨r, .released⟩)
  follows : FollowsRelease s.world.events
  /-- The release that a finalization follows is one of the same book. -/
  finalized : ∀ before op after, ops = before ++ op :: after →
    ∀ r, let s := ((Session.start {}).run e before).2
      ⟨r, .finalized⟩ ∈ s.eventsOf e op → ∃ i p, op = .finalize (.parsed i) ∧
        s.books[i]? = some ⟨p⟩ ∧ p ≠ 0 ∧ s.callsOf e op = [.freeBook p] ∧
        s.eventsOf e op = [⟨.book, .released⟩, ⟨.book, .finalized⟩]

/-- Over the simulated engine, whatever it is told to refuse, the reports of a history agree with
the ledger. Floating-point numbers count exactly up to 2 ^ 53, the lengths of texts are 64-bit
signed numbers, and the addresses must not wrap around. -/
theorem reported_run (o : Options) (ops : List Operation)
    (hops : ∀ op ∈ ops, op.throughEngine = true)
    (hsources : ∀ op ∈ ops, op.source.length < 2 ^ 63)
    (hfew : allocations ((Session.start {}).run { boundary := boundary o } ops).2.world.trace < 2 ^ 59)
    (hlive : ∀ before, before <+: ops →
      liveBooks ((Session.start {}).run { boundary := boundary o } before).2.books < 2 ^ 53) :
    Reported { boundary := boundary o } ops ((Session.start {}).run { boundary := boundary o } ops).2 := by
  have hclean := clean_run o true hops hsources hfew
  have hbalanced : ((Session.start {}).run (host o true) ops).2.Balanced :=
    run_preserves (P := Balanced) (fun s op hop hs => step_balanced rfl hs hop) hops fun r => by
      cases r <;> rfl
  have hsolvent : Solvent (2 ^ 53) ((Session.start {}).run (host o true) ops).2.world.events :=
    run_solvent rfl (fun r => by cases r <;> rfl) (solvent_nil _) hops
      fun before after heq => hlive before ⟨after, heq.symm⟩
  refine ⟨fun r => ?_, fun r => ?_, fun pre hpre r => ⟨(hsolvent pre hpre r).1, ?_⟩, ?_, ?_⟩
  · rw [Metrics.Registry.gauge_foldl hsolvent, hclean.outstandingOf_eq, hbalanced r,
      Nat.add_sub_cancel_left]
  · rw [callCount, counted_run, count_releaseFunction]
    exact run_preserves (P := fun s => s.world.events.count ⟨r, .released⟩ =
      (s.world.trace.flatMap Call.released).countP fun h => h.resource = r)
      (fun s op hop hs => step_count_released rfl hs hop) hops rfl
  · exact Metrics.Registry.gauge_foldl
      (fun pre' hpre' => hsolvent pre' (hpre'.trans hpre)) r
  · exact run_preserves (P := fun s => FollowsRelease s.world.events)
      (fun s op hop hs => step_followsRelease hs hop) hops
      fun pre r post h => by simp [Session.start] at h
  · intro before op after _ r s hmem
    exact (finalized_of_mem_eventsOf _ s hmem).2

/-- A book closed and one finalized, each used in between, a refused text, and two more tries at a
release. -/
theorem reported_run_two_books :
    let o : Options := { serializeError := "stopped" }
    let ops : List Operation := [.parse "@main = 1", .parse "main", .parse "@a = 2",
      .evaluate (.parsed 0) {}, .serialize (.parsed 0), .evaluate (.parsed 1) {},
      .finalize (.parsed 0), .close (.parsed 0), .close (.parsed 1), .finalize (.parsed 1)]
    let s := ((Session.start {}).run { boundary := boundary o } ops).2
    (∀ op ∈ ops, op.throughEngine = true) ∧ (∀ op ∈ ops, op.source.length < 2 ^ 63) ∧
      allocations s.world.trace < 2 ^ 59 ∧
      (∀ before, before <+: ops →
        liveBooks ((Session.start {}).run { boundary := boundary o } before).2.books < 2 ^ 53) ∧
      Reported { boundary := boundary o } ops s := by
  intro o ops s
  have hlive : ∀ before ∈ ops.inits,
      liveBooks ((Session.start {}).run { boundary := boundary o } before).2.books < 2 ^ 53 := by decide
  have hlive : ∀ before, before <+: ops →
      liveBooks ((Session.start {}).run { boundary := boundary o } before).2.books < 2 ^ 53 :=
    fun before h => hlive before ((List.mem_inits _ _).2 h)
  exact ⟨by decide, by decide, by decide, hlive,
    reported_run o ops (by decide) (by decide) (by decide) hlive⟩

end Simulator

end EngineHost
