import EngineHost.Proofs.History
import EngineHost.Simulator.Engine

/-!
# Every call is counted

The host reaches a backend through the calls of the boundary and in no other way. A relation
between the backend and the trace that each call keeps is therefore kept by every operation. The
counters of the simulated engine are in such a relation with the trace.
-/

namespace EngineHost

variable {σ ρ α β : Type} {P : σ → List Call → Prop} {e : Engine σ}

/-- An operation keeps a relation between the backend and the calls so far. -/
def Keeps (P : σ → List Call → Prop) (x : HostM σ α) : Prop :=
  ∀ w : World σ, P w.backend w.trace → P (x w).2.backend (x w).2.trace

namespace Keeps

theorem pure (a : α) : Keeps P (Pure.pure a : HostM σ α) := fun _ h => h

theorem bind {x : HostM σ α} {f : α → HostM σ β} (hx : Keeps P x) (hf : ∀ a, Keeps P (f a)) :
    Keeps P (x >>= f) :=
  fun w hw => hf _ _ (hx w hw)

theorem map {x : HostM σ α} (hx : Keeps P x) (f : α → β) :
    Keeps P (x >>= fun a => Pure.pure (f a)) :=
  hx.bind fun _ => pure _

theorem ite {c : Prop} [Decidable c] {x y : HostM σ α} (hx : Keeps P x) (hy : Keeps P y) :
    Keeps P (if c then x else y) := by
  split
  · exact hx
  · exact hy

theorem ifThen {c : Prop} [Decidable c] {x : HostM σ Unit} {k : Unit → HostM σ β}
    (hx : Keeps P x) (hk : Keeps P (k ())) : Keeps P (if c then x >>= k else k ()) :=
  ite (hx.bind fun _ => hk) hk

theorem call {f : σ → Reply σ α} {note : α → Call}
    (h : ∀ s calls, P s calls → P (f s).state (calls ++ [note (f s).value])) :
    Keeps P (World.call f note) :=
  fun _ hw => h _ _ hw

theorem track (r : Resource) (t : Transition) : Keeps P (e.track r t) :=
  bind (fun _ h => h) fun _ => ite (fun _ h => h) (pure ())

end Keeps

/-- Each call of a boundary keeps a relation between the backend and the calls so far. -/
structure Boundary.Keeps (b : Boundary σ) (P : σ → List Call → Prop) : Prop where
  parse : ∀ source slot s calls, P s calls → let r := b.parse source slot s
    P r.state (calls ++ [.parse r.value.ptr r.value.slot])
  freeBook : ∀ p s calls, P s calls → P (b.freeBook p s).state (calls ++ [.freeBook p])
  evaluate : ∀ book i dump slot s calls, P s calls → let r := b.evaluate book i dump slot s
    P r.state (calls ++ [.evaluate book i dump r.value.ptr r.value.slot])
  freeEvaluation : ∀ p s calls, P s calls →
    P (b.freeEvaluation p s).state (calls ++ [.freeEvaluation p])
  serialize : ∀ book slot s calls, P s calls → let r := b.serialize book slot s
    P r.state (calls ++ [.serialize book r.value.ptr r.value.slot])
  vecLength : ∀ p s calls, P s calls → let r := b.vecLength p s
    P r.state (calls ++ [.vecLength p r.value])
  vecCopy : ∀ p buffer s calls, P s calls → let r := b.vecCopy p buffer s
    P r.state (calls ++ [.vecCopy p buffer.length r.value.1])
  freeVec : ∀ p s calls, P s calls → P (b.freeVec p s).state (calls ++ [.freeVec p])
  freeText : ∀ p s calls, P s calls → P (b.freeText p s).state (calls ++ [.freeText p])
  readText : ∀ p s calls, P s calls → P (b.readText p s).state (calls ++ [.readText p])
  readRecord : ∀ p s calls, P s calls → P (b.readRecord p s).state (calls ++ [.readRecord p])

namespace Boundary.Keeps

theorem decodeText (h : e.boundary.Keeps P) (p : Ptr) :
    EngineHost.Keeps P (e.boundary.decodeText p) := by
  refine .ite (.pure _) (.bind (.call (h.readText p)) fun data => ?_)
  cases data with
  | none => exact .pure _
  | some data => exact .pure _

theorem text (h : e.boundary.Keeps P) (t : NativeText) :
    EngineHost.Keeps P (t.text e.boundary) := by
  obtain ⟨p, decoded⟩ := t
  cases decoded with
  | none => exact (h.decodeText p).bind fun _ => .pure _
  | some text => exact .pure _

theorem release (h : e.boundary.Keeps P) (t : NativeText) :
    EngineHost.Keeps P (t.release e.boundary) :=
  .ite (.pure _) (.bind (.call (h.freeText t.ptr)) fun _ => .pure _)

theorem checkSlot (h : e.boundary.Keeps P) (op : Bytes) (slot : Ptr) :
    EngineHost.Keeps P (e.checkSlot op slot) := by
  refine .ite (.pure _) (.bind (.track _ _) fun _ => .bind (h.text _) fun a => ?_)
  exact .bind (h.release a.2) fun _ => .bind (.track _ _) fun _ => .pure _

private theorem freeBook_track (h : e.boundary.Keeps P) (p : Ptr) :
    EngineHost.Keeps P (e.freeBook p) :=
  .bind (.call (h.freeBook p)) fun _ => .track _ _

private theorem freeEvaluation_track (h : e.boundary.Keeps P) (p : Ptr) :
    EngineHost.Keeps P (e.freeEvaluation p) :=
  .bind (.call (h.freeEvaluation p)) fun _ => .track _ _

private theorem freeVec_track (h : e.boundary.Keeps P) (p : Ptr) :
    EngineHost.Keeps P (e.freeVec p) :=
  .bind (.call (h.freeVec p)) fun _ => .track _ _

private theorem parseBook (h : e.boundary.Keeps P) (source : Bytes) :
    EngineHost.Keeps P (e.parse source) := by
  refine .map (x := e.parseReturning source) ?_ _
  refine .bind (.call (h.parse source 0)) fun made => ?_
  refine .ifThen (.track _ _) (.bind (h.checkSlot _ _) fun fault => ?_)
  cases fault with
  | none => exact .ite (.pure _) (.pure _)
  | some fault => exact .ifThen (h.freeBook_track made.ptr) (.pure _)

private theorem closeBook (h : e.boundary.Keeps P) (b : Book) : EngineHost.Keeps P (e.close b) :=
  .ite (.pure _) ((h.freeBook_track b.ptr).bind fun _ => .pure _)

private theorem finalizeBook (h : e.boundary.Keeps P) (b : Book) :
    EngineHost.Keeps P (e.finalize b) :=
  .ite (.pure _) ((h.freeBook_track b.ptr).bind fun _ => .bind (.track _ _) fun _ =>
    .bind (fun _ hw => hw) fun _ => .pure _)

theorem copyRecord (h : e.boundary.Keeps P) (p : Ptr) : EngineHost.Keeps P (e.copyRecord p) := by
  refine .bind (.call (h.readRecord p)) fun record => ?_
  cases record with
  | none => exact .pure _
  | some record =>
    exact (h.decodeText record.result).bind fun _ => (h.decodeText record.memDump).bind fun _ =>
      .pure _

theorem evaluationOf (h : e.boundary.Keeps P) (p slot : Ptr) :
    EngineHost.Keeps P (e.evaluationOf p slot) := by
  refine .bind (h.checkSlot _ slot) fun fault => ?_
  cases fault with
  | none => exact .ite (.pure _) (h.copyRecord p)
  | some fault => exact .pure _

theorem withBook {f : Ptr → HostM σ (Except (Failed ρ) α)} (hf : ∀ p, EngineHost.Keeps P (f p))
    (op : Bytes) (b : Book) (out : ρ) : EngineHost.Keeps P (Engine.withBook op b out f) :=
  .ite (.pure _) (hf b.ptr)

theorem evaluateBook (h : e.boundary.Keeps P) (b : Book) (options : EvaluateOptions) :
    EngineHost.Keeps P (e.evaluate b options) := by
  refine .map (x := e.evaluateReturning b options) (withBook (fun book => ?_) _ b _) _
  refine .bind (.call (h.evaluate book options.interpreter options.dump 0)) fun made => ?_
  refine .ifThen (.track _ _) (.bind (h.evaluationOf _ _) fun outcome => ?_)
  exact .ifThen (h.freeEvaluation_track made.ptr) (.pure _)

theorem withVec (h : e.boundary.Keeps P) {use : Ptr → HostM σ (Except (Failed ρ) α)}
    (huse : ∀ p, EngineHost.Keeps P (use p)) (out : ρ) (book : Ptr) :
    EngineHost.Keeps P (e.withVec book out use) := by
  refine .bind (.call (h.serialize book 0)) fun made => ?_
  refine .ifThen (.track _ _) (.bind (h.checkSlot _ _) fun fault => ?_)
  cases fault with
  | none =>
    exact .ite (.pure _) ((huse _).bind fun _ => (h.freeVec_track _).bind fun _ => .pure _)
  | some fault => exact .ifThen (h.freeVec_track made.ptr) (.pure _)

theorem length (h : e.boundary.Keeps P) (p : Ptr) : EngineHost.Keeps P (e.vecLength p) :=
  .call (h.vecLength p)

theorem copy (h : e.boundary.Keeps P) (p : Ptr) (want : UInt64) (buffer : Bytes) :
    EngineHost.Keeps P (e.vecCopy p want buffer) := by
  refine .ite (.pure _) (.bind (.call (h.vecCopy p buffer)) fun r => ?_)
  exact .ite (.pure _) (.pure _)

theorem vecBytes (h : e.boundary.Keeps P) (p : Ptr) : EngineHost.Keeps P (e.vecBytes p) := by
  refine (h.length p).bind fun n => .ite (.pure _) ((h.copy p n _).bind fun r => ?_)
  obtain ⟨fault, buffer⟩ := r
  cases fault with
  | none => exact .pure _
  | some fault => exact .pure _

theorem vecFill (h : e.boundary.Keeps P) (buffer : Bytes) (p : Ptr) :
    EngineHost.Keeps P (e.vecFill buffer p) := by
  refine (h.length p).bind fun n => .ite (.pure _) ((h.copy p n buffer).bind fun r => ?_)
  obtain ⟨fault, after⟩ := r
  cases fault with
  | none => exact .pure _
  | some fault => exact .pure _

theorem raw (h : e.boundary.Keeps P) (call : RawCall) :
    EngineHost.Keeps P (Session.rawStep e.boundary call) := by
  cases call with
  | parse source slot => exact .map (.call (h.parse source slot)) _
  | evaluate book i dump slot => exact .map (.call (h.evaluate book i dump slot)) _
  | serialize book slot => exact .map (.call (h.serialize book slot)) _
  | freeBook p => exact .bind (.call (h.freeBook p)) fun _ => .pure _
  | freeEvaluation p => exact .bind (.call (h.freeEvaluation p)) fun _ => .pure _
  | freeVec p => exact .bind (.call (h.freeVec p)) fun _ => .pure _
  | freeText p => exact .bind (.call (h.freeText p)) fun _ => .pure _
  | vecLength p => exact .map (.call (h.vecLength p)) _
  | vecCopy p buffer => exact .bind (.call (h.vecCopy p buffer)) fun _ => .pure _
  | readText p => exact .map (.call (h.readText p)) _
  | readRecord p => exact .map (.call (h.readRecord p)) _

end Boundary.Keeps

namespace Session

/-- The backend and the trace of a session are in a relation. -/
def Related (P : σ → List Call → Prop) (s : Session σ) : Prop := P s.world.backend s.world.trace

private theorem onBook_related {s : Session σ} (hs : s.Related P) (ref : BookRef) (foreign : Answer)
    {f : Nat → Book → Session σ → Answer × Session σ}
    (hf : ∀ i b, (f i b s).2.Related P) : (s.onBook ref foreign f).2.Related P := by
  cases ref with
  | foreign => exact hs
  | parsed i =>
    simp only [onBook]
    split
    · exact hs
    · exact hf i _

private theorem onText_related {s : Session σ} (hs : s.Related P) (i : Nat)
    {f : NativeText → Session σ → Answer × Session σ} (hf : ∀ t, (f t s).2.Related P) :
    (s.onText i f).2.Related P := by
  simp only [onText]
  split
  · exact hs
  · exact hf _

/-- What every call of the boundary keeps, every operation keeps. -/
theorem step_related (h : e.boundary.Keeps P) {s : Session σ} (hs : s.Related P)
    (op : Operation) : (s.step e op).2.Related P := by
  cases op with
  | parse source =>
    have hparse := h.parseBook source s.world hs
    have hsteps := step_parse e s source
    generalize (s.step e (.parse source)).1 = a, (s.step e (.parse source)).2 = s' at hsteps ⊢
    cases hsteps with
    | idle hop => exact absurd rfl (hop source)
    | refused => exact hparse
    | parsed => exact hparse
  | parseForeign => exact hs
  | newForeign => exact hs
  | evaluate ref options =>
    exact onBook_related hs ref _ fun _ b => h.evaluateBook b options _ hs
  | serialize ref =>
    refine onBook_related hs ref _ fun _ b => ?_
    exact (Boundary.Keeps.withBook (h.withVec h.vecBytes none) _ b none).map
      (Except.mapError Failed.fault) _ hs
  | serializeTo ref buffer =>
    refine onBook_related hs ref _ fun _ b => ?_
    exact ((Boundary.Keeps.withBook (h.withVec (h.vecFill buffer) _) _ b _).map
      (Except.mapError Engine.unfilled)).map Engine.Filled.ofReturned _ hs
  | serializedLength ref =>
    refine onBook_related hs ref _ fun _ b => ?_
    exact (Boundary.Keeps.withBook (h.withVec (fun p => (h.length p).map _) 0) _ b 0).map
      (Except.mapError Failed.fault) _ hs
  | close ref => exact onBook_related hs ref _ fun _ b => h.closeBook b _ hs
  | released ref => exact onBook_related hs ref _ fun _ _ => hs
  | finalize ref => exact onBook_related hs ref _ fun _ b => h.finalizeBook b _ hs
  | newText p => exact hs
  | textHasValue i => exact onText_related hs i fun _ => hs
  | textText i => exact onText_related hs i fun t => h.text t _ hs
  | textRelease i => exact onText_related hs i fun t => h.release t _ hs
  | decode p => exact h.decodeText p _ hs
  | raw call => exact h.raw call _ hs

private theorem run_related (h : e.boundary.Keeps P) {s : Session σ} (hs : s.Related P)
    (ops : List Operation) : (s.run e ops).2.Related P :=
  run_preserves (Q := fun _ => True) (P := Related P) (fun _ op _ hs => step_related h hs op)
    (fun _ _ => trivial) hs

end Session

/-- The counter of the simulated engine that a call moves. Looks at memory are not counted. -/
def Call.function? : Call → Option Simulator.Function
  | parse _ _ => some .bookParse
  | freeBook _ => some .freeBook
  | evaluate _ _ _ _ _ => some .bookEvaluate
  | freeEvaluation _ => some .freeEvaluation
  | serialize _ _ _ => some .bookSerialize
  | vecLength _ _ => some .vecLength
  | vecCopy _ _ _ => some .vecCopy
  | freeVec _ => some .freeVec
  | freeText _ => some .freeText
  | readText _ | readRecord _ => none

namespace Simulator

open Ledger

variable {l : Ledger}

def Counted (l : Ledger) (calls : List Call) : Prop := l.calls = calls.filterMap Call.function?

private theorem calls_of_lookup {f : Function} {p : Ptr} {kind : Resource} {a : Option Allocation}
    {l' : Ledger} (h : (l.count f).lookup f p kind = (a, l')) : l'.calls = l.calls ++ [f] := by
  have hl' : l' = ((l.count f).lookup f p kind).2 := by rw [h]
  rw [hl', lookup]
  split
  · rfl
  · split <;> rfl

private theorem calls_free (f : Function) (p : Ptr) (kind : Resource) :
    ((l.count f).free f p kind).calls = l.calls ++ [f] := by
  rcases hlookup : (l.count f).lookup f p kind with ⟨a, l'⟩
  have hcalls := calls_of_lookup hlookup
  rw [free, hlookup]
  cases a with
  | none => exact hcalls
  | some a => exact hcalls

private theorem calls_handOver (l : Ledger) (p : Ptr) (error : Option Bytes) :
    (handOver l p error).state.calls = l.calls := by
  cases error <;> rfl

private theorem calls_parse (o : Options) (source : Bytes) :
    (parse o source l).state.calls = l.calls ++ [.bookParse] := by
  simp only [parse]
  split
  · rfl
  · split
    · rfl
    · exact calls_handOver ..

private theorem calls_evaluate (o : Options) (book : Ptr) (i : Interpreter) (dump : UInt32) :
    (evaluate o book i dump l).state.calls = l.calls ++ [.bookEvaluate] := by
  rcases hlookup : (l.count .bookEvaluate).lookup .bookEvaluate book .book with ⟨a, l'⟩
  have hcalls := calls_of_lookup hlookup
  simp only [evaluate, hlookup]
  split
  · obtain ⟨-, rfl⟩ := Prod.mk.inj ‹_›
    split
    · exact hcalls
    · split
      · exact hcalls
      · exact (calls_handOver ..).trans hcalls
  · obtain ⟨-, rfl⟩ := Prod.mk.inj ‹_›
    exact hcalls

private theorem calls_freeEvaluation (p : Ptr) :
    (freeEvaluation p l).state.calls = l.calls ++ [.freeEvaluation] := by
  rcases hlookup : (l.count .freeEvaluation).lookup .freeEvaluation p .evaluation with ⟨a, l'⟩
  have hcalls := calls_of_lookup hlookup
  simp only [freeEvaluation, hlookup]
  split
  all_goals
    obtain ⟨-, rfl⟩ := Prod.mk.inj ‹_›
    exact hcalls

private theorem calls_serialize (o : Options) (book : Ptr) :
    (serialize o book l).state.calls = l.calls ++ [.bookSerialize] := by
  rcases hlookup : (l.count .bookSerialize).lookup .bookSerialize book .book with ⟨a, l'⟩
  have hcalls := calls_of_lookup hlookup
  simp only [serialize, hlookup]
  split
  · obtain ⟨-, rfl⟩ := Prod.mk.inj ‹_›
    exact (calls_handOver ..).trans hcalls
  · obtain ⟨-, rfl⟩ := Prod.mk.inj ‹_›
    exact hcalls

private theorem calls_vecLength (p : Ptr) :
    (vecLength p l).state.calls = l.calls ++ [.vecLength] := by
  rcases hlookup : (l.count .vecLength).lookup .vecLength p .vec with ⟨a, l'⟩
  have hcalls := calls_of_lookup hlookup
  simp only [vecLength, hlookup]
  split
  all_goals
    obtain ⟨-, rfl⟩ := Prod.mk.inj ‹_›
    exact hcalls

private theorem calls_vecCopy (p : Ptr) (buffer : Bytes) :
    (vecCopy p buffer l).state.calls = l.calls ++ [.vecCopy] := by
  rcases hlookup : (l.count .vecCopy).lookup .vecCopy p .vec with ⟨a, l'⟩
  have hcalls := calls_of_lookup hlookup
  simp only [vecCopy, hlookup]
  split
  · obtain ⟨-, rfl⟩ := Prod.mk.inj ‹_›
    split <;> exact hcalls
  · obtain ⟨-, rfl⟩ := Prod.mk.inj ‹_›
    exact hcalls

private theorem calls_readText (p : Ptr) : (readText p l).state.calls = l.calls := by
  simp only [readText]
  split <;> rfl

private theorem calls_readRecord (p : Ptr) : (readRecord p l).state.calls = l.calls := by
  simp only [readRecord]
  split <;> rfl

theorem Counted.counts {l' : Ledger} {calls : List Call} {c : Call} (h : Counted l calls)
    (hcalls : l'.calls = l.calls ++ [c].filterMap Call.function?) : Counted l' (calls ++ [c]) := by
  rw [Counted, hcalls, h, List.filterMap_append]

/-- The simulated engine counts every call but the looks at memory. -/
theorem boundary_counts (o : Options) : (boundary o).Keeps Counted where
  parse source _ _ _ h := h.counts (calls_parse o source)
  freeBook p _ _ h := h.counts (calls_free .freeBook p .book)
  evaluate book i dump _ _ _ h := h.counts (calls_evaluate o book i dump)
  freeEvaluation p _ _ h := h.counts (calls_freeEvaluation p)
  serialize book _ _ _ h := h.counts (calls_serialize o book)
  vecLength p _ _ h := h.counts (calls_vecLength p)
  vecCopy p buffer _ _ h := h.counts (calls_vecCopy p buffer)
  freeVec p _ _ h := h.counts (calls_free .freeVec p .vec)
  freeText p _ _ h := h.counts (calls_free .freeText p .text)
  readText p _ _ h := h.counts ((calls_readText p).trans (List.append_nil _).symm)
  readRecord p _ _ h := h.counts ((calls_readRecord p).trans (List.append_nil _).symm)

theorem counted_run (o : Options) (observed : Bool) (ops : List Operation) :
    let s := ((Session.start {}).run { boundary := boundary o, observed := observed } ops).2
    s.world.backend.calls = s.world.trace.filterMap Call.function? := by
  have hstart : (Session.start {}).Related Counted := rfl
  exact Session.run_related (e := { boundary := boundary o, observed := observed })
    (boundary_counts o) hstart ops

end Simulator

end EngineHost
