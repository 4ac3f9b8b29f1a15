import EngineHost.Proofs.History

/-!
# Everything is released exactly once

A boundary may answer anything: any address, any error text, any length. Whatever it does, an
operation gives back all that it was handed before it returns, in the order in which that is safe,
and a book is given back by whichever of closing and finalizing comes first.
-/

namespace EngineHost

variable {σ ρ α : Type} {e : Engine σ}

structure Handle where
  resource : Resource
  ptr : Ptr
deriving DecidableEq

def Handle.release : Handle → Call
  | ⟨.book, p⟩ => .freeBook p
  | ⟨.vec, p⟩ => .freeVec p
  | ⟨.evaluation, p⟩ => .freeEvaluation p
  | ⟨.text, p⟩ => .freeText p

namespace Call

def handed : Call → List Handle
  | parse p v => unlessNull p [⟨.book, p⟩] ++ unlessNull v [⟨.text, v⟩]
  | evaluate _ _ _ p v => unlessNull p [⟨.evaluation, p⟩] ++ unlessNull v [⟨.text, v⟩]
  | serialize _ p v => unlessNull p [⟨.vec, p⟩] ++ unlessNull v [⟨.text, v⟩]
  | _ => []

/-- What a call takes back from the host. -/
def released : Call → List Handle
  | freeBook p => [⟨.book, p⟩]
  | freeVec p => [⟨.vec, p⟩]
  | freeEvaluation p => [⟨.evaluation, p⟩]
  | freeText p => [⟨.text, p⟩]
  | _ => []

def told (c : Call) : List Event :=
  c.handed.map (fun h => ⟨h.resource, .allocated⟩) ++
    c.released.map fun h => ⟨h.resource, .released⟩

/-- Whether a call only looks at what is there. -/
def looks : Call → Bool
  | vecLength _ _ | vecCopy _ _ _ | readText _ | readRecord _ => true
  | _ => false

theorem handed_of_looks {c : Call} (h : c.looks = true) : c.handed = [] := by
  cases c <;> simp_all [looks, handed]

theorem released_of_looks {c : Call} (h : c.looks = true) : c.released = [] := by
  cases c <;> simp_all [looks, released]

private theorem told_of_looks {calls : List Call} (h : ∀ c ∈ calls, c.looks = true) :
    calls.flatMap told = [] := by
  refine List.flatMap_eq_nil_iff.2 fun c hc => ?_
  simp [told, handed_of_looks (h c hc), released_of_looks (h c hc)]

theorem ptr_ne_zero_of_mem_handed {c : Call} {h : Handle} (hmem : h ∈ c.handed) : h.ptr ≠ 0 := by
  have hunless : ∀ {p : Ptr} {r : Resource}, h ∈ unlessNull p [(⟨r, p⟩ : Handle)] → h.ptr ≠ 0 := by
    intro p r hmem
    by_cases hp : p = 0
    · simp [hp] at hmem
    · simp only [unlessNull_of_ne hp, List.mem_singleton] at hmem
      simpa [hmem] using hp
  cases c <;> simp only [handed, List.mem_append, List.not_mem_nil] at hmem <;>
    exact hmem.elim hunless hunless

end Call

@[simp] theorem Handle.released_release (h : Handle) : h.release.released = [h] := by
  obtain ⟨resource, p⟩ := h
  cases resource <;> rfl

@[simp] theorem Handle.handed_release (h : Handle) : h.release.handed = [] := by
  obtain ⟨resource, p⟩ := h
  cases resource <;> rfl

private theorem Call.eq_release_iff (c : Call) (h : Handle) : c = h.release ↔ c.released = [h] := by
  constructor
  · rintro rfl
    exact h.released_release
  · intro hreleased
    cases c <;> simp_all [Call.released] <;> subst hreleased <;> rfl

/-- A release is counted in a trace as often as its handle is given back there. -/
theorem count_release (calls : List Call) (h : Handle) :
    calls.count h.release = (calls.flatMap Call.released).count h := by
  induction calls with
  | nil => rfl
  | cons c calls ih =>
    rw [List.flatMap_cons, List.count_append, List.count_cons, ih, Nat.add_comm]
    congr 1
    by_cases hc : c = h.release
    · subst hc
      simp
    · have hreleased : c.released ≠ [h] := fun heq => hc ((c.eq_release_iff h).2 heq)
      cases c <;> simp_all [Call.released]

/-- The calls of an operation that asks the engine for at most one thing of a kind: the call that
makes it, the error text read and released, looks at what was made, and its release. -/
inductive Transcript (r : Resource) : List Call → Prop
  | silent : Transcript r []
  | served (made : Call) (p v : Ptr) (looks : List Call)
      (hmade : made.handed = unlessNull p [⟨r, p⟩] ++ unlessNull v [⟨.text, v⟩])
      (hasks : made.released = []) (hkind : r ≠ .text) (hlooks : ∀ c ∈ looks, c.looks = true) :
      Transcript r (made :: (unlessNull v [.readText v, .freeText v] ++
        (looks ++ unlessNull p [Handle.release ⟨r, p⟩])))

namespace Transcript

theorem parse (p v : Ptr) : Transcript .book (.parse p v ::
    (unlessNull v [.readText v, .freeText v] ++ ([] ++ unlessNull p [.freeBook p]))) :=
  served (.parse p v) p v [] rfl rfl (by simp) (by simp)

theorem evaluate (book : Ptr) (i : Interpreter) (dump : UInt32) (p v : Ptr) {looks : List Call}
    (hlooks : ∀ c ∈ looks, c.looks = true) :
    Transcript .evaluation (.evaluate book i dump p v ::
      (unlessNull v [.readText v, .freeText v] ++ (looks ++ unlessNull p [.freeEvaluation p]))) :=
  served (.evaluate book i dump p v) p v looks rfl rfl (by simp) hlooks

theorem serialize (book p v : Ptr) {looks : List Call} (hlooks : ∀ c ∈ looks, c.looks = true) :
    Transcript .vec (.serialize book p v ::
      (unlessNull v [.readText v, .freeText v] ++ (looks ++ unlessNull p [.freeVec p]))) :=
  served (.serialize book p v) p v looks rfl rfl (by simp) hlooks

end Transcript

theorem Runs.tells {x : HostM σ α} {s s' : σ} {a : α} {calls : List Call} {events : List Event}
    (h : Runs e x s a s' calls events) (hevents : calls.flatMap Call.told = events) :
    Runs e x s a s' calls (calls.flatMap Call.told) :=
  hevents ▸ h

namespace Engine

/-- A parse that fails gives back everything; one that succeeds keeps the book alone. -/
theorem parse_transcript (e : Engine σ) (source : Bytes) (s : σ) :
    ∃ a s' calls, Runs e (e.parse source) s a s' calls (calls.flatMap Call.told) ∧
      ((∃ f, a = .error f ∧ Transcript .book calls) ∨
        ∃ p, p ≠ 0 ∧ a = .ok ⟨p⟩ ∧ calls = [.parse p 0]) := by
  rcases hmade : (e.boundary.parse source 0 s).value with ⟨p, v⟩
  by_cases hv : v = 0
  · subst hv
    by_cases hp : p = 0
    · subst hp
      exact ⟨_, _, _, (runs_parse_nothing hmade).tells rfl, .inl ⟨_, rfl, .parse 0 0⟩⟩
    · refine ⟨_, _, _, (runs_parse_made hmade hp).tells ?_, .inr ⟨p, hp, rfl, rfl⟩⟩
      simp [Call.told, Call.handed, Call.released, hp]
  · refine ⟨_, _, _, (runs_parse_refused hmade hv).tells ?_, .inl ⟨_, rfl, ?_⟩⟩
    · by_cases hp : p = 0 <;> simp [Call.told, Call.handed, Call.released, hp, hv]
    · simpa [hv] using Transcript.parse p v

private theorem copyRecord_looks (e : Engine σ) (p : Ptr) (s : σ) :
    ∃ a s' calls, Runs e (e.copyRecord p) s a s' calls [] ∧ ∀ c ∈ calls, c.looks = true := by
  cases hread : (e.boundary.readRecord p s).value with
  | none => exact ⟨_, _, _, runs_copyRecord_unreadable hread, by simp [Call.looks]⟩
  | some record =>
    refine ⟨_, _, _, runs_copyRecord hread, ?_⟩
    intro c hc
    simp only [unlessNull, List.mem_append, List.mem_singleton] at hc
    rcases hc with rfl | hc | hc
    · rfl
    all_goals
      split at hc
      · simp at hc
      · rw [List.mem_singleton.1 hc]
        rfl

theorem evaluate_transcript (e : Engine σ) (b : Book) (options : EvaluateOptions) (s : σ) :
    ∃ a s' calls, Runs e (e.evaluate b options) s a s' calls (calls.flatMap Call.told) ∧
      Transcript .evaluation calls ∧ (b.ptr = 0 → calls = []) := by
  obtain ⟨book⟩ := b
  by_cases hb : book = 0
  · subst hb
    exact ⟨_, _, _, runs_evaluate_released options s, .silent, fun _ => rfl⟩
  have hlive : book = 0 → ∀ calls : List Call, calls = [] := fun h => absurd h hb
  rcases hmade : (e.boundary.evaluate book options.interpreter options.dump 0 s).value with ⟨p, v⟩
  by_cases hv : v = 0
  · subst hv
    by_cases hp : p = 0
    · subst hp
      refine ⟨_, _, _, (runs_evaluate hb hmade (runs_evaluationOf_nothing _)).tells rfl, ?_,
        fun h => hlive h _⟩
      exact .evaluate book _ _ 0 0 (List.forall_mem_nil _)
    · obtain ⟨a, s', calls, hcopy, hlooks⟩ := e.copyRecord_looks p
        (e.boundary.evaluate book options.interpreter options.dump 0 s).state
      refine ⟨_, _, _, (runs_evaluate hb hmade (runs_evaluationOf_made hp hcopy)).tells ?_, ?_,
        fun h => hlive h _⟩
      · simp [Call.told_of_looks hlooks, Call.told, Call.handed, Call.released, hp]
      · exact .evaluate book _ _ p 0 hlooks
  · refine ⟨_, _, _, (runs_evaluate hb hmade (runs_evaluationOf_refused p hv _)).tells ?_, ?_,
      fun h => hlive h _⟩
    · by_cases hp : p = 0 <;> simp [Call.told, Call.handed, Call.released, hp, hv]
    · simpa [hv] using Transcript.evaluate book options.interpreter options.dump p v
        (List.forall_mem_nil _)

private theorem withVec_transcript (e : Engine σ) (book : Ptr) (out : ρ)
    {use : Ptr → HostM σ (Except (Failed ρ) α)}
    (huse : ∀ p s, ∃ a s' calls, Runs e (use p) s a s' calls [] ∧ ∀ c ∈ calls, c.looks = true)
    (s : σ) :
    ∃ a s' calls, Runs e (e.withVec book out use) s a s' calls (calls.flatMap Call.told) ∧
      Transcript .vec calls := by
  rcases hmade : (e.boundary.serialize book 0 s).value with ⟨p, v⟩
  by_cases hv : v = 0
  · subst hv
    by_cases hp : p = 0
    · subst hp
      refine ⟨_, _, _, (runs_withVec_nothing hmade).tells rfl, ?_⟩
      exact .serialize book 0 0 (List.forall_mem_nil _)
    · obtain ⟨a, s', calls, hruns, hlooks⟩ := huse p (e.boundary.serialize book 0 s).state
      refine ⟨_, _, _, (runs_withVec_made hmade hp hruns).tells ?_, ?_⟩
      · simp [Call.told_of_looks hlooks, Call.told, Call.handed, Call.released, hp]
      · simpa [hp] using Transcript.serialize book p 0 hlooks
  · refine ⟨_, _, _, (runs_withVec_refused hmade hv).tells ?_, ?_⟩
    · by_cases hp : p = 0 <;> simp [Call.told, Call.handed, Call.released, hp, hv]
    · simpa [hv] using Transcript.serialize book p v (List.forall_mem_nil _)

private theorem vecLength_looks (e : Engine σ) (p : Ptr) (s : σ) :
    ∃ a s' calls,
      Runs e (do return (.ok (← e.vecLength p) : Except (Failed UInt64) UInt64)) s a s' calls [] ∧
        ∀ c ∈ calls, c.looks = true :=
  ⟨_, _, _, (runs_vecLength p s).map _, by simp [Call.looks]⟩

private theorem vecBytes_looks (e : Engine σ) (p : Ptr) (s : σ) :
    ∃ a s' calls, Runs e (e.vecBytes p) s a s' calls [] ∧ ∀ c ∈ calls, c.looks = true := by
  by_cases hn : (e.boundary.vecLength p s).value = 0
  · exact ⟨_, _, _, runs_vecBytes_empty hn, by simp [Call.looks]⟩
  by_cases hroom : (e.boundary.vecLength p s).value.toNat ≤ e.room
  · exact ⟨_, _, _, runs_vecBytes rfl hn hroom, by simp [Call.looks]⟩
  · exact ⟨_, _, _, runs_vecBytes_crash rfl (Nat.not_le.1 hroom), by simp [Call.looks]⟩

private theorem vecFill_looks (e : Engine σ) (buffer : Bytes) (p : Ptr) (s : σ) :
    ∃ a s' calls, Runs e (e.vecFill buffer p) s a s' calls [] ∧ ∀ c ∈ calls, c.looks = true := by
  by_cases hshort : buffer.length < (e.boundary.vecLength p s).value.toNat
  · exact ⟨_, _, _, runs_vecFill_short rfl hshort, by simp [Call.looks]⟩
  by_cases hn : (e.boundary.vecLength p s).value = 0
  · exact ⟨_, _, _, runs_vecFill_empty hn, by simp [Call.looks]⟩
  · exact ⟨_, _, _, runs_vecFill rfl hn (Nat.not_lt.1 hshort), by simp [Call.looks]⟩

private theorem withBook_transcript (e : Engine σ) (op : Bytes) (b : Book) (out : ρ)
    {f : Ptr → HostM σ (Except (Failed ρ) α)} {r : Resource}
    (hf : ∀ p s, ∃ a s' calls, Runs e (f p) s a s' calls (calls.flatMap Call.told) ∧
      Transcript r calls) (s : σ) :
    ∃ a s' calls, Runs e (withBook op b out f) s a s' calls (calls.flatMap Call.told) ∧
      Transcript r calls ∧ (b.ptr = 0 → calls = []) := by
  obtain ⟨book⟩ := b
  by_cases hb : book = 0
  · subst hb
    exact ⟨_, _, _, runs_withBook_released op out f s, .silent, fun _ => rfl⟩
  · obtain ⟨a, s', calls, hruns, hcalls⟩ := hf book s
    rw [withBook_live op hb]
    exact ⟨a, s', calls, hruns, hcalls, fun h => absurd h hb⟩

theorem serializedLength_transcript (e : Engine σ) (b : Book) (s : σ) :
    ∃ a s' calls, Runs e (e.serializedLength b) s a s' calls (calls.flatMap Call.told) ∧
      Transcript .vec calls ∧ (b.ptr = 0 → calls = []) := by
  obtain ⟨a, s', calls, hruns, hcalls⟩ := e.withBook_transcript "Book.SerializedLen" b 0
    (fun p s => e.withVec_transcript p 0 e.vecLength_looks s) s
  exact ⟨_, s', calls, hruns.map _, hcalls⟩

private theorem serialize_transcript (e : Engine σ) (b : Book) (s : σ) :
    ∃ a s' calls, Runs e (e.serialize b) s a s' calls (calls.flatMap Call.told) ∧
      Transcript .vec calls ∧ (b.ptr = 0 → calls = []) := by
  obtain ⟨a, s', calls, hruns, hcalls⟩ := e.withBook_transcript "Book.Serialize" b none
    (fun p s => e.withVec_transcript p none e.vecBytes_looks s) s
  exact ⟨_, s', calls, hruns.map _, hcalls⟩

theorem serializeTo_transcript (e : Engine σ) (b : Book) (buffer : Bytes) (s : σ) :
    ∃ a s' calls, Runs e (e.serializeTo b buffer) s a s' calls (calls.flatMap Call.told) ∧
      Transcript .vec calls ∧ (b.ptr = 0 → calls = []) := by
  let unfilled : Filling := { buffer := buffer }
  obtain ⟨a, s', calls, hruns, hcalls⟩ := e.withBook_transcript "Book.SerializeTo" b unfilled
    (fun p s => e.withVec_transcript p unfilled (e.vecFill_looks buffer) s) s
  exact ⟨_, s', calls, (hruns.map _).map _, hcalls⟩

end Engine

/-- The transitions that an operation reports for its calls. The finalizer adds one of its own when
it gives a book back. -/
def Operation.told (op : Operation) (calls : List Call) : List Event :=
  calls.flatMap Call.told ++
    match op with
    | .finalize _ => calls.map fun _ => ⟨.book, .finalized⟩
    | _ => []

@[simp] theorem Operation.told_nil (op : Operation) : op.told [] = [] := by
  cases op <;> rfl

private theorem Operation.told_parse (source : Bytes) (calls : List Call) :
    (Operation.parse source).told calls = calls.flatMap Call.told :=
  List.append_nil _

/-- What an operation adds to the world: its calls, and the transitions that it reports for
them. -/
structure Added (e : Engine σ) (op : Operation) (w w' : World σ) (calls : List Call) : Prop where
  trace : w'.trace = w.trace ++ calls
  events : w'.events = w.events ++ if e.observed then op.told calls else []

theorem Added.nil (e : Engine σ) (op : Operation) (w : World σ) : Added e op w w [] :=
  ⟨(List.append_nil _).symm, by simp⟩

theorem Runs.added {op : Operation} {x : HostM σ α} {w : World σ} {s' : σ} {a : α}
    {calls : List Call} (h : Runs e x w.backend a s' calls (op.told calls)) :
    Added e op w (x w).2 calls :=
  ⟨(h w rfl).2.2.1, (h w rfl).2.2.2⟩

/-- What an operation can do: keep a book that it parsed, release a live book, or leave the books
as they are and give back everything. The indices are its answer, the books and its calls. -/
inductive StepKind (s : Session σ) (op : Operation) : Answer → List Book → List Call → Prop
  | kept {p : Ptr} (hop : ∃ source, op = .parse source) (hp : p ≠ 0) :
      StepKind s op (.book s.books.length) (s.books ++ [⟨p⟩]) [.parse p 0]
  | closed {i : Nat} {p : Ptr} (a : Answer) (hop : op.releases i = true)
      (hb : s.books[i]? = some ⟨p⟩) (hp : p ≠ 0) :
      StepKind s op a (s.books.set i ⟨0⟩) [.freeBook p]
  | settled {a : Answer} {calls : List Call} {r : Resource} (hcalls : Transcript r calls)
      (hkind : r = .book → ∃ source, op = .parse source)
      (hparse : ∀ source, op = .parse source → ∃ f, a = .failed f)
      (hreleases : ∀ i p, op.releases i = true → s.books[i]? = some ⟨p⟩ → p = 0)
      (hsilent : ∀ i, op.book? = some i → s.books[i]? = some ⟨0⟩ → calls = []) :
      StepKind s op a s.books calls

namespace Session

theorem set_released {books : List Book} {i : Nat} {b : Book} (h : books[i]? = some b) :
    books.set i b = books := by
  obtain ⟨hi, rfl⟩ := List.getElem?_eq_some_iff.1 h
  exact List.set_getElem_self hi

private theorem step_kind_of_runs {s : Session σ} {op : Operation} {x : HostM σ α} {i : Nat}
    {b : Book}
    (hop : op.book? = some i) (hkeeps : ∀ j, op.releases j = false)
    (htold : ∀ calls, op.told calls = calls.flatMap Call.told) (hb : s.books[i]? = some b)
    (answer : Answer) {r : Resource} (hr : r ≠ .book)
    (hx : ∃ a s' calls, Runs e x s.world.backend a s' calls (calls.flatMap Call.told) ∧
      Transcript r calls ∧ (b.ptr = 0 → calls = [])) :
    ∃ calls, Added e op s.world (x s.world).2 calls ∧ StepKind s op answer s.books calls := by
  obtain ⟨a, s', calls, hruns, hcalls, hsilent⟩ := hx
  rw [← htold] at hruns
  refine ⟨calls, hruns.added, .settled hcalls (fun h => absurd h hr) ?_ ?_ ?_⟩
  · rintro source rfl
    simp [Operation.book?] at hop
  · intro j p hj
    simp [hkeeps j] at hj
  · intro j hj hreleased
    obtain rfl : i = j := Option.some.inj (hop.symm.trans hj)
    exact hsilent (by rw [Option.some.inj (hb.symm.trans hreleased)])

private theorem step_kind_of_release {s : Session σ} {op : Operation} {x : Book → HostM σ Book}
    {i : Nat}
    {b : Book} (hop : ∀ j, op.releases j = true ↔ j = i) (hparse : ∀ source, op ≠ .parse source)
    (hb : s.books[i]? = some b) (answer : Answer)
    (hreleased : ∀ s, Runs e (x ⟨0⟩) s ⟨0⟩ s [] [])
    (hlive : ∀ {p : Ptr}, p ≠ 0 → ∀ s, ∃ s',
      Runs e (x ⟨p⟩) s ⟨0⟩ s' [.freeBook p] (op.told [.freeBook p])) :
    ∃ calls, Added e op s.world (x b s.world).2 calls ∧
      StepKind s op answer (s.books.set i (x b s.world).1) calls := by
  obtain ⟨p⟩ := b
  by_cases hp : p = 0
  · subst hp
    -- the second release of a book finds the null address and makes no call
    have hruns := hreleased s.world.backend
    rw [(hruns s.world rfl).1, set_released hb]
    rw [← op.told_nil] at hruns
    refine ⟨[], hruns.added, .settled (r := .vec) .silent (by simp)
      (fun source h => absurd h (hparse source)) ?_ (fun _ _ _ => rfl)⟩
    intro j q hj hq
    rw [(hop j).1 hj, hb] at hq
    exact (Book.mk.inj (Option.some.inj hq)).symm
  · obtain ⟨s', hruns⟩ := hlive hp s.world.backend
    rw [(hruns s.world rfl).1]
    exact ⟨[.freeBook p], hruns.added, .closed answer ((hop i).2 rfl) hb hp⟩

theorem step_kind (e : Engine σ) (s : Session σ) {op : Operation} (hop : op.throughEngine = true) :
    ∃ calls, Added e op s.world (s.step e op).2.world calls ∧
      StepKind s op (s.step e op).1 (s.step e op).2.books calls := by
  have hsteps := s.step_steps e hop
  generalize (s.step e op).1 = a, (s.step e op).2 = s' at hsteps ⊢
  cases hsteps with
  | idle hparse hbook =>
    refine ⟨[], .nil e op s.world, .settled (r := .vec) .silent (by simp)
      (fun source h => absurd h (hparse source)) ?_ (fun _ _ _ => rfl)⟩
    intro i p hi hb
    exact absurd hb (hbook i _ hi)
  | @refused source f hparse =>
    obtain ⟨a, s', calls, hruns, houtcome⟩ := e.parse_transcript source s.world.backend
    rcases houtcome with ⟨f, rfl, hcalls⟩ | ⟨p, hp, rfl, rfl⟩
    · rw [← Operation.told_parse source] at hruns
      exact ⟨calls, hruns.added, .settled hcalls (fun _ => ⟨_, rfl⟩) (fun _ _ => ⟨_, rfl⟩)
        (by simp [Operation.releases]) (by simp [Operation.book?])⟩
    · simp [(hruns s.world rfl).1] at hparse
  | @parsed source b hparse =>
    obtain ⟨a, s', calls, hruns, houtcome⟩ := e.parse_transcript source s.world.backend
    rcases houtcome with ⟨f, rfl, hcalls⟩ | ⟨p, hp, rfl, rfl⟩
    · simp [(hruns s.world rfl).1] at hparse
    · obtain rfl : (⟨p⟩ : Book) = b := Except.ok.inj ((hruns s.world rfl).1.symm.trans hparse)
      rw [← Operation.told_parse source] at hruns
      exact ⟨_, hruns.added, .kept ⟨source, rfl⟩ hp⟩
  | evaluated options hb =>
    exact step_kind_of_runs rfl (fun _ => rfl) (fun _ => List.append_nil _) hb _ (by simp)
      (e.evaluate_transcript _ options _)
  | serialized hb =>
    exact step_kind_of_runs rfl (fun _ => rfl) (fun _ => List.append_nil _) hb _ (by simp)
      (e.serialize_transcript _ _)
  | filled buffer hb =>
    exact step_kind_of_runs rfl (fun _ => rfl) (fun _ => List.append_nil _) hb _ (by simp)
      (e.serializeTo_transcript _ buffer _)
  | measured hb =>
    exact step_kind_of_runs rfl (fun _ => rfl) (fun _ => List.append_nil _) hb _ (by simp)
      (e.serializedLength_transcript _ _)
  | closed hb =>
    exact step_kind_of_release (by simp [Operation.releases]) (by simp) hb _
      Engine.runs_close_released (fun hp s => ⟨_, Engine.runs_close hp s⟩)
  | finalized hb =>
    exact step_kind_of_release (by simp [Operation.releases]) (by simp) hb _
      Engine.runs_finalize_released (fun hp s => ⟨_, Engine.runs_finalize hp s⟩)

end Session

end EngineHost
