import EngineHost.Proofs.Lifecycle

/-!
# Released books

A session has the books that its parses have handed out. Closing a book and finalizing it compete
for its release. Whichever comes first is the last thing that the engine hears of the book: every
later operation on it is refused or does nothing, without a call and without a report, and only a
release by the finalizer is reported as one.
-/

namespace EngineHost

variable {σ : Type} {e : Engine σ} {s : Session σ} {ops : List Operation} {i : Nat} {p : Ptr}

/-- Whether the finalizer, and not a close, is what releases a book. -/
def finalizerReleases (i : Nat) (ops : List Operation) : Bool :=
  (ops.find? (Operation.releases i)).any Operation.finalizes

def Answer.book? : Answer → Option Nat
  | .book i => some i
  | _ => none

private theorem Operation.finalizes_eq_false {op : Operation} (hbook : op.book? = some i)
    (hkeeps : op.releases i = false) : op.finalizes = false := by
  cases op with
  | finalize ref => cases ref <;> simp_all [book?, releases]
  | _ => rfl

namespace Session

/-! ## Books that are handed out -/

private theorem book?_onBook {ref : BookRef} {foreign : Answer}
    {f : Nat → Book → Session σ → Answer × Session σ} (hforeign : foreign.book? = none)
    (hf : ∀ i b, (f i b s).1.book? = none) : (s.onBook ref foreign f).1.book? = none := by
  unfold onBook
  split
  · exact hforeign
  · split
    · rfl
    · exact hf _ _

private theorem book?_step (e : Engine σ) (s : Session σ) {op : Operation}
    (hop : op.throughEngine = true) (hparse : ∀ source, op ≠ .parse source) :
    (s.step e op).1.book? = none := by
  cases op with
  | parse source => exact absurd rfl (hparse source)
  | parseForeign => rfl
  | newForeign => rfl
  | evaluate => exact book?_onBook rfl fun _ _ => rfl
  | serialize => exact book?_onBook rfl fun _ _ => rfl
  | serializeTo => exact book?_onBook rfl fun _ _ => rfl
  | serializedLength => exact book?_onBook rfl fun _ _ => rfl
  | close => exact book?_onBook rfl fun _ _ => rfl
  | released => exact book?_onBook rfl fun _ _ => rfl
  | finalize => exact book?_onBook rfl fun _ _ => rfl
  | _ => cases hop

/-- Books are handed out by parses only, with the numbers of their places. -/
private theorem step_hands_out (e : Engine σ) (s : Session σ) {op : Operation}
    (hop : op.throughEngine = true) :
    ((s.step e op).1.book? = some s.books.length ∧
      (s.step e op).2.books.length = s.books.length + 1) ∨
    ((s.step e op).1.book? = none ∧ (s.step e op).2.books.length = s.books.length) := by
  have hnone := s.book?_step e hop
  obtain ⟨calls, -, hkind⟩ := s.step_kind e hop
  generalize (s.step e op).1 = a, (s.step e op).2.books = books at hkind hnone ⊢
  cases hkind with
  | kept => exact .inl ⟨rfl, by simp⟩
  | closed a hreleases =>
    refine .inr ⟨hnone ?_, by simp⟩
    rintro source rfl
    cases hreleases
  | settled hcalls hkind hparse =>
    refine .inr ⟨?_, rfl⟩
    by_cases hsource : ∃ source, op = .parse source
    · obtain ⟨source, hsource⟩ := hsource
      obtain ⟨f, rfl⟩ := hparse source hsource
      rfl
    · exact hnone (not_exists.1 hsource)

private theorem run_concat (e : Engine σ) (s : Session σ) (ops : List Operation) (op : Operation) :
    s.run e (ops ++ [op]) =
      ((s.run e ops).1 ++ [((s.run e ops).2.step e op).1], ((s.run e ops).2.step e op).2) := by
  rw [run_append]
  rfl

theorem run_hands_out (e : Engine σ) (backend : σ) (hops : ∀ op ∈ ops, op.throughEngine = true) :
    ((start backend).run e ops).1.filterMap Answer.book? =
      List.range ((start backend).run e ops).2.books.length := by
  induction ops using List.reverseRecOn with
  | nil => rfl
  | append_singleton ops op ih =>
    have ih := ih fun o ho => hops o (List.mem_append_left _ ho)
    rw [run_concat, List.filterMap_append, ih]
    rcases step_hands_out e ((start backend).run e ops).2 (hops op (by simp)) with
      ⟨ha, hb⟩ | ⟨ha, hb⟩
    · simp [ha, hb, List.range_succ]
    · simp [ha, hb]

/-! ## Books that are given up -/

/-- A book has come to its end. Each operation on it that has a result gives none, for the reason
that the book is released, and no operation on it changes anything: not the backend, not the trace
of calls, not the reported transitions. -/
structure ReleasedForGood (e : Engine σ) (i : Nat) (s : Session σ) : Prop where
  evaluate : ∀ options, ∃ f, f.is .released = true ∧
    s.step e (.evaluate (.parsed i) options) = (.evaluation (.error f), s)
  serialize : ∃ f, f.is .released = true ∧
    s.step e (.serialize (.parsed i)) = (.bytes (.error f), s)
  serializeTo : ∀ buffer, ∃ f, f.is .released = true ∧
    s.step e (.serializeTo (.parsed i) buffer) = (.filled ⟨.error f, buffer⟩, s)
  serializedLength : ∃ f, f.is .released = true ∧
    s.step e (.serializedLength (.parsed i)) = (.length (.error f), s)
  close : s.step e (.close (.parsed i)) = (.closed, s)
  released : s.step e (.released (.parsed i)) = (.flag true, s)
  finalize : s.step e (.finalize (.parsed i)) = (.finalized, s)

private theorem is_released_wrap (op : Bytes) :
    (Fault.wrap op (.condition .released)).is .released = true := by
  simp [Fault.is, Fault.layers, Fault.isItself]

private theorem releasedForGood (hb : s.books[i]? = some ⟨0⟩) : ReleasedForGood e i s := by
  have hset : s.setBook i ⟨0⟩ = s := by
    simp only [setBook, set_released hb]
  constructor
  · intro options
    refine ⟨_, is_released_wrap "Book.Evaluate", ?_⟩
    simp only [step, onBook, hb]
    rfl
  · refine ⟨_, is_released_wrap "Book.Serialize", ?_⟩
    simp only [step, onBook, hb]
    rfl
  · intro buffer
    refine ⟨_, is_released_wrap "Book.SerializeTo", ?_⟩
    simp only [step, onBook, hb]
    rfl
  · refine ⟨_, is_released_wrap "Book.SerializedLen", ?_⟩
    simp only [step, onBook, hb]
    rfl
  · simp only [step, onBook, hb]
    exact congrArg (Prod.mk _) hset
  · simp only [step, onBook, hb]
    rfl
  · simp only [step, onBook, hb]
    exact congrArg (Prod.mk _) hset

private theorem step_stays_released (e : Engine σ) (op : Operation) (hb : s.books[i]? = some ⟨0⟩) :
    (s.step e op).2.books[i]? = some ⟨0⟩ := by
  cases hop : op.throughEngine with
  | true => exact (step_released hop hb).1
  | false => rw [(s.step_aside e hop).1, hb]

private theorem run_stays_released (e : Engine σ) (ops : List Operation)
    (hb : s.books[i]? = some ⟨0⟩) :
    (s.run e ops).2.books[i]? = some ⟨0⟩ :=
  run_preserves (Q := fun _ => True) (P := fun s => s.books[i]? = some ⟨0⟩)
    (fun _ op _ hb => step_stays_released e op hb) (fun _ _ => trivial) hb

theorem step_stays_live (e : Engine σ) {op : Operation} (hb : s.books[i]? = some ⟨p⟩)
    (hkeeps : op.releases i = false) : (s.step e op).2.books[i]? = some ⟨p⟩ := by
  cases hop : op.throughEngine with
  | true => exact (step_live hop hb hkeeps).1
  | false => rw [(s.step_aside e hop).1, hb]

/-- Whether it was live before or not, a book is released after a release. -/
theorem step_ends (e : Engine σ) {op : Operation} (hi : i < s.books.length)
    (hreleases : op.releases i = true) : (s.step e op).2.books[i]? = some ⟨0⟩ := by
  have hop := Operation.throughEngine_of_book? (Operation.book?_of_releases hreleases)
  obtain ⟨p, hb⟩ : ∃ p, s.books[i]? = some ⟨p⟩ := ⟨s.books[i].ptr, List.getElem?_eq_getElem hi⟩
  by_cases hp : p = 0
  · subst hp
    exact (step_released hop hb).1
  · exact (step_release hop hb hp hreleases).1

/-- In a history an operation closed or finalized a book that had been parsed by then. -/
def Ended (e : Engine σ) (s : Session σ) (ops : List Operation) (i : Nat) : Prop :=
  ∃ before op after, ops = before ++ op :: after ∧
    i < (s.run e before).2.books.length ∧ op.releases i = true

theorem Ended.books (h : Ended e s ops i) : (s.run e ops).2.books[i]? = some ⟨0⟩ := by
  obtain ⟨before, op, after, rfl, hi, hreleases⟩ := h
  rw [run_append]
  exact run_stays_released e after (step_ends e hi hreleases)

theorem Ended.concat (h : Ended e s ops i) (op : Operation) : Ended e s (ops ++ [op]) i := by
  obtain ⟨before, op', after, rfl, hi, hreleases⟩ := h
  exact ⟨before, op', after ++ [op], by simp, hi, hreleases⟩

private theorem step_adds_live (e : Engine σ) {op : Operation} (hi : s.books.length ≤ i) {b : Book}
    (hb : (s.step e op).2.books[i]? = some b) : b.released = false := by
  have hnone : s.books[i]? = none := List.getElem?_eq_none hi
  cases hop : op.throughEngine with
  | false =>
    rw [(s.step_aside e hop).1, hnone] at hb
    cases hb
  | true =>
    obtain ⟨calls, -, hkind⟩ := s.step_kind e hop
    generalize (s.step e op).1 = a, (s.step e op).2.books = books at hkind hb
    cases hkind with
    | @kept p hparse hp =>
      rw [List.getElem?_append_right hi] at hb
      obtain rfl := List.mem_singleton.1 (List.mem_of_getElem? hb)
      simpa [Book.released] using hp
    | closed a hreleases hj hp =>
      rw [List.getElem?_eq_none (by simpa using hi)] at hb
      cases hb
    | settled =>
      rw [hnone] at hb
      cases hb

theorem run_released_iff (e : Engine σ) (backend : σ) (ops : List Operation) {b : Book}
    (hb : ((start backend).run e ops).2.books[i]? = some b) :
    b.released = true ↔ Ended e (start backend) ops i := by
  constructor
  · induction ops using List.reverseRecOn generalizing b with
    | nil => simp [run, start] at hb
    | append_singleton ops op ih =>
      intro hreleased
      rw [run_concat] at hb
      rcases Nat.lt_or_ge i ((start backend).run e ops).2.books.length with hi | hi
      · cases hreleases : op.releases i with
        | true => exact ⟨ops, op, [], rfl, hi, hreleases⟩
        | false =>
          have hbefore := List.getElem?_eq_getElem hi
          rw [step_stays_live e hbefore hreleases] at hb
          cases hb
          exact (ih hbefore hreleased).concat op
      · rw [step_adds_live e hi hb] at hreleased
        cases hreleased
  · intro hended
    rw [hended.books] at hb
    cases hb
    rfl

def eventsFor (e : Engine σ) (i : Nat) : Session σ → List Operation → List Event
  | _, [] => []
  | s, op :: ops =>
    (if op.book? = some i then s.eventsOf e op else []) ++ eventsFor e i (s.step e op).2 ops

private theorem eventsFor_released (e : Engine σ) (ops : List Operation)
    (hb : s.books[i]? = some ⟨0⟩) :
    s.eventsFor e i ops = [] := by
  induction ops generalizing s with
  | nil => rfl
  | cons op ops ih =>
    rw [eventsFor, ih (step_stays_released e op hb), List.append_nil]
    split
    · have hop := Operation.throughEngine_of_book? ‹_›
      rw [(s.step_events e hop).2, (step_released hop hb).2 ‹_›]
      simp
    · rfl

private theorem count_finalized_eventsFor (e : Engine σ) (ops : List Operation)
    (hb : s.books[i]? = some ⟨p⟩) (hp : p ≠ 0) :
    (s.eventsFor e i ops).count ⟨.book, .finalized⟩ =
      if e.observed ∧ finalizerReleases i ops then 1 else 0 := by
  induction ops generalizing s with
  | nil => simp [eventsFor, finalizerReleases]
  | cons op ops ih =>
    cases hreleases : op.releases i with
    | true =>
      have hbook := Operation.book?_of_releases hreleases
      have hop := Operation.throughEngine_of_book? hbook
      obtain ⟨hnext, hcalls⟩ := step_release (e := e) hop hb hp hreleases
      have hfirst : finalizerReleases i (op :: ops) = op.finalizes := by
        simp [finalizerReleases, List.find?_cons_of_pos hreleases]
      rw [eventsFor, if_pos hbook, eventsFor_released e ops hnext, List.append_nil,
        (s.step_events e hop).2, hcalls, hfirst]
      cases e.observed <;> simp [Operation.count_told_finalized]
    | false =>
      have hnext := step_stays_live e hb hreleases
      have hfirst : finalizerReleases i (op :: ops) = finalizerReleases i ops := by
        simp [finalizerReleases, List.find?_cons_of_neg, hreleases]
      rw [eventsFor, List.count_append, ih hnext, hfirst, Nat.add_eq_right]
      split
      · have hop := Operation.throughEngine_of_book? ‹_›
        have hfinalizes := Operation.finalizes_eq_false ‹_› hreleases
        rw [(s.step_events e hop).2]
        cases e.observed <;> simp [Operation.count_told_finalized, hfinalizes]
      · rfl

/-- How books end in a history of operations of any kind. -/
structure ReleaseIsFinal (e : Engine σ) (backend : σ) (ops : List Operation) : Prop where
  /-- Once a book was closed or finalized, it is released for good, whatever happens afterwards. -/
  forGood : ∀ before op after, ops = before ++ op :: after →
    ∀ i, i < ((start backend).run e before).2.books.length → op.releases i = true →
      ReleasedForGood e i ((start backend).run e ops).2
  /-- A book that a parse answered is reported as finalized once if the finalizer is the first to
  release it, and never otherwise. -/
  finalized : ∀ before source after, ops = before ++ .parse source :: after →
    let s := ((start backend).run e before).2
    ∀ i, (s.step e (.parse source)).1 = .book i →
      ((s.step e (.parse source)).2.eventsFor e i after).count ⟨.book, .finalized⟩ =
        if e.observed ∧ finalizerReleases i after then 1 else 0
  /-- No other operation reports a finalization. -/
  only : ∀ before op after, ops = before ++ op :: after →
    ∀ r, ⟨r, .finalized⟩ ∈ ((start backend).run e before).2.eventsOf e op →
      r = .book ∧ ∃ i, op = .finalize (.parsed i)

/-- For every boundary, the release of a book is final and silent afterwards. -/
theorem release_is_final (e : Engine σ) (backend : σ) (ops : List Operation) :
    ReleaseIsFinal e backend ops where
  forGood := by
    rintro before op after rfl i hi hreleases
    have hended : Ended e (start backend) (before ++ op :: after) i :=
      ⟨before, op, after, rfl, hi, hreleases⟩
    exact releasedForGood hended.books
  finalized := by
    rintro before source after rfl s i hi
    obtain ⟨p, hp, -, hb⟩ := step_parse_book hi
    exact count_finalized_eventsFor e after hb hp
  only := by
    rintro before op after rfl r hr
    obtain ⟨hbook, i, p, hop, -⟩ := finalized_of_mem_eventsOf e _ hr
    exact ⟨hbook, i, hop⟩

example : ((start {}).run { boundary := Simulator.boundary {} }
    [.parse "@main = 1", .finalize (.parsed 0), .close (.parsed 0),
      .finalize (.parsed 0)]).2.world.events =
      [⟨.book, .allocated⟩, ⟨.book, .released⟩, ⟨.book, .finalized⟩] := by
  decide

end Session

end EngineHost
