import EngineHost.Proofs.Release
import EngineHost.Simulator.Engine

/-!
# Exactly once

The accounts of a whole history, for a boundary that may answer anything. Each operation settles
what it was handed, each book is given back by the first operation that releases it, and at any
time what was handed over is what has been given back together with the books that are live.
-/

namespace EngineHost

variable {σ : Type} {e : Engine σ}

private theorem flatMap_unlessNull {β γ : Type} (p : Ptr) (xs : List β) (f : β → List γ) :
    (unlessNull p xs).flatMap f = unlessNull p (xs.flatMap f) := by
  by_cases hp : p = 0 <;> simp [hp]

private theorem Call.nodup_handed (c : Call) : c.handed.Nodup := by
  have hpair : ∀ (r : Resource) (p v : Ptr), r ≠ .text →
      (unlessNull p [(⟨r, p⟩ : Handle)] ++ unlessNull v [(⟨.text, v⟩ : Handle)]).Nodup := by
    intro r p v hr
    by_cases hp : p = 0 <;> by_cases hv : v = 0 <;> simp [hp, hv, hr]
  cases c with
  | parse p v => exact hpair .book p v (by simp)
  | evaluate _ _ _ p v => exact hpair .evaluation p v (by simp)
  | serialize _ p v => exact hpair .vec p v (by simp)
  | _ => exact List.nodup_nil

namespace Transcript

variable {r : Resource} {calls : List Call}

theorem handed_tail (h : Transcript r calls) : ∀ c ∈ calls.tail, c.handed = [] := by
  cases h with
  | silent => simp
  | served made p v looks hmade hasks hkind hlooks =>
    intro c hc
    simp only [List.tail_cons, List.mem_append, mem_unlessNull, List.mem_cons, List.not_mem_nil,
      or_false] at hc
    rcases hc with ⟨-, rfl | rfl⟩ | hc | ⟨-, rfl⟩
    · rfl
    · rfl
    · exact Call.handed_of_looks (hlooks c hc)
    · exact Handle.handed_release _

/-- A transcript gives back what it was handed. -/
theorem handed_perm_released (h : Transcript r calls) :
    (calls.flatMap Call.handed).Perm (calls.flatMap Call.released) := by
  have htail := h.handed_tail
  cases h with
  | silent => exact .refl _
  | served made p v looks hmade hasks hkind hlooks =>
    have hreleased : looks.flatMap Call.released = [] :=
      List.flatMap_eq_nil_iff.2 fun c hc => Call.released_of_looks (hlooks c hc)
    have htext : [Call.readText v, .freeText v].flatMap Call.released = [⟨.text, v⟩] := rfl
    rw [List.tail_cons] at htail
    rw [List.flatMap_cons, List.flatMap_eq_nil_iff.2 htail, List.append_nil, hmade,
      List.flatMap_cons, hasks, List.nil_append]
    simp only [List.flatMap_append, flatMap_unlessNull, hreleased, htext, List.flatMap_singleton,
      Handle.released_release, List.nil_append]
    exact List.perm_append_comm

private theorem count_release_eq_one (h : Transcript r calls) {c : Call} (hc : c ∈ calls)
    {x : Handle} (hx : x ∈ c.handed) : calls.count x.release = 1 := by
  rw [count_release, ← h.handed_perm_released.count_eq]
  have htail := h.handed_tail
  cases calls with
  | nil => simp at hc
  | cons made rest =>
    rcases List.mem_cons.1 hc with rfl | hrest
    · rw [List.tail_cons] at htail
      rw [List.flatMap_cons, List.flatMap_eq_nil_iff.2 htail, List.append_nil]
      -- the text and the thing that one call hands over differ in kind, if not in address
      exact Nat.le_antisymm (List.nodup_iff_count.1 c.nodup_handed x) (List.one_le_count_iff.2 hx)
    · simp [htail c hrest] at hx

private theorem getLast?_eq_release (h : Transcript r calls) {c : Call} (hc : c ∈ calls)
    {x : Handle} (hx : x ∈ c.handed) (htext : x.resource ≠ .text) :
    x.resource = r ∧ calls.getLast? = some x.release := by
  have htail := h.handed_tail
  cases h with
  | silent => simp at hc
  | served made p v looks hmade hasks hkind hlooks =>
    rcases List.mem_cons.1 hc with rfl | hrest
    · rw [hmade] at hx
      simp only [List.mem_append, mem_unlessNull, List.mem_singleton] at hx
      rcases hx with ⟨hp, rfl⟩ | ⟨-, rfl⟩
      · refine ⟨rfl, ?_⟩
        rw [unlessNull_of_ne hp, ← List.append_assoc, ← List.cons_append, List.getLast?_concat]
      · exact absurd rfl htext
    · simp [htail c hrest] at hx

end Transcript

/-- What is settled when an operation returns. The indices are its answer, the books and its
calls. -/
structure Settled (s : Session σ) (op : Operation) (a : Answer) (books : List Book)
    (calls : List Call) : Prop where
  /-- Only the first call hands anything over. -/
  first : ∀ c ∈ calls.tail, c.handed = []
  /-- A text that was handed over is released once. -/
  text : ∀ c ∈ calls, ∀ v, ⟨.text, v⟩ ∈ c.handed → calls.count (.freeText v) = 1
  /-- An evaluation is released once, and nothing is called after that. -/
  evaluation : ∀ c ∈ calls, ∀ p, ⟨.evaluation, p⟩ ∈ c.handed →
    calls.count (.freeEvaluation p) = 1 ∧ calls.getLast? = some (.freeEvaluation p)
  /-- A vector is released once, and nothing is called after that. -/
  vec : ∀ c ∈ calls, ∀ p, ⟨.vec, p⟩ ∈ c.handed →
    calls.count (.freeVec p) = 1 ∧ calls.getLast? = some (.freeVec p)
  /-- The book of a parse that fails is released at once, and that of one that succeeds is kept. -/
  book : ∀ c ∈ calls, ∀ p, ⟨.book, p⟩ ∈ c.handed →
    (∃ f, a = .failed f) ∧ books = s.books ∧ calls.count (.freeBook p) = 1 ∧
        calls.getLast? = some (.freeBook p) ∨
      a = .book s.books.length ∧ books = s.books ++ [⟨p⟩] ∧ calls = [.parse p 0]
  /-- What is released is not null, and was handed over or is a live book that is given up. -/
  release : ∀ c ∈ calls, ∀ x ∈ c.released, x.ptr ≠ 0 ∧
    ((∃ d ∈ calls, x ∈ d.handed) ∨
      ∃ i, op.releases i = true ∧ s.books[i]? = some ⟨x.ptr⟩ ∧ books = s.books.set i ⟨0⟩ ∧
        calls = [.freeBook x.ptr])

private theorem StepKind.settled_of {s : Session σ} {op : Operation} {a : Answer}
    {books : List Book}
    {calls : List Call} (h : StepKind s op a books calls) : Settled s op a books calls := by
  cases h with
  | @kept p hop hp =>
    have hhanded : (Call.parse p 0).handed = [⟨.book, p⟩] := by simp [Call.handed, hp]
    constructor <;> simp [hhanded, Call.released]
  | @closed i p a hop hb hp =>
    have hhanded : (Call.freeBook p).handed = [] := rfl
    have hreleased : (Call.freeBook p).released = [⟨.book, p⟩] := rfl
    constructor <;> simp [hhanded, hreleased, hp]
    exact ⟨i, hop, hb, rfl⟩
  | @settled a calls r hcalls hkind hparse hreleases hsilent =>
    refine ⟨hcalls.handed_tail, ?_, ?_, ?_, ?_, ?_⟩
    · intro c hc v hv
      exact hcalls.count_release_eq_one hc hv
    · intro c hc p hp
      exact ⟨hcalls.count_release_eq_one hc hp, (hcalls.getLast?_eq_release hc hp (by simp)).2⟩
    · intro c hc p hp
      exact ⟨hcalls.count_release_eq_one hc hp, (hcalls.getLast?_eq_release hc hp (by simp)).2⟩
    · intro c hc p hp
      obtain ⟨hr, hlast⟩ := hcalls.getLast?_eq_release hc hp (by simp)
      obtain ⟨source, hop⟩ := hkind hr.symm
      exact .inl ⟨hparse source hop, rfl, hcalls.count_release_eq_one hc hp, hlast⟩
    · intro c hc x hx
      have hmem : x ∈ calls.flatMap Call.handed :=
        hcalls.handed_perm_released.mem_iff.2 (List.mem_flatMap.2 ⟨c, hc, hx⟩)
      obtain ⟨d, hd, hx⟩ := List.mem_flatMap.1 hmem
      exact ⟨Call.ptr_ne_zero_of_mem_handed hx, .inl ⟨d, hd, hx⟩⟩

theorem Operation.book?_of_releases {op : Operation} {i : Nat} (h : op.releases i = true) :
    op.book? = some i := by
  cases op with
  | close ref => cases ref <;> simp_all [Operation.releases, Operation.book?]
  | finalize ref => cases ref <;> simp_all [Operation.releases, Operation.book?]
  | _ => simp [Operation.releases] at h

namespace Session

/-- The calls that operations about one book make. -/
def callsFor (e : Engine σ) (i : Nat) : Session σ → List Operation → List Call
  | _, [] => []
  | s, op :: ops =>
    (if op.book? = some i then s.callsOf e op else []) ++ callsFor e i (s.step e op).2 ops

private theorem callsFor_append (e : Engine σ) (i : Nat) (s : Session σ)
    (before after : List Operation) :
    s.callsFor e i (before ++ after) =
      s.callsFor e i before ++ (s.run e before).2.callsFor e i after := by
  induction before generalizing s with
  | nil => rfl
  | cons op before ih =>
    simp only [List.cons_append, callsFor, ih, List.append_assoc]
    rfl

theorem step_trace (e : Engine σ) (s : Session σ) {op : Operation}
    (hop : op.throughEngine = true) :
    (s.step e op).2.world.trace = s.world.trace ++ s.callsOf e op ∧
      StepKind s op (s.step e op).1 (s.step e op).2.books (s.callsOf e op) := by
  obtain ⟨calls, hadded, hkind⟩ := s.step_kind e hop
  rw [callsOf_eq hadded.trace]
  exact ⟨hadded.trace, hkind⟩

theorem step_live {s : Session σ} {op : Operation} {i : Nat} {p : Ptr}
    (hop : op.throughEngine = true) (hb : s.books[i]? = some ⟨p⟩)
    (hkeeps : op.releases i = false) :
    (s.step e op).2.books[i]? = some ⟨p⟩ ∧
      (op.book? = some i → ∀ q, .freeBook q ∉ s.callsOf e op) := by
  obtain ⟨-, hkind⟩ := s.step_trace e hop
  generalize (s.step e op).1 = a, (s.step e op).2.books = books, s.callsOf e op = calls at hkind ⊢
  cases hkind with
  | kept hparse hp =>
    refine ⟨?_, by simp⟩
    rw [List.getElem?_append_left (List.getElem?_eq_some_iff.1 hb).1]
    exact hb
  | @closed j q a hreleases hj hq =>
    have hne : j ≠ i := by
      rintro rfl
      simp [hreleases] at hkeeps
    refine ⟨by rw [List.getElem?_set_ne hne, hb], fun hbook => ?_⟩
    rw [Operation.book?_of_releases hreleases] at hbook
    exact absurd (Option.some.inj hbook) hne
  | @settled a calls r hcalls hparse _ _ _ =>
    refine ⟨hb, fun hbook q hq => ?_⟩
    -- only a parse can have been handed a book, and a parse is about no book
    have hmem : (⟨.book, q⟩ : Handle) ∈ calls.flatMap Call.handed :=
      hcalls.handed_perm_released.mem_iff.2 (List.mem_flatMap.2 ⟨_, hq, by simp [Call.released]⟩)
    obtain ⟨c, hc, hx⟩ := List.mem_flatMap.1 hmem
    obtain ⟨source, rfl⟩ := hparse (hcalls.getLast?_eq_release hc hx (by simp)).1.symm
    simp [Operation.book?] at hbook

theorem run_live {s : Session σ} {ops : List Operation} {i : Nat} {p : Ptr}
    (hops : ∀ op ∈ ops, op.throughEngine = true) (hb : s.books[i]? = some ⟨p⟩)
    (hkeeps : ∀ op ∈ ops, op.releases i = false) :
    (s.run e ops).2.books[i]? = some ⟨p⟩ ∧ ∀ q, .freeBook q ∉ s.callsFor e i ops := by
  induction ops generalizing s with
  | nil => exact ⟨hb, by simp [callsFor]⟩
  | cons op ops ih =>
    simp only [List.forall_mem_cons] at hops hkeeps
    obtain ⟨hnext, hcalls⟩ := step_live (e := e) hops.1 hb hkeeps.1
    obtain ⟨hlive, hrest⟩ := ih hops.2 hnext hkeeps.2
    refine ⟨hlive, fun q hq => ?_⟩
    simp only [callsFor, List.mem_append] at hq
    rcases hq with hq | hq
    · split at hq
      · exact hcalls ‹_› q hq
      · simp at hq
    · exact hrest q hq

theorem step_release {s : Session σ} {op : Operation} {i : Nat} {p : Ptr}
    (hop : op.throughEngine = true) (hb : s.books[i]? = some ⟨p⟩) (hp : p ≠ 0)
    (hreleases : op.releases i = true) :
    (s.step e op).2.books[i]? = some ⟨0⟩ ∧ s.callsOf e op = [.freeBook p] := by
  obtain ⟨-, hkind⟩ := s.step_trace e hop
  generalize (s.step e op).1 = a, (s.step e op).2.books = books, s.callsOf e op = calls at hkind ⊢
  cases hkind with
  | kept hparse hq =>
    obtain ⟨source, rfl⟩ := hparse
    simp [Operation.releases] at hreleases
  | @closed j q a hreleased hj hq =>
    obtain rfl : j = i := by
      have hbook := Operation.book?_of_releases hreleased
      rw [Operation.book?_of_releases hreleases] at hbook
      exact (Option.some.inj hbook).symm
    obtain rfl : q = p := Book.mk.inj (Option.some.inj (hj.symm.trans hb))
    exact ⟨List.getElem?_set_self (List.getElem?_eq_some_iff.1 hj).1, rfl⟩
  | settled hcalls _ _ hreleased _ => exact absurd (hreleased i p hreleases hb) hp

theorem step_released {s : Session σ} {op : Operation} {i : Nat}
    (hop : op.throughEngine = true) (hb : s.books[i]? = some ⟨0⟩) :
    (s.step e op).2.books[i]? = some ⟨0⟩ ∧ (op.book? = some i → s.callsOf e op = []) := by
  obtain ⟨-, hkind⟩ := s.step_trace e hop
  generalize (s.step e op).1 = a, (s.step e op).2.books = books, s.callsOf e op = calls at hkind ⊢
  cases hkind with
  | kept hparse hp =>
    obtain ⟨source, rfl⟩ := hparse
    refine ⟨?_, by simp [Operation.book?]⟩
    rw [List.getElem?_append_left (List.getElem?_eq_some_iff.1 hb).1]
    exact hb
  | @closed j q a hreleases hj hq =>
    -- a book that is given up was live, and this one is not
    have hne : j ≠ i := by
      rintro rfl
      exact hq (Book.mk.inj (Option.some.inj (hj.symm.trans hb)))
    refine ⟨by rw [List.getElem?_set_ne hne, hb], fun hbook => ?_⟩
    rw [Operation.book?_of_releases hreleases] at hbook
    exact absurd (Option.some.inj hbook) hne
  | settled hcalls _ _ _ hsilent => exact ⟨hb, fun hbook => hsilent i hbook hb⟩

private theorem callsFor_released {s : Session σ} {ops : List Operation} {i : Nat}
    (hops : ∀ op ∈ ops, op.throughEngine = true) (hb : s.books[i]? = some ⟨0⟩) :
    s.callsFor e i ops = [] := by
  induction ops generalizing s with
  | nil => rfl
  | cons op ops ih =>
    simp only [List.forall_mem_cons] at hops
    obtain ⟨hnext, hcalls⟩ := step_released (e := e) hops.1 hb
    rw [callsFor, ih hops.2 hnext, List.append_nil]
    split
    · exact hcalls ‹_›
    · rfl

/-- The first operation that releases a book gives it back, and no call is made for the book before
that to release it or afterwards at all. -/
structure GivenBackOnce (e : Engine σ) (i : Nat) (p : Ptr) (s : Session σ) (ops : List Operation) :
    Prop where
  kept : (∀ op ∈ ops, op.releases i = false) → ∀ q, .freeBook q ∉ s.callsFor e i ops
  released : ∀ before op after, ops = before ++ op :: after →
    (∀ o ∈ before, o.releases i = false) → op.releases i = true →
      (∀ q, .freeBook q ∉ s.callsFor e i before) ∧
        s.callsFor e i ops = s.callsFor e i before ++ [.freeBook p]

private theorem givenBackOnce {s : Session σ} {ops : List Operation} {i : Nat} {p : Ptr}
    (hops : ∀ op ∈ ops, op.throughEngine = true) (hb : s.books[i]? = some ⟨p⟩) (hp : p ≠ 0) :
    GivenBackOnce e i p s ops where
  kept hkeeps := (run_live hops hb hkeeps).2
  released := by
    rintro before op after rfl hkeeps hreleases
    simp only [List.forall_mem_append, List.forall_mem_cons] at hops
    obtain ⟨hbefore, hop, hafter⟩ := hops
    obtain ⟨hlive, hcalls⟩ := run_live (e := e) hbefore hb hkeeps
    obtain ⟨hreleased, hfree⟩ := step_release (e := e) hop hlive hp hreleases
    refine ⟨hcalls, ?_⟩
    rw [callsFor_append, callsFor, if_pos (Operation.book?_of_releases hreleases), hfree,
      callsFor_released hafter hreleased, List.append_nil]

theorem step_parse_book {s : Session σ} {source : Bytes} {i : Nat}
    (ha : (s.step e (.parse source)).1 = .book i) :
    ∃ p, p ≠ 0 ∧ s.callsOf e (.parse source) = [.parse p 0] ∧
      (s.step e (.parse source)).2.books[i]? = some ⟨p⟩ := by
  have hop : (Operation.parse source).throughEngine = true := rfl
  obtain ⟨-, hkind⟩ := s.step_trace e hop
  generalize (s.step e (.parse source)).1 = a, (s.step e (.parse source)).2.books = books,
    s.callsOf e (.parse source) = calls at hkind ha ⊢
  cases hkind with
  | @kept p hparse hp =>
    obtain rfl : s.books.length = i := Answer.book.inj ha
    exact ⟨p, hp, rfl, by simp⟩
  | closed a hreleases hj hq => simp [Operation.releases] at hreleases
  | settled hcalls _ hparse _ _ =>
    obtain ⟨f, rfl⟩ := hparse source rfl
    simp at ha

/-- The books that are live, as things to be given back. -/
def held (books : List Book) : List Handle :=
  books.flatMap fun b => unlessNull b.ptr [⟨.book, b.ptr⟩]

private theorem held_append (books : List Book) {p : Ptr} (hp : p ≠ 0) :
    held (books ++ [⟨p⟩]) = held books ++ [⟨.book, p⟩] := by
  simp [held, hp]

private theorem held_set {books : List Book} {i : Nat} {p : Ptr} (hb : books[i]? = some ⟨p⟩)
    (hp : p ≠ 0) : (held books).Perm (⟨.book, p⟩ :: held (books.set i ⟨0⟩)) := by
  induction books generalizing i with
  | nil => simp at hb
  | cons b books ih =>
    cases i with
    | zero =>
      obtain rfl : b = ⟨p⟩ := by simpa using hb
      simp [held, hp]
    | succ i =>
      simp only [List.getElem?_cons_succ] at hb
      simp only [held, List.flatMap_cons, List.set_cons_succ]
      exact ((ih hb).append_left _).trans List.perm_middle

theorem held_perm_of_stepKind {s : Session σ} {op : Operation} {a : Answer} {books : List Book}
    {calls : List Call} (h : StepKind s op a books calls) :
    (calls.flatMap Call.handed ++ held s.books).Perm
      (calls.flatMap Call.released ++ held books) := by
  cases h with
  | kept hop hp =>
    rw [held_append _ hp]
    simpa [Call.handed, Call.released, hp] using (List.perm_append_singleton _ _).symm
  | closed a hop hb hp =>
    simpa [Call.handed, Call.released] using held_set hb hp
  | settled hcalls _ _ _ _ => exact hcalls.handed_perm_released.append_right _

/-- At any time what was handed over is what has been given back together with the live books. -/
theorem handed_perm_held (e : Engine σ) (backend : σ) {ops : List Operation}
    (hops : ∀ op ∈ ops, op.throughEngine = true) :
    let s := ((start backend).run e ops).2
    (s.world.trace.flatMap Call.handed).Perm
      (s.world.trace.flatMap Call.released ++ held s.books) := by
  refine run_preserves (P := fun s => (s.world.trace.flatMap Call.handed).Perm
    (s.world.trace.flatMap Call.released ++ held s.books)) ?_ hops (.refl _)
  intro s op hop hs
  obtain ⟨htrace, hkind⟩ := s.step_trace e hop
  have hcalls := held_perm_of_stepKind hkind
  rw [htrace, List.flatMap_append, List.flatMap_append]
  calc
    List.Perm _ (s.world.trace.flatMap Call.released ++ held s.books ++
        (s.callsOf e op).flatMap Call.handed) := hs.append_right _
    List.Perm _ (s.world.trace.flatMap Call.released ++
        ((s.callsOf e op).flatMap Call.handed ++ held s.books)) := by
      rw [List.append_assoc]
      exact List.perm_append_comm.append_left _
    List.Perm _ (s.world.trace.flatMap Call.released ++ (s.callsOf e op).flatMap Call.released ++
        held (s.step e op).2.books) := by
      rw [List.append_assoc]
      exact hcalls.append_left _

/-- Exactly-once release in a history of operations, which starts with no book. -/
structure ReleasedOnce (e : Engine σ) (backend : σ) (ops : List Operation) : Prop where
  /-- When an operation returns, it has settled what it was handed. -/
  settled : ∀ before op after, ops = before ++ op :: after →
    let s := ((start backend).run e before).2
    (s.step e op).2.world.trace = s.world.trace ++ s.callsOf e op ∧
      Settled s op (s.step e op).1 (s.step e op).2.books (s.callsOf e op)
  /-- A book that a parse answered is given back by the first operation that releases it. -/
  book : ∀ before source after, ops = before ++ .parse source :: after →
    let s := ((start backend).run e before).2
    ∀ i, (s.step e (.parse source)).1 = .book i →
      ∃ p, p ≠ 0 ∧ s.callsOf e (.parse source) = [.parse p 0] ∧
        GivenBackOnce e i p (s.step e (.parse source)).2 after
  /-- Nothing is given back that was not handed over, and nothing is forgotten. -/
  balance : ∀ before after, ops = before ++ after →
    let s := ((start backend).run e before).2
    (s.world.trace.flatMap Call.handed).Perm
      (s.world.trace.flatMap Call.released ++ held s.books)

/-- Whatever a boundary answers, everything that it hands over is released exactly once. -/
theorem releasedOnce (e : Engine σ) (backend : σ) (ops : List Operation)
    (hops : ∀ op ∈ ops, op.throughEngine = true) : ReleasedOnce e backend ops where
  settled := by
    rintro before op after rfl
    have hop : op.throughEngine = true := hops op (by simp)
    obtain ⟨htrace, hkind⟩ := ((start backend).run e before).2.step_trace e hop
    exact ⟨htrace, hkind.settled_of⟩
  book := by
    rintro before source after rfl s i hi
    have hafter : ∀ op ∈ after, op.throughEngine = true :=
      fun op hop => hops op (by simp [hop])
    obtain ⟨p, hp, hcalls, hbook⟩ := step_parse_book hi
    exact ⟨p, hp, hcalls, givenBackOnce hafter hbook hp⟩
  balance := by
    rintro before after rfl
    exact handed_perm_held e backend fun op hop => hops op (by simp [hop])

/-- A parse, an evaluation that is stopped, an encoding, and two attempts to give the book back. -/
theorem releasedOnce_simulated :
    let e : Engine Simulator.Ledger := { boundary := Simulator.boundary { evaluateError := "stopped" } }
    let ops : List Operation := [.parse "@main = 1", .evaluate (.parsed 0) {},
      .serialize (.parsed 0), .close (.parsed 0), .finalize (.parsed 0)]
    (∀ op ∈ ops, op.throughEngine = true) ∧
      ((start {}).run e ops).2.world.trace =
        [.parse 0x1010 0, .evaluate 0x1010 .rust 0 0x1040 0x1050, .readText 0x1050,
          .freeText 0x1050, .freeEvaluation 0x1040, .serialize 0x1010 0x1060 0,
          .vecLength 0x1060 6, .vecCopy 0x1060 6 6, .freeVec 0x1060, .freeBook 0x1010] ∧
      ReleasedOnce e {} ops :=
  ⟨by decide, by decide, releasedOnce _ _ _ (by decide)⟩

end Session

end EngineHost
