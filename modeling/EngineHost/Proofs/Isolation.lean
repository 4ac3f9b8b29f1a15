import EngineHost.Proofs.Shelf

/-!
# Books do not interfere

All books of an engine share its ledger, with one counter of addresses. None of that shows: over the
simulated engine, a book answers among others, in whatever order their operations come, what it
would answer if it were the only one.
-/

namespace EngineHost

variable {σ : Type}

namespace Operation

def onto (j : Nat) : Operation → Operation
  | evaluate _ options => evaluate (.parsed j) options
  | serialize _ => serialize (.parsed j)
  | serializeTo _ buffer => serializeTo (.parsed j) buffer
  | serializedLength _ => serializedLength (.parsed j)
  | close _ => close (.parsed j)
  | released _ => released (.parsed j)
  | finalize _ => finalize (.parsed j)
  | op => op

/-- Whether an operation releases the book that it is about. -/
def ends : Operation → Bool
  | close _ | finalize _ => true
  | _ => false

variable {op : Operation} {i : Nat}

private theorem book?_onto (h : op.book? = some i) (j : Nat) : (op.onto j).book? = some j := by
  cases op <;> first | rfl | simp [book?] at h

private theorem ends_onto (op : Operation) (j : Nat) : (op.onto j).ends = op.ends := by
  cases op <;> rfl

theorem releases_eq_ends (h : op.book? = some i) : op.releases i = op.ends := by
  cases op with
  | close ref => cases ref <;> simp_all [book?, releases, ends]
  | finalize ref => cases ref <;> simp_all [book?, releases, ends]
  | _ => rfl

end Operation

theorem Call.allocations_le (c : Call) : c.allocations ≤ 4 := by
  cases c <;> simp only [allocations] <;> (try split) <;> (try split) <;> omega

private theorem Call.allocations_eq_zero {c : Call} (h : c.handed = []) : c.allocations = 0 := by
  have hnull : ∀ {p : Ptr} {r : Resource}, unlessNull p [(⟨r, p⟩ : Handle)] = [] → p = 0 := by
    intro p r hp
    refine Decidable.byContradiction fun hne => ?_
    simp [hne] at hp
  cases c with
  | parse p v =>
    obtain ⟨hp, hv⟩ := List.append_eq_nil_iff.1 h
    simp [allocations, hnull hp, hnull hv]
  | evaluate book i dump p v =>
    obtain ⟨hp, hv⟩ := List.append_eq_nil_iff.1 h
    simp [allocations, hnull hp, hnull hv]
  | serialize book p v =>
    obtain ⟨hp, hv⟩ := List.append_eq_nil_iff.1 h
    simp [allocations, hnull hp, hnull hv]
  | _ => rfl

private theorem allocations_eq_zero {calls : List Call} (h : ∀ c ∈ calls, c.handed = []) :
    allocations calls = 0 := by
  induction calls with
  | nil => rfl
  | cons c calls ih =>
    simp only [List.forall_mem_cons] at h
    rw [allocations_cons, Call.allocations_eq_zero h.1, ih h.2]

/-- The first call of an operation is the only one that takes addresses. -/
theorem StepKind.allocations_le {s : Session σ} {op : Operation} {a : Answer} {books : List Book}
    {calls : List Call} (h : StepKind s op a books calls) : allocations calls ≤ 4 := by
  have hhead : ∀ {c : Call} {calls : List Call}, (∀ c ∈ calls, c.handed = []) →
      allocations (c :: calls) ≤ 4 := by
    intro c calls hcalls
    rw [allocations_cons, allocations_eq_zero hcalls, Nat.add_zero]
    exact c.allocations_le
  cases h with
  | kept => exact hhead (by simp)
  | closed => exact hhead (by simp)
  | settled hcalls =>
    have htail := hcalls.handed_tail
    cases calls with
    | nil => exact Nat.zero_le _
    | cons c calls => exact hhead htail

namespace Session

variable {e : Engine σ} {s : Session σ} {i : Nat}

def answersFor (e : Engine σ) (i : Nat) : Session σ → List Operation → List Answer
  | _, [] => []
  | s, op :: ops =>
    (if op.book? = some i then [(s.step e op).1] else []) ++ answersFor e i (s.step e op).2 ops

private theorem run_eq_answersFor {ops : List Operation} (h : ∀ op ∈ ops, op.book? = some i) :
    (s.run e ops).1 = s.answersFor e i ops := by
  induction ops generalizing s with
  | nil => rfl
  | cons op ops ih =>
    simp only [List.forall_mem_cons] at h
    rw [answersFor, if_pos h.1, ← ih h.2]
    rfl

/-- The operations of a history about one book, for a session in which it is the only one. -/
def ownOperations (i : Nat) (ops : List Operation) : List Operation :=
  (ops.filter fun op => op.book? = some i).map (Operation.onto 0)

private theorem book?_of_mem_ownOperations {ops : List Operation} {op : Operation}
    (h : op ∈ ownOperations i ops) : op.book? = some 0 := by
  obtain ⟨op, hop, rfl⟩ := List.mem_map.1 h
  have hbook : op.book? = some i := by simpa using (List.mem_filter.1 hop).2
  exact Operation.book?_onto hbook 0

private theorem length_ownOperations_le (i : Nat) (ops : List Operation) :
    (ownOperations i ops).length ≤ ops.length := by
  rw [ownOperations, List.length_map]
  exact List.length_filter_le ..

theorem allocations_run_le (e : Engine σ) (s : Session σ) {ops : List Operation}
    (hops : ∀ op ∈ ops, op.throughEngine = true) :
    allocations (s.run e ops).2.world.trace ≤ allocations s.world.trace + 4 * ops.length := by
  induction ops generalizing s with
  | nil => exact Nat.le_refl _
  | cons op ops ih =>
    simp only [List.forall_mem_cons] at hops
    obtain ⟨htrace, hkind⟩ := s.step_trace e hops.1
    have hstep := hkind.allocations_le
    have hrest := ih (s.step e op).2 hops.2
    rw [htrace, allocations_append] at hrest
    rw [List.length_cons]
    exact Nat.le_trans hrest (by omega)

theorem within_of_length (e : Engine σ) (backend : σ) {ops : List Operation}
    (hops : ∀ op ∈ ops, op.throughEngine = true)
    (hsources : ∀ op ∈ ops, op.source.length < 2 ^ 63) (hlength : ops.length < 2 ^ 57) :
    (start backend).Within e ops := by
  refine ⟨hops, hsources, ?_⟩
  have hle := (start backend).allocations_run_le e hops
  have hstart : allocations (start backend).world.trace = 0 := rfl
  omega

theorem within_alone (e : Engine σ) (backend : σ) {source : Bytes} {ops : List Operation}
    (hsource : source.length < 2 ^ 63) (hops : ∀ op ∈ ops, op.book? = some i)
    (hlength : ops.length + 1 < 2 ^ 57) : (start backend).Within e (.parse source :: ops) := by
  refine within_of_length e backend ?_ ?_ hlength
  · rw [List.forall_mem_cons]
    exact ⟨rfl, fun op hop => Operation.throughEngine_of_book? (hops op hop)⟩
  · rw [List.forall_mem_cons]
    refine ⟨hsource, fun op hop => ?_⟩
    rw [Operation.source_of_book? (hops op hop)]
    decide

end Session

namespace Simulator

open Ledger Session

variable {o : Options} {observed : Bool}

private theorem respond_onto (o : Options) (book : Option Program) (op : Operation) (j : Nat) :
    respond o book (op.onto j) = respond o book op := by
  cases op <;> rfl

def answers (o : Options) : Option Program → List Operation → List Answer
  | _, [] => []
  | book, op :: ops => respond o book op :: answers o (if op.ends then none else book) ops

private theorem answers_onto (o : Options) (book : Option Program) (ops : List Operation)
    (j : Nat) :
    answers o book (ops.map (Operation.onto j)) = answers o book ops := by
  induction ops generalizing book with
  | nil => rfl
  | cons op ops ih =>
    simp only [List.map_cons, answers, respond_onto, Operation.ends_onto, ih]

private theorem Shelved.answersFor_eq {shelf : Shelf} {s : Session Ledger} {i : Nat}
    {place : Option (Ptr × Program)} (hs : Shelved shelf s) (hplace : shelf[i]? = some place)
    {ops : List Operation} (hwithin : s.Within (host o observed) ops) :
    s.answersFor (host o observed) i ops =
      answers o (place.map Prod.snd) (ops.filter fun op => op.book? = some i) := by
  induction ops generalizing s shelf place with
  | nil => rfl
  | cons op ops ih =>
    obtain ⟨next, calls, hanswers, hnext, -⟩ := hs.step (o := o) observed
      (hwithin.engine op List.mem_cons_self) (hwithin.sources op List.mem_cons_self) hwithin.few
    have hrest := ih hnext (hanswers.kept hplace) hwithin.tail
    rw [answersFor, hrest]
    by_cases hop : op.book? = some i
    · rw [if_pos hop, List.filter_cons_of_pos (by simpa using hop), answers,
        hanswers.eq_respond hop hplace, Operation.releases_eq_ends hop]
      cases op.ends <;> rfl
    · have hkeeps : ¬op.releases i = true :=
        fun hreleases => hop (Operation.book?_of_releases hreleases)
      rw [if_neg hop, List.filter_cons_of_neg (by simpa using hop), if_neg hkeeps]
      rfl

structure Isolated (e : Engine Ledger) (ops : List Operation) : Prop where
  /-- A text that is refused is refused for the same reason by an engine that has done nothing
  yet. -/
  refused : ∀ before source after, ops = before ++ .parse source :: after →
    ∀ f, (((start {}).run e before).2.step e (.parse source)).1 = .failed f →
      ((start {}).run e [.parse source]).1 = [.failed f]
  /-- A book answers what it would answer if it had been the only one. -/
  alone : ∀ before source after, ops = before ++ .parse source :: after →
    let r := ((start {}).run e before).2.step e (.parse source)
    ∀ i, r.1 = .book i →
      ((start {}).run e (.parse source :: ownOperations i after)).1 =
        .book 0 :: r.2.answersFor e i after
  /-- As long as a book is live, it gives the same answer to the same operation. -/
  repeated : ∀ before op between after, ops = before ++ op :: (between ++ op :: after) →
    let s := ((start {}).run e before).2
    let s' := ((start {}).run e (before ++ op :: between)).2
    ∀ i b, op.book? = some i → i < s.books.length → s'.books[i]? = some b → b.released = false →
      (s'.step e op).1 = (s.step e op).1

theorem Shelved.repeated {shelf : Shelf} {s : Session Ledger} (hs : Shelved shelf s)
    {op : Operation} {between : List Operation}
    (hwithin : s.Within (host o observed) (op :: between)) {i : Nat} {b : Book}
    (hop : op.book? = some i) (hi : i < s.books.length)
    (hb : (s.run (host o observed) (op :: between)).2.books[i]? = some b)
    (hlive : b.released = false) :
    ((s.run (host o observed) (op :: between)).2.step (host o observed) op).1 =
      (s.step (host o observed) op).1 := by
  obtain ⟨place, hplace⟩ : ∃ place, shelf[i]? = some place := by
    rw [hs.books, Shelf.books, List.length_map] at hi
    exact ⟨_, List.getElem?_eq_getElem hi⟩
  obtain ⟨shelf', hs', hplace'⟩ := hs.run_place hwithin hplace hb hlive
  calc ((s.run (host o observed) (op :: between)).2.step (host o observed) op).1
      = respond o (place.map Prod.snd) op :=
        (hs'.step_book observed hop hplace' hwithin.addresses).1
    _ = (s.step (host o observed) op).1 := (hs.step_book observed hop hplace hwithin.few).1.symm

/-- A book that was just parsed answers as its program does, whatever happens to other books. -/
theorem Shelved.answersFor_parsed {shelf : Shelf} {s : Session Ledger} (hs : Shelved shelf s)
    {source : Bytes} {program : Program} {ops : List Operation}
    (hwithin : s.Within (host o observed) (.parse source :: ops))
    (hparsed : o.parsed source = .ok program) :
    let r := s.step (host o observed) (.parse source)
    r.1 = .book shelf.length ∧ r.2.answersFor (host o observed) shelf.length ops =
      answers o (some program) (ops.filter fun op => op.book? = some shelf.length) := by
  have hsource : source.length < 2 ^ 63 := hwithin.sources (.parse source) List.mem_cons_self
  obtain ⟨hmade, p, hnext⟩ := hs.step_parsed observed hparsed hsource hwithin.few
  exact ⟨hmade, hnext.answersFor_eq List.getElem?_concat_length hwithin.tail⟩

private theorem Shelved.refused_alike (observed : Bool) {shelf shelf' : Shelf}
    {s s' : Session Ledger} (hs : Shelved shelf s) (hs' : Shelved shelf' s') {source : Bytes}
    (hsource : source.length < 2 ^ 63) (hfew : allocations s.world.trace < 2 ^ 59)
    (hfew' : allocations s'.world.trace < 2 ^ 59) {f : Fault}
    (hf : (s.step (host o observed) (.parse source)).1 = .failed f) :
    (s'.step (host o observed) (.parse source)).1 = .failed f := by
  cases hparsed : o.parsed source with
  | error message =>
    rw [hs'.step_refused observed hparsed hsource hfew', ← hf,
      hs.step_refused observed hparsed hsource hfew]
  | ok program =>
    have hmade := (hs.step_parsed observed hparsed hsource hfew).1
    exact nomatch hmade.symm.trans hf

theorem run_alone {source : Bytes} {program : Program} {ops : List Operation}
    (hwithin : (start {}).Within (host o observed) (.parse source :: ops))
    (hparsed : o.parsed source = .ok program) (hops : ∀ op ∈ ops, op.book? = some 0) :
    ((start {}).run (host o observed) (.parse source :: ops)).1 =
      .book 0 :: answers o (some program) ops := by
  obtain ⟨hmade, hanswers⟩ := shelved_start.answersFor_parsed hwithin hparsed
  have hall : ops.filter (fun op => op.book? = some 0) = ops :=
    List.filter_eq_self.2 fun op hop => by simpa using hops op hop
  have hrun := run_eq_answersFor (e := host o observed)
    (s := ((start {}).step (host o observed) (.parse source)).2) hops
  rw [List.length_nil, hall] at hanswers
  simp only [run, hmade, hrun, hanswers]
  rfl

/-- Over the simulated engine, whatever it is told to refuse, books do not interfere. Fewer than
2 ^ 57 operations do not use up the addresses, and the lengths of texts are 64-bit signed
numbers. -/
theorem books_isolated (o : Options) (observed : Bool) (ops : List Operation)
    (hops : ∀ op ∈ ops, op.throughEngine = true)
    (hsources : ∀ op ∈ ops, op.source.length < 2 ^ 63) (hlength : ops.length < 2 ^ 57) :
    Isolated { boundary := boundary o, observed := observed } ops := by
  have hwithin := within_of_length (host o observed) {} hops hsources hlength
  refine ⟨?_, ?_, ?_⟩
  · rintro before source after rfl f hf
    obtain ⟨shelf, hshelf, -⟩ := shelved_start.run hwithin.left
    have hsource : source.length < 2 ^ 63 := hsources (.parse source) (by simp)
    have halone := hshelf.refused_alike observed shelved_start hsource hwithin.right.few
      (by decide) hf
    rw [← halone]
    rfl
  · rintro before source after rfl r i hi
    obtain ⟨shelf, hshelf, -⟩ := shelved_start.run hwithin.left
    have hsource : source.length < 2 ^ 63 := hsources (.parse source) (by simp)
    cases hparsed : o.parsed source with
    | error message =>
      have hrefused := hshelf.step_refused observed hparsed hsource hwithin.right.few
      exact nomatch hrefused.symm.trans hi
    | ok program =>
      obtain ⟨hmade, hamong⟩ := hshelf.answersFor_parsed hwithin.right hparsed
      obtain rfl : shelf.length = i := Answer.book.inj (hmade.symm.trans hi)
      have hown : ∀ op ∈ ownOperations shelf.length after, op.book? = some 0 :=
        fun op => book?_of_mem_ownOperations
      have hshort := length_ownOperations_le shelf.length after
      rw [List.length_append, List.length_cons] at hlength
      have hwithin_alone := within_alone (host o observed) {} hsource hown (by omega)
      rw [hamong, run_alone hwithin_alone hparsed hown, ownOperations, answers_onto]
  · rintro before op between after rfl s s' i b hop hi hb hlive
    obtain ⟨shelf, hshelf, -⟩ := shelved_start.run hwithin.left
    have hs' : s' = (s.run (host o observed) (op :: between)).2 := by
      simp only [s', run_append]
      rfl
    rw [hs'] at hb ⊢
    exact hshelf.repeated hwithin.right.left hop hi hb hlive

/-- Two books whose operations take turns. The first is closed halfway and the second is asked the
same thing twice; a text that is no program comes in between. -/
theorem books_isolated_two_books :
    let ops : List Operation := [.parse "@main = 1", .parse "@main = (2)",
      .evaluate (.parsed 0) {}, .serialize (.parsed 1), .parse "main",
      .serializeTo (.parsed 0) [], .close (.parsed 0), .serialize (.parsed 1),
      .evaluate (.parsed 0) {}, .finalize (.parsed 1)]
    (∀ op ∈ ops, op.throughEngine = true) ∧ (∀ op ∈ ops, op.source.length < 2 ^ 63) ∧
      ops.length < 2 ^ 57 ∧ Isolated { boundary := boundary { result := some [0xff] } } ops :=
  ⟨by decide, by decide, by decide, books_isolated _ _ _ (by decide) (by decide) (by decide)⟩

end Simulator

end EngineHost
