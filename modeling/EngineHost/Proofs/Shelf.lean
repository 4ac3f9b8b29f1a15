import EngineHost.Proofs.ExactlyOnce
import EngineHost.Proofs.SimulatedOperations

/-!
# Sessions over the simulated engine

What matters of a session over the simulated engine is the program of each book that is live. The
shelf keeps it, with the address that stands for it in the ledger. One operation changes at most
one place of the shelf, and what it answers follows from that place alone.
-/

namespace EngineHost

/-- The program text that an operation brings, which is empty for all but a parse. -/
def Operation.source : Operation → Bytes
  | .parse source => source
  | _ => []

theorem Operation.source_of_book? {op : Operation} {i : Nat} (h : op.book? = some i) :
    op.source = [] := by
  cases op with
  | parse source => simp [Operation.book?] at h
  | _ => rfl

def BookRef.index? : BookRef → Option Nat
  | parsed i => some i
  | foreign => none

namespace Session

variable {σ : Type} {e : Engine σ} {s : Session σ} {source : Bytes}

theorem step_parse_error {f : Fault} (h : (e.parse source s.world).1 = .error f) :
    s.step e (.parse source) = (.failed f, { s with world := (e.parse source s.world).2 }) := by
  rcases hrun : e.parse source s.world with ⟨outcome, w⟩
  obtain rfl : outcome = .error f := by rw [← h, hrun]
  simp [step, lift, hrun]

theorem step_parse_ok {b : Book} (h : (e.parse source s.world).1 = .ok b) :
    s.step e (.parse source) = (.book s.books.length,
      { s with world := (e.parse source s.world).2, books := s.books ++ [b] }) := by
  rcases hrun : e.parse source s.world with ⟨outcome, w⟩
  obtain rfl : outcome = .ok b := by rw [← h, hrun]
  simp [step, lift, hrun]

/-- A history goes through the engine, brings texts whose lengths are 64-bit signed numbers, and
does not use up the addresses. -/
structure Within (e : Engine σ) (s : Session σ) (ops : List Operation) : Prop where
  engine : ∀ op ∈ ops, op.throughEngine = true
  sources : ∀ op ∈ ops, op.source.length < 2 ^ 63
  addresses : allocations (s.run e ops).2.world.trace < 2 ^ 59

theorem Within.few {ops : List Operation} (h : Within e s ops) :
    allocations s.world.trace < 2 ^ 59 := by
  refine Nat.lt_of_le_of_lt ?_ h.addresses
  refine run_preserves (e := e)
    (P := fun t => allocations s.world.trace ≤ allocations t.world.trace) ?_ h.engine
    (Nat.le_refl _)
  intro t op hop ht
  rw [(t.step_trace e hop).1, allocations_append]
  exact Nat.le_add_right_of_le ht

theorem Within.right {before after : List Operation} (h : Within e s (before ++ after)) :
    Within e (s.run e before).2 after where
  engine op hop := h.engine op (List.mem_append_right _ hop)
  sources op hop := h.sources op (List.mem_append_right _ hop)
  addresses := by
    have haddresses := h.addresses
    rwa [run_append] at haddresses

theorem Within.tail {op : Operation} {ops : List Operation} (h : Within e s (op :: ops)) :
    Within e (s.step e op).2 ops := by
  have happend : Within e s ([op] ++ ops) := h
  exact happend.right

theorem Within.left {before after : List Operation} (h : Within e s (before ++ after)) :
    Within e s before where
  engine op hop := h.engine op (List.mem_append_left _ hop)
  sources op hop := h.sources op (List.mem_append_left _ hop)
  addresses := h.right.few

end Session

namespace Simulator

open Ledger

/-- The books of a session in order: the address and the program of one that is live, and nothing
for one that was released. -/
abbrev Shelf := List (Option (Ptr × Program))

namespace Shelf

def books (shelf : Shelf) : List Book := shelf.map fun place => ⟨place.elim 0 Prod.fst⟩

def entries (shelf : Shelf) : List (Ptr × Allocation) :=
  shelf.filterMap fun place => place.map fun (p, program) => (p, .book program)

theorem getElem?_books (shelf : Shelf) (i : Nat) :
    shelf.books[i]? = shelf[i]?.map fun place => ⟨place.elim 0 Prod.fst⟩ := by
  simp [books]

private theorem entries_append (shelf shelf' : Shelf) :
    entries (shelf ++ shelf') = shelf.entries ++ entries shelf' := by
  simp [entries]

theorem mem_entries {shelf : Shelf} {p : Ptr} {program : Program}
    (h : some (p, program) ∈ shelf) : (p, .book program) ∈ shelf.entries :=
  List.mem_filterMap.2 ⟨_, h, rfl⟩

private theorem entries_set {shelf : Shelf} {i : Nat} {p : Ptr} {program : Program}
    (h : shelf[i]? = some (some (p, program))) :
    ∃ before after, shelf.entries = before ++ (p, .book program) :: after ∧
      entries (shelf.set i none) = before ++ after := by
  obtain ⟨hi, hplace⟩ := List.getElem?_eq_some_iff.1 h
  have hsplit : shelf = shelf.take i ++ some (p, program) :: shelf.drop (i + 1) := by
    rw [← hplace, List.getElem_cons_drop, List.take_append_drop]
  refine ⟨entries (shelf.take i), entries (shelf.drop (i + 1)), ?_, ?_⟩
  · exact (congrArg entries hsplit).trans (entries_append ..)
  · rw [List.set_eq_take_append_cons_drop, if_pos hi, entries_append]
    rfl

private theorem set_none {shelf : Shelf} {i : Nat} (h : shelf[i]? = some none) :
    shelf.set i none = shelf := by
  obtain ⟨hi, hplace⟩ := List.getElem?_eq_some_iff.1 h
  rw [← hplace, List.set_getElem_self]

end Shelf

/-- The ledger has one entry for each live book on the shelf and no other, and no rule was
violated. -/
structure Shelved (shelf : Shelf) (s : Session Ledger) : Prop where
  books : s.books = shelf.books
  live : s.world.backend.live = shelf.entries
  valid : ∀ p program, some (p, program) ∈ shelf → p ≠ 0 ∧ program.encode.length < 2 ^ 64
  sound : s.world.backend.Sound
  violations : s.world.backend.violations = []
  last : s.world.backend.last.toNat = 0x1000 + 0x10 * allocations s.world.trace

/-- What an operation through the engine answers, and what becomes of the shelf. -/
inductive Answers (o : Options) (shelf : Shelf) : Operation → Answer → Shelf → Prop
  | parsed {source : Bytes} {program : Program} (p : Ptr) (h : o.parsed source = .ok program) :
      Answers o shelf (.parse source) (.book shelf.length) (shelf ++ [some (p, program)])
  | refused {source message : Bytes} (h : o.parsed source = .error message) :
      Answers o shelf (.parse source) (.failed (.interop "book_parse" (shown message))) shelf
  | used {op : Operation} {i : Nat} {place : Option (Ptr × Program)} (hop : op.book? = some i)
      (hplace : shelf[i]? = some place) :
      Answers o shelf op (respond o (place.map Prod.snd) op)
        (if op.releases i then shelf.set i none else shelf)
  | idle {op : Operation} {a : Answer} (hop : ∀ source, op ≠ .parse source)
      (hbook : ∀ i, op.book? = some i → shelf[i]? = none) : Answers o shelf op a shelf

/-- An operation keeps the other places on the shelf, and its own unless it releases the book. -/
theorem Answers.kept {o : Options} {shelf shelf' : Shelf} {op : Operation} {a : Answer} {i : Nat}
    {place : Option (Ptr × Program)} (h : Answers o shelf op a shelf')
    (hplace : shelf[i]? = some place) :
    shelf'[i]? = some (if op.releases i then none else place) := by
  cases h with
  | parsed p hparsed =>
    obtain ⟨hi, -⟩ := List.getElem?_eq_some_iff.1 hplace
    rw [List.getElem?_append_left hi]
    exact hplace
  | refused hparsed => exact hplace
  | @used _ j _ hop hused =>
    by_cases hj : j = i
    · subst hj
      obtain ⟨hi, -⟩ := List.getElem?_eq_some_iff.1 hplace
      split
      · exact List.getElem?_set_self hi
      · exact hplace
    · have hreleases : ¬op.releases i = true := by
        intro hreleases
        exact hj (Option.some.inj (hop.symm.trans (Operation.book?_of_releases hreleases)))
      rw [if_neg hreleases]
      split
      · rw [List.getElem?_set_ne hj, hplace]
      · exact hplace
  | idle hop hbook =>
    have hreleases : ¬op.releases i = true := by
      intro hreleases
      rw [hbook i (Operation.book?_of_releases hreleases)] at hplace
      simp at hplace
    rw [if_neg hreleases]
    exact hplace

theorem Answers.eq_respond {o : Options} {shelf shelf' : Shelf} {op : Operation} {a : Answer}
    {i : Nat} {place : Option (Ptr × Program)} (h : Answers o shelf op a shelf')
    (hop : op.book? = some i) (hplace : shelf[i]? = some place) :
    a = respond o (place.map Prod.snd) op := by
  cases h with
  | parsed p hparsed => simp [Operation.book?] at hop
  | refused hparsed => simp [Operation.book?] at hop
  | used hop' hplace' =>
    obtain rfl := Option.some.inj (hop'.symm.trans hop)
    obtain rfl := Option.some.inj (hplace'.symm.trans hplace)
    rfl
  | idle hparse hbook => simp [hbook i hop] at hplace

/-- An operation ends with an answer and a session that the shelf accounts for, and copies an
encoding only to deliver it. -/
def Advances (o : Options) (shelf : Shelf) (s : Session Ledger) (op : Operation)
    (r : Answer × Session Ledger) : Prop :=
  ∃ shelf' calls, Answers o shelf op r.1 shelf' ∧ Shelved shelf' r.2 ∧
    r.2.world.trace = s.world.trace ++ calls ∧ calls.countP Call.copies = r.1.deliveries

namespace Shelved

variable {o : Options} {observed : Bool} {shelf shelf' : Shelf} {s : Session Ledger}
  {op : Operation} {α : Type} {a : α} {n : Nat}

private theorem of_leaves (hs : Shelved shelf s) {x : HostM Ledger α}
    {live : List (Ptr × Allocation)} (hx : Leaves (host o observed) x s.world.backend a live n)
    (hlive : live = shelf'.entries)
    (hvalid : ∀ p program, some (p, program) ∈ shelf' → p ≠ 0 ∧ program.encode.length < 2 ^ 64) :
    (x s.world).1 = a ∧
      Shelved shelf' { s with world := (x s.world).2, books := shelf'.books } ∧
      ∃ calls, (x s.world).2.trace = s.world.trace ++ calls ∧ calls.countP Call.copies = n := by
  obtain ⟨l', calls, events, hruns, hbecame, hcopied⟩ := hx
  obtain ⟨ha, hbackend, htrace, -⟩ := hruns s.world rfl
  refine ⟨ha, ⟨rfl, ?_, hvalid, ?_, ?_, ?_⟩, calls, htrace, hcopied⟩
  · simpa [hbackend] using hbecame.live_eq.trans hlive
  · simpa [hbackend] using hbecame.sound
  · simpa [hbackend] using hbecame.violations_eq.trans hs.violations
  · simp only [hbackend, htrace, allocations_append, hbecame.last_eq, hs.last]
    omega

/-- An operation on a book that leaves the ledger as it is, and does not even call the engine once
the book is released. -/
theorem advances_use (hs : Shelved shelf s) {x : Book → HostM Ledger α} {i : Nat}
    {place : Option (Ptr × Program)} (k : α → Answer) (value : Option Program → α)
    (hop : op.book? = some i) (hkeeps : op.releases i = false) (hplace : shelf[i]? = some place)
    (hvalue : ∀ book, k (value book) = respond o book op)
    (hnone : (k (value none)).deliveries = 0)
    (hreleased : Runs (host o observed) (x ⟨0⟩) s.world.backend (value none) s.world.backend [] [])
    (hlive : ∀ p program, p ≠ 0 → s.world.backend.find? p = some (.book program) →
      program.encode.length < 2 ^ 64 →
      Leaves (host o observed) (x ⟨p⟩) s.world.backend (value (some program)) s.world.backend.live
        (k (value (some program))).deliveries) :
    let b : Book := ⟨place.elim 0 Prod.fst⟩
    Advances o shelf s op (k (x b s.world).1, { s with world := (x b s.world).2 }) := by
  intro b
  have hleaves : Leaves (host o observed) (x b) s.world.backend (value (place.map Prod.snd))
      s.world.backend.live (k (value (place.map Prod.snd))).deliveries := by
    cases place with
    | none => exact ⟨_, _, _, hreleased, hs.sound.became, hnone.symm⟩
    | some place =>
      obtain ⟨p, program⟩ := place
      have hmem := List.mem_of_getElem? hplace
      obtain ⟨hp, hsize⟩ := hs.valid p program hmem
      exact hlive p program hp (hs.sound.find? (hs.live ▸ Shelf.mem_entries hmem)) hsize
  obtain ⟨ha, hshelved, calls, htrace, hcopied⟩ := hs.of_leaves hleaves hs.live hs.valid
  rw [← hs.books] at hshelved
  have hused := Answers.used (o := o) hop hplace
  rw [if_neg (by rw [hkeeps]; exact Bool.false_ne_true), ← hvalue] at hused
  rw [ha]
  exact ⟨shelf, calls, hused, hshelved, htrace, hcopied⟩

private theorem advances_release (hs : Shelved shelf s) {x : Book → HostM Ledger Book} {i : Nat}
    {place : Option (Ptr × Program)} {answer : Answer} (hop : op.book? = some i)
    (hreleases : op.releases i = true) (hplace : shelf[i]? = some place)
    (hanswer : answer = respond o (place.map Prod.snd) op) (hnone : answer.deliveries = 0)
    (hreleased : ∀ l, Runs (host o observed) (x ⟨0⟩) l ⟨0⟩ l [] [])
    (hlive : ∀ {p : Ptr}, p ≠ 0 → ∀ l, ∃ events, Runs (host o observed) (x ⟨p⟩) l ⟨0⟩
      ((boundary o).freeBook p l).state [.freeBook p] events) :
    let b : Book := ⟨place.elim 0 Prod.fst⟩
    Advances o shelf s op
      (answer, { s with
        world := (x b s.world).2, books := s.books.set i (x b s.world).1 }) := by
  intro b
  have hleaves : Leaves (host o observed) (x b) s.world.backend ⟨0⟩
      (Shelf.entries (shelf.set i none)) 0 := by
    cases place with
    | none =>
      rw [Shelf.set_none hplace, ← hs.live]
      exact ⟨_, _, _, hreleased _, hs.sound.became, rfl⟩
    | some place =>
      obtain ⟨p, program⟩ := place
      obtain ⟨hp, -⟩ := hs.valid p program (List.mem_of_getElem? hplace)
      obtain ⟨events, hruns⟩ := hlive hp s.world.backend
      obtain ⟨before, after, hbefore, hafter⟩ := Shelf.entries_set hplace
      rw [hafter]
      exact ⟨_, _, _, hruns, hs.sound.free .freeBook (hs.live.trans hbefore) rfl, rfl⟩
  have hvalid : ∀ p program, some (p, program) ∈ shelf.set i none →
      p ≠ 0 ∧ program.encode.length < 2 ^ 64 := by
    intro p program hmem
    rcases List.mem_or_eq_of_mem_set hmem with hmem | heq
    · exact hs.valid p program hmem
    · simp at heq
  obtain ⟨hb, hshelved, calls, htrace, hcopied⟩ := hs.of_leaves hleaves rfl hvalid
  have hbooks : Shelf.books (shelf.set i none) = s.books.set i (x b s.world).1 := by
    rw [hb, hs.books]
    exact List.map_set ..
  rw [hbooks] at hshelved
  refine ⟨shelf.set i none, calls, ?_, hshelved, htrace, by rw [hnone, hcopied]⟩
  have hused := Answers.used (o := o) hop hplace
  simp only [hreleases, if_true] at hused
  rw [hanswer]
  exact hused

private theorem advances_parse (hs : Shelved shelf s) {source : Bytes}
    (hsource : source.length < 2 ^ 63) (hroom : s.world.backend.last.toNat + 0x40 < 2 ^ 64) :
    Advances o shelf s (.parse source) (s.step (host o observed) (.parse source)) := by
  cases hparsed : o.parsed source with
  | error message =>
    have hleaves := parse_refused_leaves observed hparsed hs.sound hroom
    obtain ⟨ha, hshelved, calls, htrace, hcopied⟩ := hs.of_leaves hleaves hs.live hs.valid
    rw [← hs.books] at hshelved
    rw [Session.step_parse_error ha]
    exact ⟨shelf, calls, .refused hparsed, hshelved, htrace, hcopied⟩
  | ok program =>
    obtain ⟨p, hp, hleaves⟩ := parse_made_leaves observed hparsed hs.sound hroom
    have hvalid : ∀ q program', some (q, program') ∈ shelf ++ [some (p, program)] →
        q ≠ 0 ∧ program'.encode.length < 2 ^ 64 := by
      intro q program' hmem
      rcases List.mem_append.1 hmem with hmem | hmem
      · exact hs.valid q program' hmem
      · obtain ⟨rfl, rfl⟩ : q = p ∧ program' = program := by simpa using hmem
        -- an encoding is hardly longer than its source, so its length fits in 64 bits
        have hlength := Program.length_encode_le (parse_of_parsed hparsed)
        exact ⟨hp, by omega⟩
    have hentries : s.world.backend.live ++ [(p, .book program)] =
        Shelf.entries (shelf ++ [some (p, program)]) := by
      rw [hs.live, Shelf.entries_append]
      rfl
    obtain ⟨ha, hshelved, calls, htrace, hcopied⟩ := hs.of_leaves hleaves hentries hvalid
    have hbooks : Shelf.books (shelf ++ [some (p, program)]) = s.books ++ [⟨p⟩] := by
      rw [hs.books]
      exact List.map_append ..
    have hlength : s.books.length = shelf.length := by
      rw [hs.books]
      exact List.length_map ..
    rw [hbooks] at hshelved
    rw [Session.step_parse_ok ha, hlength]
    exact ⟨_, calls, .parsed p hparsed, hshelved, htrace, hcopied⟩

private theorem advances_idle (hs : Shelved shelf s) {answer : Answer}
    (hparse : ∀ source, op ≠ .parse source)
    (hbook : ∀ i, op.book? = some i → shelf[i]? = none) (hnone : answer.deliveries = 0) :
    Advances o shelf s op (answer, s) :=
  ⟨shelf, [], .idle hparse hbook, hs, (List.append_nil _).symm, hnone.symm⟩

private theorem advances_onBook (hs : Shelved shelf s) (ref : BookRef) (foreign : Answer)
    (f : Nat → Book → Session Ledger → Answer × Session Ledger)
    (hparse : ∀ source, op ≠ .parse source) (hbook : op.book? = ref.index?)
    (hforeign : foreign.deliveries = 0)
    (hf : ∀ i place, ref = .parsed i → shelf[i]? = some place →
      Advances o shelf s op (f i ⟨place.elim 0 Prod.fst⟩ s)) :
    Advances o shelf s op (s.onBook ref foreign f) := by
  cases ref with
  | foreign =>
    refine hs.advances_idle hparse ?_ hforeign
    simp [hbook, BookRef.index?]
  | parsed i =>
    have hb := Shelf.getElem?_books shelf i
    rw [← hs.books] at hb
    cases hplace : shelf[i]? with
    | none =>
      rw [hplace, Option.map_none] at hb
      simp only [Session.onBook, hb]
      refine hs.advances_idle hparse ?_ rfl
      intro j hj
      obtain rfl : i = j := Option.some.inj (hbook.symm.trans hj)
      exact hplace
    | some place =>
      rw [hplace, Option.map_some] at hb
      simp only [Session.onBook, hb]
      exact hf i place rfl hplace

/-- Every operation through the engine keeps the shelf, as long as there are addresses left. -/
theorem step (observed : Bool) (hs : Shelved shelf s) (hop : op.throughEngine = true)
    (hsource : op.source.length < 2 ^ 63) (hfew : allocations s.world.trace < 2 ^ 59) :
    Advances o shelf s op (s.step (host o observed) op) := by
  have hroom : s.world.backend.last.toNat + 0x40 < 2 ^ 64 := by
    rw [hs.last]
    omega
  cases op with
  | parse source => exact hs.advances_parse hsource hroom
  | parseForeign => exact hs.advances_idle (by simp) (by simp [Operation.book?]) rfl
  | newForeign => exact hs.advances_idle (by simp) (by simp [Operation.book?]) rfl
  | evaluate ref options =>
    refine hs.advances_onBook ref _ _ (by simp) (by cases ref <;> rfl) rfl ?_
    rintro i place rfl hplace
    exact hs.advances_use (x := fun b => (host o observed).evaluate b options) .evaluation _ rfl rfl
      hplace (fun _ => rfl) rfl (Engine.runs_evaluate_released options _)
      fun p program hp hfind _ => evaluate_leaves options hp hfind hs.sound hroom
  | serialize ref =>
    refine hs.advances_onBook ref _ _ (by simp) (by cases ref <;> rfl) rfl ?_
    rintro i place rfl hplace
    exact hs.advances_use (x := (host o observed).serialize) .bytes _ rfl rfl
      hplace (fun _ => rfl) rfl (Engine.runs_serialize_released _)
      fun p program hp hfind hsize => serialize_leaves hp hfind hs.sound hroom hsize
  | serializeTo ref buffer =>
    refine hs.advances_onBook ref _ _ (by simp) (by cases ref <;> rfl) rfl ?_
    rintro i place rfl hplace
    exact hs.advances_use (x := fun b => (host o observed).serializeTo b buffer) .filled _ rfl rfl
      hplace (fun _ => rfl) rfl (Engine.runs_serializeTo_released buffer _)
      fun p program hp hfind hsize => serializeTo_leaves hp hfind hs.sound hroom hsize buffer
  | serializedLength ref =>
    refine hs.advances_onBook ref _ _ (by simp) (by cases ref <;> rfl) rfl ?_
    rintro i place rfl hplace
    exact hs.advances_use (x := (host o observed).serializedLength) .length _ rfl rfl
      hplace (fun _ => rfl) rfl (Engine.runs_serializedLength_released _)
      fun p program hp hfind _ => serializedLength_leaves hp hfind hs.sound hroom
  | close ref =>
    refine hs.advances_onBook ref _ _ (by simp) (by cases ref <;> rfl) rfl ?_
    rintro i place rfl hplace
    exact hs.advances_release rfl (by simp [Operation.releases]) hplace rfl rfl
      Engine.runs_close_released fun hp l => ⟨_, Engine.runs_close hp l⟩
  | released ref =>
    refine hs.advances_onBook ref _ _ (by simp) (by cases ref <;> rfl) rfl ?_
    rintro i place rfl hplace
    refine hs.advances_use (x := fun b => pure b.released) .flag Option.isNone rfl rfl hplace
      (fun _ => rfl) rfl (Runs.pure (e := host o observed) _ _) fun p program hp _ _ => ?_
    have hreleased : (⟨p⟩ : Book).released = false := by simpa [Book.released] using hp
    rw [hreleased]
    exact ⟨_, _, _, Runs.pure _ _, hs.sound.became, rfl⟩
  | finalize ref =>
    refine hs.advances_onBook ref _ _ (by simp) (by cases ref <;> rfl) rfl ?_
    rintro i place rfl hplace
    exact hs.advances_release rfl (by simp [Operation.releases]) hplace rfl rfl
      Engine.runs_finalize_released fun hp l => ⟨_, Engine.runs_finalize hp l⟩
  | newText _ => simp [Operation.throughEngine] at hop
  | textHasValue _ => simp [Operation.throughEngine] at hop
  | textText _ => simp [Operation.throughEngine] at hop
  | textRelease _ => simp [Operation.throughEngine] at hop
  | decode _ => simp [Operation.throughEngine] at hop
  | raw _ => simp [Operation.throughEngine] at hop

theorem step_book (observed : Bool) (hs : Shelved shelf s) {i : Nat}
    {place : Option (Ptr × Program)} (hop : op.book? = some i) (hplace : shelf[i]? = some place)
    (hfew : allocations s.world.trace < 2 ^ 59) :
    (s.step (host o observed) op).1 = respond o (place.map Prod.snd) op ∧
      (s.callsOf (host o observed) op).countP Call.copies =
        (s.step (host o observed) op).1.deliveries := by
  have hsource : op.source.length < 2 ^ 63 := by
    rw [Operation.source_of_book? hop]
    decide
  obtain ⟨next, calls, hanswers, -, htrace, hcopies⟩ :=
    hs.step observed (Operation.throughEngine_of_book? hop) hsource hfew
  refine ⟨hanswers.eq_respond hop hplace, ?_⟩
  rw [Session.callsOf_eq htrace, hcopies]

theorem step_refused (observed : Bool) (hs : Shelved shelf s) {source message : Bytes}
    (hparsed : o.parsed source = .error message) (hsource : source.length < 2 ^ 63)
    (hfew : allocations s.world.trace < 2 ^ 59) :
    (s.step (host o observed) (.parse source)).1 =
      .failed (.interop "book_parse" (shown message)) := by
  obtain ⟨next, calls, hanswers, -⟩ : Advances o shelf s (.parse source) _ :=
    hs.step observed rfl hsource hfew
  generalize (s.step (host o observed) (.parse source)).1 = answer at hanswers ⊢
  cases hanswers with
  | parsed p hparsed' => exact nomatch hparsed.symm.trans hparsed'
  | refused hparsed' => rw [Except.error.inj (hparsed.symm.trans hparsed')]
  | used hop => simp [Operation.book?] at hop
  | idle hop => exact absurd rfl (hop source)

theorem step_parsed (observed : Bool) (hs : Shelved shelf s) {source : Bytes} {program : Program}
    (hparsed : o.parsed source = .ok program) (hsource : source.length < 2 ^ 63)
    (hfew : allocations s.world.trace < 2 ^ 59) :
    (s.step (host o observed) (.parse source)).1 = .book shelf.length ∧
      ∃ p, Shelved (shelf ++ [some (p, program)])
        (s.step (host o observed) (.parse source)).2 := by
  obtain ⟨next, calls, hanswers, hnext, -⟩ : Advances o shelf s (.parse source) _ :=
    hs.step observed rfl hsource hfew
  generalize (s.step (host o observed) (.parse source)).1 = answer at hanswers ⊢
  cases hanswers with
  | parsed p hparsed' =>
    obtain rfl := Except.ok.inj (hparsed.symm.trans hparsed')
    exact ⟨rfl, p, hnext⟩
  | refused hparsed' => exact nomatch hparsed.symm.trans hparsed'
  | used hop => simp [Operation.book?] at hop
  | idle hop => exact absurd rfl (hop source)

theorem run (hs : Shelved shelf s) {ops : List Operation}
    (hwithin : s.Within (host o observed) ops) :
    ∃ shelf', Shelved shelf' (s.run (host o observed) ops).2 ∧
      ∀ (i : Nat) place, shelf[i]? = some place →
        shelf'[i]? = some place ∨ shelf'[i]? = some none := by
  induction ops generalizing s shelf with
  | nil => exact ⟨shelf, hs, fun i place hplace => .inl hplace⟩
  | cons op ops ih =>
    obtain ⟨next, calls, hanswers, hnext, -⟩ := hs.step (o := o) observed
      (hwithin.engine op List.mem_cons_self) (hwithin.sources op List.mem_cons_self) hwithin.few
    obtain ⟨shelf', hshelf, hkept⟩ := ih hnext hwithin.tail
    refine ⟨shelf', hshelf, fun i place hplace => ?_⟩
    have hplace' := hanswers.kept hplace
    split at hplace'
    · exact .inr (or_self_iff.1 (hkept i none hplace'))
    · exact hkept i place hplace'

theorem run_place (hs : Shelved shelf s) {ops : List Operation}
    (hwithin : s.Within (host o observed) ops) {i : Nat} {place : Option (Ptr × Program)}
    (hplace : shelf[i]? = some place) {b : Book}
    (hb : (s.run (host o observed) ops).2.books[i]? = some b) (hlive : b.released = false) :
    ∃ shelf', Shelved shelf' (s.run (host o observed) ops).2 ∧ shelf'[i]? = some place := by
  obtain ⟨shelf', hs', hkept⟩ := hs.run hwithin
  rcases hkept i place hplace with hplace' | hplace'
  · exact ⟨shelf', hs', hplace'⟩
  · rw [hs'.books, Shelf.getElem?_books, hplace'] at hb
    obtain rfl := Option.some.inj hb
    exact nomatch hlive

end Shelved

theorem shelved_start : Shelved [] (Session.start {}) where
  books := rfl
  live := rfl
  valid _ _ h := nomatch h
  sound := ⟨.nil, fun _ h => nomatch h⟩
  violations := rfl
  last := rfl

/-- A book that is live after a history stands where its parse put it, for the program that it was
parsed from. -/
theorem exists_place_of_parse {o : Options} {observed : Bool} {before after : List Operation}
    {source : Bytes} {i : Nat} {b : Book}
    (hwithin : (Session.start {}).Within (host o observed) (before ++ .parse source :: after))
    (hparse : (((Session.start {}).run (host o observed) before).2.step (host o observed)
      (.parse source)).1 = .book i)
    (hbook : ((Session.start {}).run (host o observed)
      (before ++ .parse source :: after)).2.books[i]? = some b)
    (hlive : b.released = false) :
    ∃ shelf p program, Shelved shelf
        ((Session.start {}).run (host o observed) (before ++ .parse source :: after)).2 ∧
      shelf[i]? = some (some (p, program)) ∧ o.parsed source = .ok program := by
  obtain ⟨shelf, hshelf, -⟩ := shelved_start.run hwithin.left
  have hsource : source.length < 2 ^ 63 := hwithin.sources (.parse source) (by simp)
  have hrun := congrArg Prod.snd
    ((Session.start {}).run_append (host o observed) before (.parse source :: after))
  rw [hrun] at hbook ⊢
  cases hparsed : o.parsed source with
  | error message =>
    have hrefused := hshelf.step_refused observed hparsed hsource hwithin.right.few
    rw [hparse] at hrefused
    cases hrefused
  | ok program =>
    obtain ⟨hmade, p, hnext⟩ := hshelf.step_parsed observed hparsed hsource hwithin.right.few
    obtain rfl : shelf.length = i := Answer.book.inj (hmade.symm.trans hparse)
    obtain ⟨shelf', hshelf', hplace⟩ :=
      hnext.run_place hwithin.right.tail List.getElem?_concat_length hbook hlive
    exact ⟨shelf', p, program, hshelf', hplace, rfl⟩

end Simulator

end EngineHost
