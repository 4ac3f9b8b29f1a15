import EngineHost.Proofs.Shelf

/-!
# The encoding of a book

There are three ways to get at the encoding of a book: its length, its bytes, and a buffer to put
it into. Each of them has the engine encode the book anew, and they agree.
-/

namespace EngineHost

namespace Session

variable {σ : Type}

theorem parse_of_length_lt (e : Engine σ) (s : Session σ) {op : Operation}
    (hop : op.throughEngine = true) (h : s.books.length < (s.step e op).2.books.length) :
    ∃ source, op = .parse source ∧ (s.step e op).1 = .book s.books.length ∧
      (s.step e op).2.books.length = s.books.length + 1 := by
  obtain ⟨-, hkind⟩ := s.step_trace e hop
  generalize (s.step e op).1 = a, (s.step e op).2.books = books, s.callsOf e op = calls at *
  cases hkind with
  | kept hparse hp =>
    obtain ⟨source, rfl⟩ := hparse
    exact ⟨source, rfl, rfl, List.length_append⟩
  | closed hreleases hb hp =>
    rw [List.length_set] at h
    exact absurd h (Nat.lt_irrefl _)
  | settled => exact absurd h (Nat.lt_irrefl _)

private theorem exists_parse (e : Engine σ) (s : Session σ) {ops : List Operation}
    (hops : ∀ op ∈ ops, op.throughEngine = true) {i : Nat} (hnew : s.books.length ≤ i)
    (hi : i < (s.run e ops).2.books.length) :
    ∃ before source after, ops = before ++ .parse source :: after ∧
      ((s.run e before).2.step e (.parse source)).1 = .book i := by
  induction ops generalizing s with
  | nil => exact absurd hi (Nat.not_lt.2 hnew)
  | cons op ops ih =>
    simp only [List.forall_mem_cons] at hops
    by_cases hnext : (s.step e op).2.books.length ≤ i
    · obtain ⟨before, source, after, rfl, hanswer⟩ := ih (s.step e op).2 hops.2 hnext hi
      exact ⟨op :: before, source, after, rfl, hanswer⟩
    · obtain ⟨source, rfl, hanswer, hlength⟩ := s.parse_of_length_lt e hops.1 (by omega)
      obtain rfl : i = s.books.length := by omega
      exact ⟨[], source, ops, rfl, hanswer⟩

end Session

namespace Simulator

open Ledger

/-- The three ways to get at an encoding agree: its length, its bytes, and a buffer that is left
alone when it is too small, and else has the encoding in front and the rest as it was. An encoding
is copied only to be delivered. -/
structure CapacityLaw (e : Engine Ledger) (s : Session Ledger) (i : Nat) (data : Bytes) : Prop where
  length : ∃ n : UInt64, n.toNat = data.length ∧
    (s.step e (.serializedLength (.parsed i))).1 = .length (.ok n)
  bytes : (s.step e (.serialize (.parsed i))).1 = .bytes (.ok data)
  short : ∀ buffer : Bytes, buffer.length < data.length →
    (s.step e (.serializeTo (.parsed i) buffer)).1 = .filled ⟨.ok none, buffer⟩
  fits : ∀ buffer : Bytes, data.length ≤ buffer.length → ∃ n : UInt64, n.toNat = data.length ∧
    (s.step e (.serializeTo (.parsed i) buffer)).1 =
      .filled ⟨.ok (some n), data ++ buffer.drop data.length⟩
  copies : ∀ op : Operation, op.book? = some i →
    (s.callsOf e op).countP Call.copies = (s.step e op).1.deliveries

private theorem Shelved.capacityLaw {o : Options} {observed : Bool} {shelf : Shelf}
    {s : Session Ledger} {i : Nat} {p : Ptr} {program : Program} (hs : Shelved shelf s)
    (hplace : shelf[i]? = some (some (p, program))) (hnone : o.serializeError = [])
    (hfew : allocations s.world.trace < 2 ^ 59) :
    CapacityLaw (host o observed) s i program.encode := by
  have hsize := (hs.valid p program (List.mem_of_getElem? hplace)).2
  have hn : (UInt64.ofNat program.encode.length).toNat = program.encode.length :=
    UInt64.toNat_ofNat_of_lt' hsize
  have hencoded : o.encoded program = .ok program.encode := by
    simp [Options.encoded, injected, hnone]
  have hstep : ∀ op : Operation, op.book? = some i →
      (s.step (host o observed) op).1 = respond o (some program) op :=
    fun op hop => (hs.step_book observed hop hplace hfew).1
  refine ⟨⟨_, hn, ?_⟩, ?_, fun buffer hshort => ?_, fun buffer hfits => ⟨_, hn, ?_⟩, ?_⟩
  · rw [hstep _ rfl]
    simp only [respond, opened_some, hencoded, reply_ok]
    rfl
  · rw [hstep _ rfl]
    simp only [respond, opened_some, hencoded, reply_ok]
  · rw [hstep _ rfl]
    simp only [respond, opened_some, hencoded, reply_ok, filled, if_pos hshort]
  · rw [hstep _ rfl]
    simp only [respond, opened_some, hencoded, reply_ok, filled, if_neg (Nat.not_lt.2 hfits)]
  · exact fun op hop => (hs.step_book observed hop hplace hfew).2

/-- After every history over the simulated engine, as long as it is not told to refuse encodings,
the law holds of every book that is live, for the encoding of the program that it was parsed from.
The lengths of texts are 64-bit signed numbers, and the addresses must not wrap around. -/
theorem capacity_law (o : Options) (observed : Bool) (ops : List Operation)
    (hnone : o.serializeError = [])
    (hops : ∀ op ∈ ops, op.throughEngine = true)
    (hsources : ∀ op ∈ ops, op.source.length < 2 ^ 63)
    (hfew : allocations ((Session.start {}).run
      { boundary := boundary o, observed := observed } ops).2.world.trace < 2 ^ 59) :
    let e : Engine Ledger := { boundary := boundary o, observed := observed }
    let s := ((Session.start {}).run e ops).2
    ∀ i b, s.books[i]? = some b → b.released = false →
      ∃ before source after program, ops = before ++ .parse source :: after ∧
        (((Session.start {}).run e before).2.step e (.parse source)).1 = .book i ∧
        Program.parse source = .ok program ∧ CapacityLaw e s i program.encode := by
  intro e s i b hb hlive
  obtain ⟨hi, -⟩ := List.getElem?_eq_some_iff.1 hb
  obtain ⟨before, source, after, rfl, hanswer⟩ :=
    (Session.start {}).exists_parse e hops (Nat.zero_le i) hi
  have hwithin : (Session.start {}).Within e (before ++ .parse source :: after) :=
    ⟨hops, hsources, hfew⟩
  obtain ⟨shelf, hshelf, -⟩ := shelved_start.run hwithin.left
  have hsource : source.length < 2 ^ 63 := hsources (.parse source) (by simp)
  cases hparsed : o.parsed source with
  | error message =>
    have hrefused := hshelf.step_refused observed hparsed hsource hwithin.right.few
    exact nomatch hrefused.symm.trans hanswer
  | ok program =>
    obtain ⟨hmade, p, hnext⟩ := hshelf.step_parsed observed hparsed hsource hwithin.right.few
    obtain rfl : shelf.length = i := Answer.book.inj (hmade.symm.trans hanswer)
    have hs : s =
        ((((Session.start {}).run e before).2.step e (.parse source)).2.run e after).2 := by
      simp only [s, Session.run_append]
      rfl
    rw [hs] at hb
    obtain ⟨shelf', hshelf', hplace⟩ :=
      hnext.run_place hwithin.right.tail List.getElem?_concat_length hb hlive
    refine ⟨before, source, after, program, rfl, hanswer, parse_of_parsed hparsed, ?_⟩
    rw [hs]
    exact hshelf'.capacityLaw hplace hnone hwithin.right.tail.addresses

/-- A book that is used and one that is closed, and a text that is no program. -/
theorem capacity_law_two_books :
    let o : Options := { evaluateError := "stopped" }
    let e : Engine Ledger := { boundary := boundary o }
    let ops : List Operation := [.parse "@main = 1", .parse "main", .parse "@a = 2",
      .serializeTo (.parsed 1) [7, 7], .evaluate (.parsed 1) {}, .close (.parsed 0)]
    let s := ((Session.start {}).run e ops).2
    o.serializeError = [] ∧ (∀ op ∈ ops, op.throughEngine = true) ∧
      (∀ op ∈ ops, op.source.length < 2 ^ 63) ∧ allocations s.world.trace < 2 ^ 59 ∧
      s.books[1]? = some ⟨0x1030⟩ ∧
      ∃ before source after program, ops = before ++ .parse source :: after ∧
        (((Session.start {}).run e before).2.step e (.parse source)).1 = .book 1 ∧
        Program.parse source = .ok program ∧ CapacityLaw e s 1 program.encode := by
  intro o e ops s
  exact ⟨rfl, by decide, by decide, by decide, by decide,
    capacity_law o true ops rfl (by decide) (by decide) (by decide) 1 ⟨0x1030⟩ (by decide)
      (by decide)⟩

end Simulator

end EngineHost
