import EngineHost.Proofs.ReleasedBook
import EngineHost.Proofs.Shelf

/-!
# The ledger stays clean

Over the simulated engine every operation of the host leaves the ledger as it found it, but for the
book that it parses or releases. So after any history what is live are the books that have not been
released, one entry each, and no rule has been violated.
-/

namespace EngineHost

namespace Simulator

open Ledger

/-- The entries that books account for: one for each that has not been released. -/
def bookEntries (books : List Book) : List (Ptr × Option Resource) :=
  (books.filter fun b => !b.released).map fun b => (b.ptr, some .book)

def Ledger.tally (live : List (Ptr × Allocation)) : List (Ptr × Option Resource) :=
  live.map fun e => (e.1, e.2.resource?)

/-- Nothing is live but the books that have not been released, and no rule was violated. -/
structure Clean (s : Session Ledger) : Prop where
  sound : s.world.backend.Sound
  violations : s.world.backend.violations = []
  live : tally s.world.backend.live = bookEntries s.books
  last : s.world.backend.last.toNat = 0x1000 + 0x10 * allocations s.world.trace

private theorem Shelf.tally_entries {shelf : Shelf}
    (h : ∀ p program, some (p, program) ∈ shelf → p ≠ 0) :
    tally shelf.entries = bookEntries shelf.books := by
  induction shelf with
  | nil => rfl
  | cons place shelf ih =>
    have ih := ih fun p program hmem => h p program (List.mem_cons_of_mem _ hmem)
    cases place with
    | none => exact ih
    | some place =>
      obtain ⟨p, program⟩ := place
      have hp := h p program List.mem_cons_self
      have hreleased : (⟨p⟩ : Book).released = false := by simpa [Book.released] using hp
      have hentries : bookEntries (Shelf.books (some (p, program) :: shelf)) =
          (p, some .book) :: bookEntries (Shelf.books shelf) := by
        simp [bookEntries, Shelf.books, hreleased]
      rw [hentries, ← ih]
      rfl

theorem Shelved.clean {shelf : Shelf} {s : Session Ledger} (hs : Shelved shelf s) : Clean s where
  sound := hs.sound
  violations := hs.violations
  live := by
    rw [hs.live, hs.books]
    exact Shelf.tally_entries fun p program hmem => (hs.valid p program hmem).1
  last := hs.last

theorem clean_run (o : Options) (observed : Bool) {ops : List Operation}
    (hops : ∀ op ∈ ops, op.throughEngine = true)
    (hsources : ∀ op ∈ ops, op.source.length < 2 ^ 63)
    (hfew : allocations ((Session.start {}).run (host o observed) ops).2.world.trace < 2 ^ 59) :
    Clean ((Session.start {}).run (host o observed) ops).2 := by
  obtain ⟨shelf, hshelf, -⟩ := shelved_start.run ⟨hops, hsources, hfew⟩
  exact hshelf.clean

theorem Clean.nodup {s : Session Ledger} (hs : Clean s) :
    ((s.books.filter fun b => !b.released).map Book.ptr).Nodup := by
  have hptrs : (s.books.filter fun b => !b.released).map Book.ptr =
      s.world.backend.live.map Prod.fst := by
    have hlive := congrArg (List.map Prod.fst) hs.live
    simpa [tally, bookEntries, Function.comp_def] using hlive.symm
  rw [hptrs]
  exact hs.sound.nodup

theorem Clean.outstanding_eq_zero {s : Session Ledger} (hs : Clean s)
    (hreleased : ∀ b ∈ s.books, b.released = true) :
    s.world.backend.live = [] ∧ s.world.backend.outstanding = 0 := by
  have hnone : bookEntries s.books = [] := by
    simpa [bookEntries] using hreleased
  have hlive : s.world.backend.live = [] := List.map_eq_nil_iff.1 (hs.live.trans hnone)
  exact ⟨hlive, by simp [outstanding, hlive]⟩

/-- What the ledger shows after a history of operations, with the answers that they gave. -/
structure Accounted (e : Engine Ledger) (ops : List Operation) (answers : List Answer)
    (s : Session Ledger) : Prop where
  violations : s.world.backend.violations = []
  /-- The books are the ones that parses have handed out, in their order. -/
  books : answers.filterMap Answer.book? = List.range s.books.length
  /-- There is one entry for each book that has not been released, and no other entry. -/
  live : s.world.backend.live.map (fun e => (e.1, e.2.resource?)) =
    (s.books.filter fun b => !b.released).map fun b => (b.ptr, some .book)
  distinct : ((s.books.filter fun b => !b.released).map Book.ptr).Nodup
  /-- A book is null just if it was closed or finalized since it was parsed. -/
  released : ∀ i b, s.books[i]? = some b → (b.ptr = 0 ↔ (Session.start {}).Ended e ops i)
  /-- The addresses counted in the calls are those that the ledger has taken. -/
  last : s.world.backend.last.toNat = 0x1000 + 0x10 * allocations s.world.trace
  /-- Nothing is left when every book was closed or finalized. -/
  settled : (∀ i < s.books.length, (Session.start {}).Ended e ops i) →
    s.world.backend.live = [] ∧ s.world.backend.outstanding = 0

/-- Over the simulated engine, whatever it is told to refuse, the ledger accounts for the books and
for nothing else after every history. The lengths of texts are 64-bit signed numbers, and the
addresses must not wrap around. -/
theorem accounted_run (o : Options) (observed : Bool) (ops : List Operation)
    (hops : ∀ op ∈ ops, op.throughEngine = true)
    (hsources : ∀ op ∈ ops, op.source.length < 2 ^ 63)
    (hfew : allocations ((Session.start {}).run
      { boundary := boundary o, observed := observed } ops).2.world.trace < 2 ^ 59) :
    let e : Engine Ledger := { boundary := boundary o, observed := observed }
    Accounted e ops ((Session.start {}).run e ops).1 ((Session.start {}).run e ops).2 := by
  intro e
  have hclean := clean_run o observed hops hsources hfew
  have hreleased (i : Nat) (b : Book) (hb : ((Session.start {}).run e ops).2.books[i]? = some b) :
      b.ptr = 0 ↔ (Session.start {}).Ended e ops i := by
    rw [← Session.run_released_iff e {} ops hb, Book.released, beq_iff_eq]
  exact {
    violations := hclean.violations
    books := Session.run_hands_out e {} hops
    live := hclean.live
    distinct := hclean.nodup
    released := hreleased
    last := hclean.last
    settled := by
      intro hended
      refine hclean.outstanding_eq_zero fun b hb => ?_
      obtain ⟨i, hi, hget⟩ := List.mem_iff_getElem.1 hb
      have hb' := List.getElem?_eq_some_iff.2 ⟨hi, hget⟩
      exact (Session.run_released_iff e {} ops hb').2 (hended i hi) }

/-- Two books, a text that is no program, a refused evaluation, a buffer that is too small, and a
book that is used after it was closed and then finalized as well. -/
theorem accounted_run_two_books :
    let ops : List Operation := [.parse "@main = 1", .parse "@a = (1)\n@b = 2", .parse "main",
      .evaluate (.parsed 0) { memDump := true }, .evaluate (.parsed 1) {}, .serialize (.parsed 1),
      .serializeTo (.parsed 1) [0], .close (.parsed 0), .serializedLength (.parsed 0),
      .finalize (.parsed 0)]
    let e : Engine Ledger := { boundary := boundary { evaluateError := "stopped" } }
    let s := ((Session.start {}).run e ops).2
    (∀ op ∈ ops, op.throughEngine = true) ∧
      (∀ op ∈ ops, op.source.length < 2 ^ 63) ∧ allocations s.world.trace < 2 ^ 59 ∧
      s.books = [⟨0⟩, ⟨0x1020⟩] ∧ Accounted e ops ((Session.start {}).run e ops).1 s :=
  ⟨by decide, by decide, by decide, by decide,
    accounted_run _ _ _ (by decide) (by decide) (by decide)⟩

end Simulator

end EngineHost
