import EngineHost.Proofs.SimulatedLedger
import Mathlib.Data.List.Pairwise
import Mathlib.Logic.ExistsUnique
import Mathlib.Tactic.ByContra

/-!
# What the ledger holds

The entries of the ledger come in items: a book, a vector or an error text by itself, and a record
together with the two texts that it owns. Items are entered whole and struck off whole, whoever
asks for it, so ownership is read off the items and never has to be kept up entry by entry.
-/

namespace EngineHost.Simulator

/-- Something that a caller holds and releases as a whole. Texts are given without their
terminators. -/
inductive Item
  | book (p : Ptr) (program : Program)
  | vec (p : Ptr) (data : Bytes)
  | text (p : Ptr) (s : Bytes)
  | evaluation (p : Ptr) (record : Record) (result memDump : Bytes)

namespace Item

def entries : Item → List (Ptr × Allocation)
  | book p program => [(p, .book program)]
  | vec p data => [(p, .vec data)]
  | text p s => [(p, .text (s ++ [0]))]
  | evaluation p record result memDump =>
    recordEntries p record (result ++ [0]) (memDump ++ [0])

def address : Item → Ptr
  | book p _ | vec p _ | text p _ | evaluation p _ _ _ => p

def allocation : Item → Allocation
  | book _ program => .book program
  | vec _ data => .vec data
  | text _ s => .text (s ++ [0])
  | evaluation _ record _ _ => .evaluation record

theorem mem_entries (item : Item) : (item.address, item.allocation) ∈ item.entries := by
  cases item <;> simp [address, allocation, entries, recordEntries]

/-- An entry other than a text that a record owns is what an item is released by. -/
theorem eq_of_mem_entries {item : Item} {p : Ptr} {a : Allocation} (h : (p, a) ∈ item.entries)
    (ha : a.resource? ≠ none) : p = item.address ∧ a = item.allocation := by
  cases item with
  | evaluation q record result memDump =>
    simp only [entries, recordEntries, List.mem_cons, List.not_mem_nil, or_false,
      Prod.mk.injEq] at h
    rcases h with ⟨-, rfl⟩ | ⟨-, rfl⟩ | ⟨rfl, rfl⟩
    · exact absurd rfl ha
    · exact absurd rfl ha
    · exact ⟨rfl, rfl⟩
  | _ => simpa [entries, address, allocation] using h

end Item

def entriesOf (items : List Item) : List (Ptr × Allocation) := items.flatMap Item.entries

@[simp] theorem entriesOf_nil : entriesOf [] = [] := rfl

@[simp] theorem entriesOf_append (items items' : List Item) :
    entriesOf (items ++ items') = entriesOf items ++ entriesOf items' := by
  simp [entriesOf]

@[simp] theorem entriesOf_cons (item : Item) (items : List Item) :
    entriesOf (item :: items) = item.entries ++ entriesOf items := by
  simp [entriesOf]

namespace Ledger

variable {l l' : Ledger} {items : List Item} {p q : Ptr} {a : Allocation}

/-- The live entries are those of the items. -/
structure Holds (l : Ledger) (items : List Item) : Prop where
  live : l.live = entriesOf items
  sound : l.Sound

private theorem Holds.mem_live (h : l.Holds items) {item : Item} (hitem : item ∈ items)
    {e : Ptr × Allocation} (he : e ∈ item.entries) : e ∈ l.live := by
  rw [h.live]
  exact List.mem_flatMap.2 ⟨item, hitem, he⟩

theorem Sound.eq_of_mem (hl : l.Sound) {a' : Allocation} (h : (p, a) ∈ l.live)
    (h' : (p, a') ∈ l.live) : a = a' :=
  Option.some.inj ((hl.find? h).symm.trans (hl.find? h'))

theorem Sound.find?_eq_some_iff (hl : l.Sound) : l.find? p = some a ↔ (p, a) ∈ l.live := by
  refine ⟨fun h => ?_, hl.find?⟩
  obtain ⟨⟨p', a'⟩, hfound, rfl⟩ := Option.map_eq_some_iff.1 h
  obtain rfl : p' = p := by simpa using List.find?_some hfound
  exact List.mem_of_find?_eq_some hfound

theorem find?_eq_none_iff : l.find? p = none ↔ ∀ a, (p, a) ∉ l.live := by
  simp only [Ledger.find?, Option.map_eq_none_iff, List.find?_eq_none, beq_iff_eq]
  exact ⟨fun h a hmem => h _ hmem rfl, fun h e hmem heq => h e.2 (heq ▸ hmem)⟩

private theorem Holds.item_eq (h : l.Holds items) {item item' : Item} (hitem : item ∈ items)
    (hitem' : item' ∈ items) {a' : Allocation} (hp : (p, a) ∈ item.entries)
    (hp' : (p, a') ∈ item'.entries) : item = item' := by
  by_contra hne
  have hincreasing := h.sound.increasing
  rw [h.live, entriesOf, List.pairwise_flatMap] at hincreasing
  -- the addresses of an earlier item are all smaller than those of a later one
  let Apart (x y : Item) : Prop := ∀ e ∈ x.entries, ∀ e' ∈ y.entries, e.1 ≠ e'.1
  have hapart : items.Pairwise Apart := hincreasing.2.imp fun hxy e he e' he' heq => by
    have hlt := hxy e he e' he'
    rw [heq] at hlt
    exact Nat.lt_irrefl _ hlt
  have : Std.Symm Apart := ⟨fun x y hxy e he e' he' => (hxy e' he' e he).symm⟩
  exact hapart.forall hitem hitem' hne _ hp _ hp' rfl

/-- Whatever is live and no text of a record is released with its item. -/
theorem Holds.item_of_mem (h : l.Holds items) (hmem : (p, a) ∈ l.live) (ha : a.resource? ≠ none) :
    ∃ item ∈ items, item.address = p ∧ item.allocation = a := by
  rw [h.live] at hmem
  obtain ⟨item, hitem, he⟩ := List.mem_flatMap.1 hmem
  obtain ⟨rfl, rfl⟩ := Item.eq_of_mem_entries he ha
  exact ⟨item, hitem, rfl, rfl⟩

private theorem Holds.record_of_mem (h : l.Holds items) {record : Record}
    (hmem : (p, .evaluation record) ∈ l.live) :
    ∃ result memDump, Item.evaluation p record result memDump ∈ items := by
  obtain ⟨item, hitem, hp, ha⟩ := h.item_of_mem hmem (by simp [Allocation.resource?])
  cases item with
  | evaluation q record' result memDump =>
    obtain rfl : q = p := hp
    obtain rfl : record' = record := by simpa [Item.allocation] using ha
    exact ⟨result, memDump, hitem⟩
  | _ => simp [Item.allocation] at ha

theorem Holds.record_split (h : l.Holds items) {record : Record}
    (hmem : (p, .evaluation record) ∈ l.live) :
    ∃ before item after result memDump, items = before ++ item :: after ∧
      l.live = entriesOf before ++ (recordEntries p record result memDump ++ entriesOf after) := by
  obtain ⟨result, memDump, hitem⟩ := h.record_of_mem hmem
  obtain ⟨before, after, rfl⟩ := List.append_of_mem hitem
  refine ⟨before, _, after, result ++ [0], memDump ++ [0], rfl, ?_⟩
  rw [h.live]
  simp [Item.entries]

private theorem Holds.owner_of_mem (h : l.Holds items) {data : Bytes}
    (hmem : (q, .recordText data) ∈ l.live) :
    ∃ p record result memDump, Item.evaluation p record result memDump ∈ items ∧
      (q, data) ∈ [(record.result, result ++ [0]), (record.memDump, memDump ++ [0])] := by
  rw [h.live] at hmem
  obtain ⟨item, hitem, he⟩ := List.mem_flatMap.1 hmem
  cases item with
  | evaluation p record result memDump =>
    refine ⟨p, record, result, memDump, hitem, ?_⟩
    simpa [Item.entries, recordEntries] using he
  | _ => simp [Item.entries] at he

/-- The texts that evaluation records own, and the terminators of texts. -/
structure Owned (l : Ledger) : Prop where
  /-- The texts of a live record are live, and they are two. -/
  texts : ∀ p record, (p, .evaluation record) ∈ l.live →
    (∃ data, (record.result, .recordText data) ∈ l.live) ∧
      (∃ data, (record.memDump, .recordText data) ∈ l.live) ∧ record.result ≠ record.memDump
  /-- A live text of a record belongs to one live record. -/
  owner : ∀ q data, (q, .recordText data) ∈ l.live →
    ∃! e : Ptr × Record, (e.1, .evaluation e.2) ∈ l.live ∧ (e.2.result = q ∨ e.2.memDump = q)
  /-- A live text has a terminator. -/
  ended : ∀ q data, (q, .text data) ∈ l.live ∨ (q, .recordText data) ∈ l.live → 0 ∈ data

theorem Holds.owned (h : l.Holds items) : l.Owned where
  texts p record hmem := by
    obtain ⟨result, memDump, hitem⟩ := h.record_of_mem hmem
    have hresult : (record.result, .recordText (result ++ [0])) ∈ l.live :=
      h.mem_live hitem (by simp [Item.entries, recordEntries])
    have hdump : (record.memDump, .recordText (memDump ++ [0])) ∈ l.live :=
      h.mem_live hitem (by simp [Item.entries, recordEntries])
    refine ⟨⟨_, hresult⟩, ⟨_, hdump⟩, fun heq => ?_⟩
    -- within an item the addresses increase as well
    have hincreasing := h.sound.increasing
    rw [h.live, entriesOf, List.pairwise_flatMap] at hincreasing
    have hpair := hincreasing.1 _ hitem
    simp [Item.entries, recordEntries, heq] at hpair
  owner q data hmem := by
    obtain ⟨p, record, result, memDump, hitem, hq⟩ := h.owner_of_mem hmem
    have hentry : (q, .recordText data) ∈ (Item.evaluation p record result memDump).entries := by
      simpa [Item.entries, recordEntries] using hq
    refine ⟨(p, record), ⟨h.mem_live hitem (by simp [Item.entries, recordEntries]), ?_⟩, ?_⟩
    · simp only [List.mem_cons, List.not_mem_nil, or_false, Prod.mk.injEq] at hq
      exact hq.imp (fun h => h.1.symm) fun h => h.1.symm
    · rintro ⟨p', record'⟩ ⟨hlive, howns⟩
      obtain ⟨result', memDump', hitem'⟩ := h.record_of_mem hlive
      have hentry' : ∃ data', (q, .recordText data') ∈
          (Item.evaluation p' record' result' memDump').entries := by
        rcases howns with rfl | rfl <;> simp [Item.entries, recordEntries]
      obtain ⟨data', hentry'⟩ := hentry'
      have hsame := h.item_eq hitem' hitem hentry' hentry
      simp only [Item.evaluation.injEq] at hsame
      rw [hsame.1, hsame.2.1]
  ended q data hmem := by
    rcases hmem with hmem | hmem
    · obtain ⟨item, -, -, ha⟩ := h.item_of_mem hmem (by simp [Allocation.resource?])
      cases item with
      | text p s =>
        obtain rfl : s ++ [0] = data := by simpa [Item.allocation] using ha
        simp
      | _ => simp [Item.allocation] at ha
    · obtain ⟨p, record, result, memDump, -, hq⟩ := h.owner_of_mem hmem
      simp only [List.mem_cons, List.not_mem_nil, or_false, Prod.mk.injEq] at hq
      rcases hq with ⟨-, rfl⟩ | ⟨-, rfl⟩ <;> simp

end Ledger

end EngineHost.Simulator
