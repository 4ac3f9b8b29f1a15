import EngineHost.Proofs.HeldItems
import EngineHost.Proofs.History
import EngineHost.Proofs.SimulatedOperations

/-!
# The simulated engine detects misuse

A caller that goes past the host may hand any address to any call. One look at the live entries
tells whether such a call is a misuse, and the ledger writes down exactly the calls that are. An
address is handed out once, so what was released stays released, and every later use of it shows.
-/

namespace EngineHost

namespace RawCall

def address? : RawCall → Option Ptr
  | parse _ _ => none
  | evaluate p _ _ _ | serialize p _ | freeBook p | freeEvaluation p | freeVec p | freeText p
  | vecLength p | vecCopy p _ | readText p | readRecord p => some p

/-- The kinds of which the address that a call names may be. A text that a record owns is of no
kind that can be released, but it can be read. -/
def wanted : RawCall → List (Option Resource)
  | parse _ _ => []
  | evaluate _ _ _ _ | serialize _ _ | freeBook _ => [some .book]
  | freeEvaluation _ | readRecord _ => [some .evaluation]
  | freeVec _ | vecLength _ | vecCopy _ _ => [some .vec]
  | freeText _ => [some .text]
  | readText _ => [some .text, none]

def makes : RawCall → Bool
  | parse _ _ | evaluate _ _ _ _ | serialize _ _ => true
  | _ => false

/-- Whether a call needs a book to make something of. -/
def makesFromBook : RawCall → Bool
  | evaluate _ _ _ _ | serialize _ _ => true
  | _ => false

/-- Whether a call copies a vector into a buffer that is too small. -/
def overruns : RawCall → Simulator.Allocation → Bool
  | vecCopy _ buffer, .vec data => buffer.length < data.length
  | _, _ => false

end RawCall

def Answer.pointers : Answer → List Ptr
  | made m => unlessNull m.ptr [m.ptr] ++ unlessNull m.slot [m.slot]
  | _ => []

namespace Simulator

namespace Ledger

variable {l l' l'' : Ledger} {c : RawCall} {p : Ptr} {a : Allocation}

/-- Whether a call is a misuse: it names an address that is not live with a kind that the call
takes, or copies into a buffer that is too small. -/
def misusedBy (l : Ledger) (c : RawCall) : Bool :=
  match c.address? with
  | none => false
  | some p =>
    !(l.live.any fun e => e.1 == p && c.wanted.contains e.2.resource?) ||
      l.live.any fun e => e.1 == p && c.overruns e.2

/-- The addresses that a call gives up. A record goes with its two texts. -/
def givenUpBy (l : Ledger) : RawCall → List Ptr
  | .freeBook p | .freeVec p | .freeText p => [p]
  | .freeEvaluation p =>
    match l.find? p with
    | some (.evaluation record) => [p, record.result, record.memDump]
    | _ => [p]
  | _ => []

private theorem Sound.misusedBy_of_mem (hl : l.Sound) (hc : c.address? = some p)
    (hmem : (p, a) ∈ l.live) :
    l.misusedBy c = (!c.wanted.contains a.resource? || c.overruns a) := by
  have hany : ∀ f : Allocation → Bool, (l.live.any fun e => e.1 == p && f e.2) = f a := by
    intro f
    refine Bool.eq_iff_iff.2 ?_
    simp only [List.any_eq_true, Bool.and_eq_true, beq_iff_eq]
    constructor
    · rintro ⟨⟨q, b⟩, hb, rfl, hf⟩
      rwa [hl.eq_of_mem hmem hb]
    · exact fun hf => ⟨_, hmem, rfl, hf⟩
  simp only [misusedBy, hc, hany fun b => c.wanted.contains b.resource?, hany c.overruns]

private theorem misusedBy_of_not_wanted (hc : c.address? = some p)
    (h : ∀ a, (p, a) ∈ l.live → c.wanted.contains a.resource? = false) :
    l.misusedBy c = true := by
  have hany : (l.live.any fun e => e.1 == p && c.wanted.contains e.2.resource?) = false := by
    refine List.any_eq_false.2 fun e he htrue => ?_
    simp only [Bool.and_eq_true, beq_iff_eq] at htrue
    rw [h e.2 (htrue.1 ▸ he)] at htrue
    exact Bool.false_ne_true htrue.2
  simp only [misusedBy, hc, hany, Bool.not_false, Bool.true_or]

private theorem misusedBy_of_not_live (hc : c.address? = some p) (h : ∀ a, (p, a) ∉ l.live) :
    l.misusedBy c = true :=
  misusedBy_of_not_wanted hc fun a ha => absurd ha (h a)

private theorem Sound.live_or_misused (hl : l.Sound) {kind : Resource} (hc : c.address? = some p)
    (hwanted : c.wanted = [some kind]) :
    (∃ a, (p, a) ∈ l.live ∧ a.resource? = some kind ∧ l.misusedBy c = c.overruns a) ∨
      (∀ a, (p, a) ∈ l.live → a.resource? ≠ some kind) ∧ l.misusedBy c = true := by
  by_cases h : ∃ a, (p, a) ∈ l.live ∧ a.resource? = some kind
  · obtain ⟨a, hmem, ha⟩ := h
    exact .inl ⟨a, hmem, ha, by simp [hl.misusedBy_of_mem hc hmem, hwanted, ha]⟩
  · have hnone : ∀ a, (p, a) ∈ l.live → a.resource? ≠ some kind := fun a hmem ha =>
      h ⟨a, hmem, ha⟩
    refine .inr ⟨hnone, misusedBy_of_not_wanted hc fun a hmem => ?_⟩
    simpa [hwanted] using hnone a hmem

@[simp] theorem violate_live (l : Ledger) (v : Violation) : (l.violate v).live = l.live := rfl

theorem Sound.violate (hl : l.Sound) (v : Violation) : (l.violate v).Sound :=
  ⟨hl.increasing, hl.bounded⟩

private theorem exists_lookup_count (f : Function) {kind : Resource}
    (h : ∀ a, (p, a) ∈ l.live → a.resource? ≠ some kind) :
    ∃ v, (l.count f).lookup f p kind = (none, (l.violate v).count f) := by
  have hcount : (l.count f).find? p = l.find? p := rfl
  cases hfind : l.find? p with
  | none => exact ⟨.notLive f p, by rw [lookup, hcount, hfind]; rfl⟩
  | some a =>
    have ha : a.resource? ≠ some kind := by
      obtain ⟨⟨q, b⟩, hfound, rfl⟩ := Option.map_eq_some_iff.1 hfind
      obtain rfl : q = p := by simpa using List.find?_some hfound
      exact h b (List.mem_of_find?_eq_some hfound)
    refine ⟨.wrongKind f p a.kindName kind, ?_⟩
    simp only [lookup, hcount, hfind, if_neg ha]
    rfl

/-- A ledger at a later time: what was not live before has an address that was not handed out
before. -/
structure Later (l l' : Ledger) : Prop where
  last_le : l.last.toNat ≤ l'.last.toNat
  fresh : ∀ e ∈ l'.live, e ∈ l.live ∨ l.last.toNat < e.1.toNat

theorem Later.refl (l : Ledger) : Later l l := ⟨Nat.le_refl _, fun _ => .inl⟩

theorem Later.trans (h : Later l l') (h' : Later l' l'') : Later l l'' where
  last_le := Nat.le_trans h.last_le h'.last_le
  fresh e he := by
    rcases h'.fresh e he with he | hlt
    · exact h.fresh e he
    · exact .inr (Nat.lt_of_le_of_lt h.last_le hlt)

theorem Became.later {n : Nat} {live : List (Ptr × Allocation)} (h : l.Became n live l') :
    Later l l' :=
  ⟨by rw [h.last_eq]; omega, h.fresh⟩

private theorem Later.not_live (h : Later l l') (hp : p.toNat ≤ l.last.toNat)
    (hgone : ∀ a, (p, a) ∉ l.live) (a : Allocation) : (p, a) ∉ l'.live := by
  intro hmem
  rcases h.fresh _ hmem with hmem | hlt
  · exact hgone a hmem
  · exact absurd hp (Nat.not_le_of_lt hlt)

/-- The addresses that are live and were not before. -/
def entered (l l' : Ledger) : List Ptr :=
  (l'.live.map Prod.fst).filter fun p => !(l.live.map Prod.fst).contains p

private theorem mem_entered :
    p ∈ l.entered l' ↔ (∃ a, (p, a) ∈ l'.live) ∧ ∀ a, (p, a) ∉ l.live := by
  simp [entered]

private theorem Later.lt_of_mem_entered (h : Later l l') (hp : p ∈ l.entered l') :
    l.last.toNat < p.toNat := by
  obtain ⟨⟨a, hmem⟩, hnew⟩ := mem_entered.1 hp
  exact (h.fresh _ hmem).resolve_left (hnew a)

private theorem Sound.entered_increasing (hl : l'.Sound) :
    (l.entered l').Pairwise fun p q => p.toNat < q.toNat := by
  have hlive : (l'.live.map Prod.fst).Pairwise fun p q => p.toNat < q.toNat :=
    List.pairwise_map.2 hl.increasing
  exact hlive.sublist List.filter_sublist

end Ledger

open Ledger

variable {o : Options} {l l' : Ledger} {items new : List Item} {c : RawCall} {a : Answer} {p : Ptr}

def Ledger.keptBy (l : Ledger) (c : RawCall) : List (Ptr × Allocation) :=
  l.live.filter fun entry => !(l.givenUpBy c).contains entry.1

private theorem Ledger.keptBy_eq_live (h : l.givenUpBy c = []) : l.keptBy c = l.live := by
  simp [keptBy, h]

/-- What a call does to a ledger of items: it enters some, strikes one off, or writes down one
violation. A call that needs a book and does not get one enters a text that says so. -/
inductive Turn (l : Ledger) (items : List Item) (c : RawCall) (a : Answer) (l' : Ledger) :
    (new items' : List Item) → Prop
  | entered {new : List Item} (hc : l.misusedBy c = false) (hgiven : l.givenUpBy c = [])
      (hmakes : c.makes = false → new = [])
      (ha : ∀ p ∈ a.pointers, p ∈ (entriesOf new).map Prod.fst)
      (h : l.Became (entriesOf new).length (l.live ++ entriesOf new) l') :
      Turn l items c a l' new (items ++ new)
  | released {before after : List Item} {item : Item} (hc : l.misusedBy c = false)
      (hitems : items = before ++ item :: after) (ha : a.pointers = [])
      (hkept : l'.live = l.keptBy c) (h : l.Became 0 (entriesOf (before ++ after)) l') :
      Turn l items c a l' [] (before ++ after)
  | misused {new : List Item} (v : Violation) (hc : l.misusedBy c = true)
      (hnew : new = a.pointers.map fun p => .text p "invalid book pointer")
      (hbook : c.makesFromBook = false → new = [])
      (h : (l.violate v).Became (entriesOf new).length (l.live ++ entriesOf new) l') :
      Turn l items c a l' new (items ++ new)

/-- The items that a call hands over when it makes one and perhaps reports an error. -/
def itemsOf (item : Item) (error : Option Bytes) (m : Made) : List Item :=
  unlessNull m.ptr [item] ++ unlessNull m.slot [.text m.slot (error.getD [])]

private theorem length_entriesOf_itemsOf (item : Item) (error : Option Bytes) (m : Made) :
    (entriesOf (itemsOf item error m)).length =
      (if m.ptr = 0 then 0 else item.entries.length) + if m.slot = 0 then 0 else 1 := by
  by_cases hp : m.ptr = 0 <;> by_cases hv : m.slot = 0 <;>
    simp [itemsOf, hp, hv, Item.entries]

theorem Handed.turn (item : Item) {error : Option Bytes} {r : Reply Ledger Made}
    (h : Handed l item.entries error r) (hc : l.misusedBy c = false)
    (hgiven : l.givenUpBy c = []) (hmakes : c.makes = true)
    (hitem : item.address = r.value.ptr) (items : List Item) :
    Turn l items c (.made r.value) r.state (itemsOf item error r.value)
      (items ++ itemsOf item error r.value) := by
  refine .entered hc hgiven (by simp [hmakes]) ?_ ?_
  · intro p hp
    simp only [Answer.pointers, List.mem_append, mem_unlessNull, List.mem_singleton] at hp
    simp only [itemsOf, entriesOf_append, List.map_append, List.mem_append]
    refine hp.imp ?_ ?_
    · rintro ⟨hne, rfl⟩
      rw [unlessNull_of_ne hne, ← hitem]
      simpa using ⟨_, item.mem_entries⟩
    · rintro ⟨hne, rfl⟩
      simp [unlessNull_of_ne hne, Item.entries]
  · have hbecame := h.became
    by_cases hp : r.value.ptr = 0 <;> by_cases hv : r.value.slot = 0 <;>
      simpa [itemsOf, hp, hv, Item.entries] using hbecame

theorem Turn.unchanged (hc : l.misusedBy c = false) (hgiven : l.givenUpBy c = [])
    (ha : a.pointers = []) (h : l.Became 0 l.live l') : Turn l items c a l' [] items := by
  have hturn : Turn l items c a l' [] (items ++ []) :=
    .entered hc hgiven (fun _ => rfl) (by simp [ha]) (by simpa using h)
  rwa [List.append_nil] at hturn

theorem Turn.violated {v : Violation} (hc : l.misusedBy c = true) (ha : a.pointers = [])
    (h : (l.violate v).Became 0 l.live l') : Turn l items c a l' [] items := by
  have hturn : Turn l items c a l' [] (items ++ []) :=
    .misused v hc (by simp [ha]) (fun _ => rfl) (by simpa using h)
  rwa [List.append_nil] at hturn

theorem Ledger.Holds.freed (hl : l.Holds items) {record : Record}
    (hmem : (p, .evaluation record) ∈ l.live) :
    (freeEvaluation p l).state.live =
        l.live.filter (fun entry => !([p, record.result, record.memDump].contains entry.1)) ∧
      (freeEvaluation p l).state.live.length + 3 = l.live.length := by
  constructor
  · simp only [freeEvaluation, lookup_count _ .evaluation (hl.sound.find? hmem) rfl]
    simp only [Ledger.erase, Ledger.count, List.filter_filter]
    refine List.filter_congr fun entry _ => ?_
    rw [Bool.eq_iff_iff]
    simpa using fun _ => And.comm
  · obtain ⟨before, item, after, result, memDump, -, hlive⟩ := hl.record_split hmem
    rw [(freeEvaluation_became hl.sound hlive).live_eq, hlive]
    simp only [recordEntries, List.length_append, List.length_cons, List.length_nil]
    omega

section Calls

variable (hl : l.Holds items)
include hl

private theorem free_turn (f : Function) {kind : Resource} (hkind : kind ≠ .evaluation)
    (hc : c.address? = some p) (hwanted : c.wanted = [some kind])
    (hgiven : l.givenUpBy c = [p]) (hover : ∀ a, c.overruns a = false) (ha : a.pointers = []) :
    ∃ items', Turn l items c a ((l.count f).free f p kind) [] items' := by
  rcases hl.sound.live_or_misused hc hwanted with ⟨b, hmem, hb, hmisused⟩ | ⟨hnone, hmisused⟩
  · obtain ⟨item, hitem, rfl, rfl⟩ := hl.item_of_mem hmem (by simp [hb])
    obtain ⟨before, after, rfl⟩ := List.append_of_mem hitem
    -- an item of any kind but a record is its one entry
    have hentries : item.entries = [(item.address, item.allocation)] := by
      cases item with
      | evaluation => exact absurd (Option.some.inj hb).symm hkind
      | _ => rfl
    refine ⟨before ++ after, .released (by rw [hmisused, hover]) rfl ha ?_ ?_⟩
    · simp only [Ledger.free, lookup_count f kind (hl.sound.find? hmem) hb, keptBy, hgiven,
        List.contains_cons, List.contains_nil, Bool.or_false]
      rfl
    · rw [entriesOf_append]
      exact hl.sound.free f (by rw [hl.live]; simp [hentries]) hb
  · obtain ⟨v, hlookup⟩ := exists_lookup_count f hnone
    refine ⟨items, .violated (v := v) hmisused ha ?_⟩
    simp only [Ledger.free, hlookup]
    exact (hl.sound.violate v).count f

private theorem freeEvaluation_turn :
    ∃ items', Turn l items (.freeEvaluation p) .done (freeEvaluation p l).state [] items' := by
  rcases hl.sound.live_or_misused (c := .freeEvaluation p) rfl rfl with
    ⟨b, hmem, hb, hmisused⟩ | ⟨hnone, hmisused⟩
  · obtain ⟨record, rfl⟩ : ∃ record, b = .evaluation record := by
      cases b <;> simp_all [Allocation.resource?]
    obtain ⟨before, item, after, result, memDump, hitems, hlive⟩ := hl.record_split hmem
    refine ⟨before ++ after, .released hmisused hitems rfl ?_ ?_⟩
    · simp only [keptBy, givenUpBy, hl.sound.find? hmem]
      exact (hl.freed hmem).1
    · rw [entriesOf_append]
      exact freeEvaluation_became hl.sound hlive
  · obtain ⟨v, hlookup⟩ := exists_lookup_count .freeEvaluation hnone
    refine ⟨items, .violated (v := v) hmisused rfl ?_⟩
    simp only [freeEvaluation, hlookup]
    exact (hl.sound.violate v).count _

private theorem vecLength_turn :
    Turn l items (.vecLength p) (.number (vecLength p l).value) (vecLength p l).state [] items := by
  rcases hl.sound.live_or_misused (c := .vecLength p) rfl rfl with
    ⟨b, hmem, hb, hmisused⟩ | ⟨hnone, hmisused⟩
  · obtain ⟨data, rfl⟩ : ∃ data, b = .vec data := by
      cases b <;> simp_all [Allocation.resource?]
    exact .unchanged hmisused rfl rfl (vecLength_became (o := {}) hl.sound hmem).2
  · obtain ⟨v, hlookup⟩ := exists_lookup_count .vecLength hnone
    refine .violated (v := v) hmisused rfl ?_
    simp only [vecLength, hlookup]
    exact (hl.sound.violate v).count _

private theorem vecCopy_turn (buffer : Bytes) :
    Turn l items (.vecCopy p buffer)
      (.copied (vecCopy p buffer l).value.1 (vecCopy p buffer l).value.2)
      (vecCopy p buffer l).state [] items := by
  rcases hl.sound.live_or_misused (c := .vecCopy p buffer) rfl rfl with
    ⟨b, hmem, hb, hmisused⟩ | ⟨hnone, hmisused⟩
  · obtain ⟨data, rfl⟩ : ∃ data, b = .vec data := by
      cases b <;> simp_all [Allocation.resource?]
    have hlookup := lookup_count .vecCopy .vec (hl.sound.find? hmem) rfl
    by_cases hshort : buffer.length < data.length
    · refine .violated (v := .shortBuffer buffer.length data.length)
        (hmisused.trans (by simp [RawCall.overruns, hshort])) rfl ?_
      simp only [vecCopy, hlookup, if_pos hshort]
      exact (hl.sound.violate _).count .vecCopy
    · refine .unchanged (hmisused.trans (by simp [RawCall.overruns, hshort])) rfl rfl ?_
      simp only [vecCopy, hlookup, if_neg hshort]
      exact hl.sound.count _
  · obtain ⟨v, hlookup⟩ := exists_lookup_count .vecCopy hnone
    refine .violated (v := v) hmisused rfl ?_
    simp only [vecCopy, hlookup]
    exact (hl.sound.violate v).count _

private theorem readText_turn :
    Turn l items (.readText p) (.readText (readText p l).value) (readText p l).state [] items := by
  have hmisused (b : Allocation) (hmem : (p, b) ∈ l.live) :=
    hl.sound.misusedBy_of_mem (c := .readText p) rfl hmem
  have hviolated (hmisused : l.misusedBy (.readText p) = true) (value : Option Bytes) :
      Turn l items (.readText p) (.readText value) (l.violate (.notText p)) [] items :=
    .violated hmisused rfl (hl.sound.violate (.notText p)).became
  unfold readText
  cases hfind : l.find? p with
  | none =>
    exact hviolated (misusedBy_of_not_live (c := .readText p) rfl (find?_eq_none_iff.1 hfind)) _
  | some b =>
    have hmem := hl.sound.find?_eq_some_iff.1 hfind
    cases b with
    | text data => exact .unchanged (hmisused _ hmem) rfl rfl hl.sound.became
    | recordText data => exact .unchanged (hmisused _ hmem) rfl rfl hl.sound.became
    | _ => exact hviolated (hmisused _ hmem) _

private theorem readRecord_turn :
    Turn l items (.readRecord p) (.readRecord (readRecord p l).value) (readRecord p l).state []
      items := by
  have hmisused (b : Allocation) (hmem : (p, b) ∈ l.live) :=
    hl.sound.misusedBy_of_mem (c := .readRecord p) rfl hmem
  have hviolated (hmisused : l.misusedBy (.readRecord p) = true) (value : Option Record) :
      Turn l items (.readRecord p) (.readRecord value) (l.violate (.notRecord p)) [] items :=
    .violated hmisused rfl (hl.sound.violate (.notRecord p)).became
  unfold readRecord
  cases hfind : l.find? p with
  | none =>
    exact hviolated (misusedBy_of_not_live (c := .readRecord p) rfl (find?_eq_none_iff.1 hfind)) _
  | some b =>
    have hmem := hl.sound.find?_eq_some_iff.1 hfind
    cases b with
    | evaluation record => exact .unchanged (hmisused _ hmem) rfl rfl hl.sound.became
    | _ => exact hviolated (hmisused _ hmem) _

variable (hroom : l.last.toNat + 0x40 < 2 ^ 64)
include hroom

private theorem parse_turn (o : Options) (source : Bytes) (slot : Ptr) :
    let r := parse o source l
    ∃ new, Turn l items (.parse source slot) (.made r.value) r.state new (items ++ new) ∧
      (Call.parse r.value.ptr r.value.slot).allocations = (entriesOf new).length := by
  obtain ⟨program, -, hhanded⟩ := parse_handed o source hl.sound hroom
  exact ⟨_, hhanded.turn (.book _ program) rfl rfl rfl rfl items,
    by rw [length_entriesOf_itemsOf]; rfl⟩

private theorem refuse_turn (f : Function) (v : Violation) (hc : l.misusedBy c = true)
    (hbook : c.makesFromBook = true) :
    let r := refuse ((l.violate v).count f) "invalid book pointer"
    Turn l items c (.made r.value) r.state [.text r.value.slot "invalid book pointer"]
        (items ++ [.text r.value.slot "invalid book pointer"]) ∧
      r.value.ptr = 0 ∧ r.value.slot ≠ 0 := by
  intro r
  have hhanded : Handed (l.violate v) [] (some "invalid book pointer") r :=
    refuse_count_handed f (hl.sound.violate v) (by change l.last.toNat + 0x10 < _; omega) _ []
  have hslot : r.value.slot ≠ 0 := fun h => by simpa using hhanded.slot_eq_zero_iff.1 h
  have hbecame := hhanded.became
  refine ⟨.misused v hc ?_ (fun h => ?_) ?_, rfl, hslot⟩
  · rw [Answer.pointers, show r.value.ptr = 0 from rfl, unlessNull_zero, unlessNull_of_ne hslot]
    rfl
  · rw [h] at hbook
    exact absurd hbook Bool.false_ne_true
  · rw [show r.value.ptr = 0 from rfl, unlessNull_of_ne hslot, unlessNull_of_ne hslot] at hbecame
    simpa [Item.entries] using hbecame

private theorem evaluate_turn (o : Options) (i : Interpreter) (dump : UInt32) (slot : Ptr) :
    let r := evaluate o p i dump l
    ∃ new, Turn l items (.evaluate p i dump slot) (.made r.value) r.state new (items ++ new) ∧
      (Call.evaluate p i dump r.value.ptr r.value.slot).allocations = (entriesOf new).length := by
  rcases hl.sound.live_or_misused (c := .evaluate p i dump slot) rfl rfl with
    ⟨b, hmem, hb, hmisused⟩ | ⟨hnone, hmisused⟩
  · obtain ⟨program, rfl⟩ : ∃ program, b = .book program := by
      cases b <;> simp_all [Allocation.resource?]
    -- an evaluation asks no more of `dump` than whether it is zero
    let options : EvaluateOptions := { interpreter := i, memDump := dump ≠ 0 }
    have hdump : evaluate o p i dump l = evaluate o p i options.dump l := by
      simp only [evaluate, enterRecord, EvaluateOptions.dump, options]
      by_cases hzero : dump = 0 <;> simp [hzero]
    rw [hdump]
    obtain ⟨record, -, hhanded⟩ :=
      evaluate_handed o options hl.sound (hl.sound.find? hmem) hroom
    exact ⟨_, hhanded.turn (.evaluation _ record _ _) hmisused rfl rfl rfl items,
      by rw [length_entriesOf_itemsOf]; rfl⟩
  · obtain ⟨v, hlookup⟩ := exists_lookup_count .bookEvaluate hnone
    simp only [evaluate, hlookup]
    obtain ⟨hturn, hptr, hslot⟩ := refuse_turn hl hroom .bookEvaluate v hmisused rfl
    exact ⟨_, hturn, by simp [Call.allocations, hptr, hslot, Item.entries]⟩

private theorem serialize_turn (o : Options) (slot : Ptr) :
    let r := serialize o p l
    ∃ new, Turn l items (.serialize p slot) (.made r.value) r.state new (items ++ new) ∧
      (Call.serialize p r.value.ptr r.value.slot).allocations = (entriesOf new).length := by
  rcases hl.sound.live_or_misused (c := .serialize p slot) rfl rfl with
    ⟨b, hmem, hb, hmisused⟩ | ⟨hnone, hmisused⟩
  · obtain ⟨program, rfl⟩ : ∃ program, b = .book program := by
      cases b <;> simp_all [Allocation.resource?]
    have hhanded := serialize_handed o hl.sound (hl.sound.find? hmem) hroom
    exact ⟨_, hhanded.turn (.vec _ _) hmisused rfl rfl rfl items,
      by rw [length_entriesOf_itemsOf]; rfl⟩
  · obtain ⟨v, hlookup⟩ := exists_lookup_count .bookSerialize hnone
    simp only [serialize, hlookup]
    obtain ⟨hturn, hptr, hslot⟩ := refuse_turn hl hroom .bookSerialize v hmisused rfl
    exact ⟨_, hturn, by simp [Call.allocations, hptr, hslot, Item.entries]⟩

end Calls

namespace Turn

variable {items' : List Item} (h : Turn l items c a l' new items')
include h

theorem holds (hl : l.Holds items) : l'.Holds items' := by
  cases h with
  | entered _ _ _ _ h => exact ⟨by rw [h.live_eq, hl.live, entriesOf_append], h.sound⟩
  | released _ _ _ _ h => exact ⟨h.live_eq, h.sound⟩
  | misused _ _ _ _ h => exact ⟨by rw [h.live_eq, hl.live, entriesOf_append], h.sound⟩

theorem last_eq : l'.last.toNat = l.last.toNat + 0x10 * (entriesOf new).length := by
  cases h with
  | entered _ _ _ _ h => exact h.last_eq
  | released _ _ _ _ h => exact h.last_eq
  | misused _ _ _ _ h => exact h.last_eq

theorem later : Later l l' := by
  cases h with
  | entered _ _ _ _ h => exact h.later
  | released _ _ _ _ h => exact h.later
  | misused v _ _ _ h => exact ⟨h.later.last_le, h.later.fresh⟩

private theorem violations_of_misused (hc : l.misusedBy c = true) :
    ∃ v, l'.violations = l.violations ++ [v] := by
  cases h with
  | entered hc' => exact absurd (hc.symm.trans hc') (by decide)
  | released hc' => exact absurd (hc.symm.trans hc') (by decide)
  | misused v _ _ _ h => exact ⟨v, h.violations_eq⟩

private theorem violations_of_not_misused (hc : l.misusedBy c = false) :
    l'.violations = l.violations := by
  cases h with
  | entered _ _ _ _ h => exact h.violations_eq
  | released _ _ _ _ h => exact h.violations_eq
  | misused v hc' => exact absurd (hc.symm.trans hc') (by decide)

private theorem live_of_misused (hc : l.misusedBy c = true) :
    l'.live = l.live ++
        a.pointers.map (fun p => (p, .text (Bytes.ofString "invalid book pointer" ++ [0]))) ∧
      (c.makesFromBook = false → l'.live = l.live) := by
  cases h with
  | entered hc' => exact absurd (hc.symm.trans hc') (by decide)
  | released hc' => exact absurd (hc.symm.trans hc') (by decide)
  | misused v _ hnew hbook h =>
    refine ⟨?_, fun hnone => by simp [h.live_eq, hbook hnone]⟩
    rw [h.live_eq, hnew, entriesOf, List.flatMap_map]
    simp [Item.entries, ← List.map_eq_flatMap]

/-- A call that is no misuse strikes off what it gives up and enters what it makes. -/
theorem live_of_not_misused (hc : l.misusedBy c = false) :
    ∃ made, l'.live = l.keptBy c ++ made ∧ (c.makes = false → made = []) := by
  cases h with
  | entered _ hgiven hmakes _ h =>
    exact ⟨_, by rw [h.live_eq, keptBy_eq_live hgiven], fun hnone => by simp [hmakes hnone]⟩
  | released _ _ _ hkept => exact ⟨[], by rw [hkept, List.append_nil], fun _ => rfl⟩
  | misused v hc' => exact absurd (hc.symm.trans hc') (by decide)

private theorem pointers_entered (hp : p ∈ a.pointers) : p ∈ l.entered l' := by
  have hnew : ∀ new, l'.Sound → l'.live = l.live ++ entriesOf new →
      p ∈ (entriesOf new).map Prod.fst → p ∈ l.entered l' := by
    intro new hsound hlive hmem
    obtain ⟨⟨q, b⟩, hb, rfl⟩ := List.mem_map.1 hmem
    refine mem_entered.2 ⟨⟨b, by simp [hlive, hb]⟩, fun b' hb' => ?_⟩
    have hincreasing := hsound.increasing
    rw [hlive, List.pairwise_append] at hincreasing
    exact Nat.lt_irrefl _ (hincreasing.2.2 (q, b') hb' (q, b) hb)
  cases h with
  | entered _ _ _ ha h => exact hnew _ h.sound h.live_eq (ha p hp)
  | released _ _ ha => simp [ha] at hp
  | misused v _ hnew' _ h =>
    refine hnew _ h.sound h.live_eq ?_
    rw [hnew', entriesOf, List.flatMap_map, List.map_flatMap]
    exact List.mem_flatMap.2 ⟨p, hp, by simp [Item.entries]⟩

end Turn

section Runs

variable {s : Session Ledger}

/-- The ledger of a session holds these items, and its addresses are those of the calls made. -/
structure Accounts (items : List Item) (s : Session Ledger) : Prop where
  holds : s.world.backend.Holds items
  last_eq : s.world.backend.last.toNat = 0x1000 + 0x10 * allocations s.world.trace

private theorem accounts_start : Accounts [] (Session.start {}) :=
  ⟨⟨rfl, List.Pairwise.nil, by simp [Session.start]⟩, rfl⟩

/-- One call is one turn, and is noted with the addresses that it takes. -/
theorem step_turn (o : Options) (observed : Bool) (hl : s.world.backend.Holds items)
    (hroom : s.world.backend.last.toNat + 0x40 < 2 ^ 64) (c : RawCall) :
    let next := s.step (host o observed) (.raw c)
    ∃ new items' call, Turn s.world.backend items c next.1 next.2.world.backend new items' ∧
      next.2.world.trace = s.world.trace ++ [call] ∧
      call.allocations = (entriesOf new).length := by
  cases c with
  | parse source slot =>
    obtain ⟨new, hturn, hcall⟩ := parse_turn hl hroom o source slot
    exact ⟨new, _, _, hturn, rfl, hcall⟩
  | evaluate book i dump slot =>
    obtain ⟨new, hturn, hcall⟩ := evaluate_turn hl hroom o i dump slot
    exact ⟨new, _, _, hturn, rfl, hcall⟩
  | serialize book slot =>
    obtain ⟨new, hturn, hcall⟩ := serialize_turn hl hroom o slot
    exact ⟨new, _, _, hturn, rfl, hcall⟩
  | freeBook p =>
    obtain ⟨items', hturn⟩ := free_turn (c := .freeBook p) (a := .done) hl .freeBook
      (by decide) rfl rfl rfl (fun _ => rfl) rfl
    exact ⟨[], items', _, hturn, rfl, rfl⟩
  | freeEvaluation p =>
    obtain ⟨items', hturn⟩ := freeEvaluation_turn (p := p) hl
    exact ⟨[], items', _, hturn, rfl, rfl⟩
  | freeVec p =>
    obtain ⟨items', hturn⟩ := free_turn (c := .freeVec p) (a := .done) hl .freeVec
      (by decide) rfl rfl rfl (fun _ => rfl) rfl
    exact ⟨[], items', _, hturn, rfl, rfl⟩
  | freeText p =>
    obtain ⟨items', hturn⟩ := free_turn (c := .freeText p) (a := .done) hl .freeText
      (by decide) rfl rfl rfl (fun _ => rfl) rfl
    exact ⟨[], items', _, hturn, rfl, rfl⟩
  | vecLength p => exact ⟨[], items, _, vecLength_turn hl, rfl, rfl⟩
  | vecCopy p buffer => exact ⟨[], items, _, vecCopy_turn hl buffer, rfl, rfl⟩
  | readText p => exact ⟨[], items, _, readText_turn hl, rfl, rfl⟩
  | readRecord p => exact ⟨[], items, _, readRecord_turn hl, rfl, rfl⟩

theorem Accounts.step (o : Options) (observed : Bool) (hs : Accounts items s)
    (hfew : allocations s.world.trace < 2 ^ 59) (c : RawCall) :
    let next := s.step (host o observed) (.raw c)
    ∃ new items', Turn s.world.backend items c next.1 next.2.world.backend new items' ∧
      Accounts items' next.2 := by
  have hlast := hs.last_eq
  obtain ⟨new, items', call, hturn, htrace, hcall⟩ :=
    step_turn o observed hs.holds (by omega) c
  refine ⟨new, items', hturn, hturn.holds hs.holds, ?_⟩
  rw [hturn.last_eq, htrace, hlast, allocations_append, allocations_cons, allocations_nil, hcall]
  omega

def calling (e : Engine Ledger) (s : Session Ledger) (calls : List RawCall) : Session Ledger :=
  (s.run e (calls.map .raw)).2

variable {e : Engine Ledger} {calls : List RawCall}

private theorem calling_cons (e : Engine Ledger) (s : Session Ledger) (c : RawCall)
    (calls : List RawCall) :
    calling e s (c :: calls) = calling e (s.step e (.raw c)).2 calls := rfl

private theorem calling_append (e : Engine Ledger) (s : Session Ledger)
    (calls calls' : List RawCall) :
    calling e s (calls ++ calls') = calling e (calling e s calls) calls' := by
  simp [calling, Session.run_append]

private theorem allocations_le_step (e : Engine Ledger) (s : Session Ledger) (c : RawCall) :
    allocations s.world.trace ≤ allocations (s.step e (.raw c)).2.world.trace := by
  obtain ⟨call, htrace⟩ :
      ∃ call, (s.step e (.raw c)).2.world.trace = s.world.trace ++ [call] := by
    cases c <;> exact ⟨_, rfl⟩
  rw [htrace, allocations_append]
  exact Nat.le_add_right _ _

private theorem allocations_le_calling (e : Engine Ledger) (s : Session Ledger)
    (calls : List RawCall) :
    allocations s.world.trace ≤ allocations (calling e s calls).world.trace := by
  induction calls generalizing s with
  | nil => exact Nat.le_refl _
  | cons c calls ih => exact Nat.le_trans (allocations_le_step e s c) (ih _)

private theorem allocations_le_append (e : Engine Ledger) (s : Session Ledger)
    (before after : List RawCall) :
    allocations (calling e s before).world.trace ≤
      allocations (calling e s (before ++ after)).world.trace := by
  rw [calling_append]
  exact allocations_le_calling e (calling e s before) after

/-- The addresses that calls make live, in order. -/
def issued (e : Engine Ledger) : Session Ledger → List RawCall → List Ptr
  | _, [] => []
  | s, c :: calls =>
    let next := (s.step e (.raw c)).2
    s.world.backend.entered next.world.backend ++ issued e next calls

def misuses (e : Engine Ledger) : Session Ledger → List RawCall → Nat
  | _, [] => 0
  | s, c :: calls =>
    (s.world.backend.misusedBy c).toNat + misuses e (s.step e (.raw c)).2 calls

/-- What calls leave behind: addresses in increasing order, and a violation for each misuse. -/
structure Watched (e : Engine Ledger) (s : Session Ledger) (calls : List RawCall) : Prop where
  accounts : ∃ items, Accounts items (calling e s calls)
  later : s.world.backend.Later (calling e s calls).world.backend
  increasing : (issued e s calls).Pairwise fun p q => p.toNat < q.toNat
  above : ∀ p ∈ issued e s calls, s.world.backend.last.toNat < p.toNat
  below : ∀ p ∈ issued e s calls, p.toNat ≤ (calling e s calls).world.backend.last.toNat
  origin : ∀ entry ∈ (calling e s calls).world.backend.live,
    entry ∈ s.world.backend.live ∨ entry.1 ∈ issued e s calls
  recorded : (calling e s calls).world.backend.violations.length =
    s.world.backend.violations.length + misuses e s calls

private theorem Turn.length_violations {items' : List Item} (h : Turn l items c a l' new items') :
    l'.violations.length = l.violations.length + (l.misusedBy c).toNat := by
  cases hc : l.misusedBy c with
  | false => rw [h.violations_of_not_misused hc]; rfl
  | true =>
    obtain ⟨v, hv⟩ := h.violations_of_misused hc
    simp [hv]

private theorem Ledger.Sound.le_of_mem_entered (hl : l'.Sound) (hp : p ∈ l.entered l') :
    p.toNat ≤ l'.last.toNat := by
  obtain ⟨⟨b, hmem⟩, -⟩ := mem_entered.1 hp
  exact hl.bounded _ hmem

theorem Accounts.watched (o : Options) (observed : Bool) {s : Session Ledger}
    (hs : Accounts items s)
    (hfew : allocations (calling (host o observed) s calls).world.trace < 2 ^ 59) :
    Watched (host o observed) s calls := by
  induction calls generalizing s items with
  | nil =>
    exact ⟨⟨items, hs⟩, .refl _, .nil, by simp [issued], by simp [issued], fun _ => .inl, rfl⟩
  | cons c calls ih =>
    have hstart := allocations_le_calling (host o observed) s (c :: calls)
    obtain ⟨new, items', hturn, hs'⟩ := hs.step o observed (by omega) c
    have hrest := ih hs' (by rwa [calling_cons] at hfew)
    have hnew := hs'.holds.sound
    refine ⟨hrest.accounts, hturn.later.trans hrest.later, ?_, ?_, ?_, ?_, ?_⟩
    · refine List.pairwise_append.2 ⟨hnew.entered_increasing, hrest.increasing, ?_⟩
      intro p hp q hq
      exact Nat.lt_of_le_of_lt (hnew.le_of_mem_entered hp) (hrest.above q hq)
    · intro p hp
      rcases List.mem_append.1 hp with hp | hp
      · exact hturn.later.lt_of_mem_entered hp
      · exact Nat.lt_of_le_of_lt hturn.later.last_le (hrest.above p hp)
    · intro p hp
      rcases List.mem_append.1 hp with hp | hp
      · exact Nat.le_trans (hnew.le_of_mem_entered hp) hrest.later.last_le
      · exact hrest.below p hp
    · intro entry hmem
      rcases hrest.origin entry hmem with hmem | hissued
      · refine (hturn.later.fresh entry hmem).imp_right fun hlt => ?_
        refine List.mem_append_left _ (mem_entered.2 ⟨⟨entry.2, hmem⟩, fun b hb => ?_⟩)
        exact absurd (hs.holds.sound.bounded _ hb) (Nat.not_le_of_lt hlt)
      · exact .inr (List.mem_append_right _ hissued)
    · rw [calling_cons, hrest.recorded, hturn.length_violations, misuses, Nat.add_assoc]

end Runs

abbrev ledgerAfter (e : Engine Ledger) (calls : List RawCall) : Ledger :=
  (calling e (Session.start {}) calls).world.backend

/-- The answer of an engine to a call that follows others. -/
abbrev answerAfter (e : Engine Ledger) (calls : List RawCall) (c : RawCall) : Answer :=
  ((calling e (Session.start {}) calls).step e (.raw c)).1

/-- What the ledger of a fresh engine tells after calls, and after one more. -/
structure DetectsMisuse (e : Engine Ledger) (calls : List RawCall) : Prop where
  /-- No address is null. -/
  issued_ne_zero : ∀ p ∈ issued e (Session.start {}) calls, p ≠ 0
  /-- No address is handed out twice. -/
  issued_nodup : (issued e (Session.start {}) calls).Nodup
  /-- What is live has been handed out, each address for one thing. -/
  live_issued : ∀ entry ∈ (ledgerAfter e calls).live, entry.1 ∈ issued e (Session.start {}) calls
  live_nodup : ((ledgerAfter e calls).live.map Prod.fst).Nodup
  /-- What a call answers with is handed out by it. -/
  answered : ∀ c, ∀ p ∈ (answerAfter e calls c).pointers,
    p ∈ (ledgerAfter e calls).entered (ledgerAfter e (calls ++ [c]))
  /-- Records own their texts. -/
  owned : (ledgerAfter e calls).Owned
  /-- A record that is released takes its texts with it, and nothing else. -/
  freed : ∀ p record, (p, .evaluation record) ∈ (ledgerAfter e calls).live →
    (ledgerAfter e (calls ++ [.freeEvaluation p])).live =
        (ledgerAfter e calls).live.filter
          (fun entry => !([p, record.result, record.memDump].contains entry.1)) ∧
      (ledgerAfter e (calls ++ [.freeEvaluation p])).live.length + 3 =
        (ledgerAfter e calls).live.length
  /-- A call that is no misuse strikes off just what it gives up, and enters something only if it
  makes something. -/
  effect : ∀ c, (ledgerAfter e calls).misusedBy c = false →
    ∃ made, (ledgerAfter e (calls ++ [c])).live = (ledgerAfter e calls).keptBy c ++ made ∧
      (c.makes = false → made = [])
  /-- A live text is read up to its terminator. -/
  read : ∀ q data,
    (q, .text data) ∈ (ledgerAfter e calls).live ∨
      (q, .recordText data) ∈ (ledgerAfter e calls).live →
    ∃ s rest, data = s ++ 0 :: rest ∧ 0 ∉ s ∧
      answerAfter e calls (.readText q) = .readText (some s)
  /-- A misuse is one violation, and nothing else is any. -/
  recorded : ∀ c,
    if (ledgerAfter e calls).misusedBy c then
      ∃ v, (ledgerAfter e (calls ++ [c])).violations = (ledgerAfter e calls).violations ++ [v]
    else (ledgerAfter e (calls ++ [c])).violations = (ledgerAfter e calls).violations
  /-- A misuse leaves what is live as it is, but for the text that says that there is no book. -/
  harmless : ∀ c, (ledgerAfter e calls).misusedBy c = true →
    (ledgerAfter e (calls ++ [c])).live = (ledgerAfter e calls).live ++
        (answerAfter e calls c).pointers.map
          (fun p => (p, .text (Bytes.ofString "invalid book pointer" ++ [0]))) ∧
      (c.makesFromBook = false →
        (ledgerAfter e (calls ++ [c])).live = (ledgerAfter e calls).live)
  /-- There are as many violations as there were misuses. -/
  counted : (ledgerAfter e calls).violations.length = misuses e (Session.start {}) calls
  /-- To name an address that is live with another kind is a misuse. -/
  wrongKind : ∀ c p a, c.address? = some p → (p, a) ∈ (ledgerAfter e calls).live →
    a.resource? ∉ c.wanted → (ledgerAfter e calls).misusedBy c = true
  /-- To name an address again that a call has given up, to release it or to use it, is a misuse. -/
  stale : ∀ before c after, calls = before ++ c :: after →
    (ledgerAfter e before).misusedBy c = false → ∀ p ∈ (ledgerAfter e before).givenUpBy c,
      ∀ c', c'.address? = some p → (ledgerAfter e calls).misusedBy c' = true
  /-- Once an address is released, every call that names it is a misuse. -/
  gone : ∀ before after, calls = before ++ after →
    ∀ p ∈ issued e (Session.start {}) before, (∀ a, (p, a) ∉ (ledgerAfter e before).live) →
      ∀ c, c.address? = some p → (ledgerAfter e calls).misusedBy c = true

private theorem Ledger.Holds.givenUp_live (hl : l.Holds items) (hc : l.misusedBy c = false)
    (hp : p ∈ l.givenUpBy c) : ∃ b, (p, b) ∈ l.live := by
  have hnamed (hq : c.address? = some p) : ∃ b, (p, b) ∈ l.live := by
    by_contra hnone
    rw [misusedBy_of_not_live hq (not_exists.1 hnone)] at hc
    cases hc
  cases c with
  | freeBook q => exact hnamed (by rw [List.mem_singleton.1 hp]; rfl)
  | freeVec q => exact hnamed (by rw [List.mem_singleton.1 hp]; rfl)
  | freeText q => exact hnamed (by rw [List.mem_singleton.1 hp]; rfl)
  | freeEvaluation q =>
    simp only [givenUpBy] at hp
    split at hp
    next record hfind =>
      have hmem := hl.sound.find?_eq_some_iff.1 hfind
      obtain ⟨⟨result, hresult⟩, ⟨memDump, hdump⟩, -⟩ := hl.owned.texts q record hmem
      simp only [List.mem_cons, List.not_mem_nil, or_false] at hp
      rcases hp with rfl | rfl | rfl
      · exact ⟨_, hmem⟩
      · exact ⟨_, hresult⟩
      · exact ⟨_, hdump⟩
    next => exact hnamed (by rw [List.mem_singleton.1 hp]; rfl)
  | _ => cases hp

private theorem Turn.not_live_of_givenUp {items' : List Item} (h : Turn l items c a l' new items')
    (hc : l.misusedBy c = false) (hp : p ∈ l.givenUpBy c) (b : Allocation) :
    (p, b) ∉ l'.live := by
  have hmakes : c.makes = false := by
    cases c <;> first | rfl | cases hp
  obtain ⟨made, hlive, hmade⟩ := h.live_of_not_misused hc
  rw [hlive, hmade hmakes, List.append_nil, keptBy, List.mem_filter]
  simp [hp]

theorem Ledger.Holds.read (hl : l.Holds items) {data : Bytes}
    (hmem : (p, .text data) ∈ l.live ∨ (p, .recordText data) ∈ l.live) :
    ∃ s rest, data = s ++ 0 :: rest ∧ 0 ∉ s ∧ (readText p l).value = some s := by
  obtain ⟨s, rest, hdata, hs⟩ := List.eq_append_cons_of_mem (hl.owned.ended p data hmem)
  have htext : data.takeWhile (· != 0) = s := by
    have hne : ∀ b ∈ s, (b != 0) = true := by
      rintro b hb
      simpa using ne_of_mem_of_not_mem hb hs
    rw [hdata, List.takeWhile_append_of_pos hne]
    simp
  refine ⟨s, rest, hdata, hs, ?_⟩
  rcases hmem with hmem | hmem <;> simp [readText, hl.sound.find? hmem, htext]

private theorem ledgerAfter_concat (e : Engine Ledger) (calls : List RawCall) (c : RawCall) :
    ledgerAfter e (calls ++ [c]) =
      ((calling e (Session.start {}) calls).step e (.raw c)).2.world.backend :=
  congrArg (·.world.backend) (calling_append ..)

private theorem not_live_after (o : Options) (observed : Bool) {before after : List RawCall}
    (hfew : allocations (calling (host o observed) (Session.start {})
      (before ++ after)).world.trace < 2 ^ 59)
    (hp : p.toNat ≤ (ledgerAfter (host o observed) before).last.toNat)
    (hgone : ∀ b, (p, b) ∉ (ledgerAfter (host o observed) before).live) (b : Allocation) :
    (p, b) ∉ (ledgerAfter (host o observed) (before ++ after)).live := by
  have hbefore := allocations_le_append (host o observed) (Session.start {}) before after
  have hwatched : Watched (host o observed) (Session.start {}) before :=
    accounts_start.watched o observed (by omega)
  obtain ⟨held, hheld⟩ := hwatched.accounts
  rw [calling_append] at hfew
  rw [ledgerAfter, calling_append]
  exact (hheld.watched o observed hfew).later.not_live hp hgone b

private theorem not_live_after_givenUp (o : Options) (observed : Bool)
    {before after : List RawCall}
    (hfew : allocations (calling (host o observed) (Session.start {})
      (before ++ c :: after)).world.trace < 2 ^ 59)
    (hc : (ledgerAfter (host o observed) before).misusedBy c = false)
    (hp : p ∈ (ledgerAfter (host o observed) before).givenUpBy c) (b : Allocation) :
    (p, b) ∉ (ledgerAfter (host o observed) (before ++ c :: after)).live := by
  have hbefore := allocations_le_append (host o observed) (Session.start {}) before (c :: after)
  have hwatched : Watched (host o observed) (Session.start {}) before :=
    accounts_start.watched o observed (by omega)
  obtain ⟨held, hheld⟩ := hwatched.accounts
  obtain ⟨new, held', hturn, -⟩ := hheld.step o observed (by omega) c
  rw [← ledgerAfter_concat] at hturn
  -- what is given up was live, so its address has been handed out
  obtain ⟨b', hmem⟩ := hheld.holds.givenUp_live hc hp
  have hbound := Nat.le_trans (hheld.holds.sound.bounded _ hmem) hturn.later.last_le
  rw [List.append_cons] at hfew ⊢
  exact not_live_after o observed hfew hbound (hturn.not_live_of_givenUp hc hp) b

/-- The simulated engine detects every misuse of its boundary, whatever it is called with. -/
theorem misuse_detected (o : Options) (observed : Bool) (calls : List RawCall)
    (hfew : allocations
      (calling (host o observed) (Session.start {}) calls).world.trace < 2 ^ 59) :
    DetectsMisuse (host o observed) calls := by
  have hwatched := accounts_start.watched o observed hfew
  obtain ⟨items, hitems⟩ := hwatched.accounts
  have hnext (c : RawCall) : ∃ new items', Turn (ledgerAfter (host o observed) calls) items c
      (answerAfter (host o observed) calls c) (ledgerAfter (host o observed) (calls ++ [c])) new
      items' := by
    obtain ⟨new, items', hturn, -⟩ := hitems.step o observed hfew c
    exact ⟨new, items', by rwa [ledgerAfter_concat]⟩
  exact {
    issued_ne_zero := by
      rintro p hp rfl
      exact absurd (hwatched.above 0 hp) (by simp)
    issued_nodup := hwatched.increasing.imp fun hlt heq => by
      rw [heq] at hlt
      exact Nat.lt_irrefl _ hlt
    live_issued := fun entry hmem => (hwatched.origin entry hmem).resolve_left nofun
    live_nodup := hitems.holds.sound.nodup
    answered := by
      intro c p hp
      obtain ⟨new, items', hturn⟩ := hnext c
      exact hturn.pointers_entered hp
    owned := hitems.holds.owned
    freed := by
      intro p record hmem
      rw [ledgerAfter_concat]
      exact hitems.holds.freed hmem
    effect := by
      intro c hc
      obtain ⟨new, items', hturn⟩ := hnext c
      exact hturn.live_of_not_misused hc
    read := by
      intro q data hmem
      obtain ⟨s, rest, hdata, hs, hread⟩ := hitems.holds.read hmem
      exact ⟨s, rest, hdata, hs, congrArg Answer.readText hread⟩
    recorded := by
      intro c
      obtain ⟨new, items', hturn⟩ := hnext c
      split
      · exact hturn.violations_of_misused ‹_›
      · exact hturn.violations_of_not_misused (Bool.not_eq_true _ ▸ ‹_›)
    harmless := by
      intro c hc
      obtain ⟨new, items', hturn⟩ := hnext c
      exact hturn.live_of_misused hc
    counted := by
      rw [ledgerAfter, hwatched.recorded]
      simp [Session.start]
    wrongKind := by
      intro c p a hc hmem hkind
      simp [hitems.holds.sound.misusedBy_of_mem hc hmem, hkind]
    stale := by
      rintro before c after rfl hc p hp c' hc'
      exact misusedBy_of_not_live hc' (not_live_after_givenUp o observed hfew hc hp)
    gone := by
      rintro before after rfl p hp hgone c hc
      have hbefore := allocations_le_append (host o observed) (Session.start {}) before after
      have hwatched : Watched (host o observed) (Session.start {}) before :=
        accounts_start.watched o observed (by omega)
      exact misusedBy_of_not_live hc (not_live_after o observed hfew (hwatched.below p hp) hgone) }

/-- A caller that releases a record twice, releases a text that a record owns, evaluates a vector,
and copies a vector into a buffer that is too small. -/
theorem misuse_detected_hostile :
    let calls : List RawCall := [.parse "@main = 1" 0, .evaluate 0x1010 .rust 1 0,
      .freeText 0x1020, .readText 0x1020, .freeEvaluation 0x1040, .freeEvaluation 0x1040,
      .readText 0x1020, .serialize 0x1010 0, .evaluate 0x1050 .rust 0 0, .vecCopy 0x1050 [],
      .freeVec 0x1050, .freeBook 0x1010, .freeBook 0x1010, .freeText 0, .freeText 0x1060]
    let e := host {} true
    allocations (calling e (Session.start {}) calls).world.trace < 2 ^ 59 ∧
      issued e (Session.start {}) calls = [0x1010, 0x1020, 0x1030, 0x1040, 0x1050, 0x1060] ∧
      misuses e (Session.start {}) calls = 7 ∧ DetectsMisuse e calls :=
  ⟨by decide, by decide, by decide, misuse_detected _ _ _ (by decide)⟩

end Simulator

end EngineHost
