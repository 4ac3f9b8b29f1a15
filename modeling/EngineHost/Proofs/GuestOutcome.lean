import EngineHost.Proofs.GuestAnswers
import EngineHost.Proofs.GuestMemory
import EngineHost.Proofs.GuestSession

/-!
# Outcomes over a guest

Whatever a guest does, a parse gives a book exactly if each step through the guest succeeds, and
every other parse is an error of the engine; an evaluation gives a result likewise. When the guest
traps, the error carries the message about it, provided the guest spares it while the host gives the
rest back. From a memory of `2 ^ 32` bytes no message can be read.
-/

namespace EngineHost.Guest

variable {γ : Type} {m : Machine γ} {i j j' : Instance γ} {data : Bytes} {addr slot : UInt32}
  {message : Bytes} {f : Export} {args : UInt32 → List UInt64}

def giveBack (m : Machine γ) (b : Block) (i : Instance γ) : Instance γ :=
  (invoke m .deallocate [b.addr.toUInt64, b.size.toUInt64] i).2

/-- Giving one block back spares another: the memory does not become smaller, and the bytes of the
other block are not written over. -/
structure Spares (m : Machine γ) (i : Instance γ) (given kept : Block) : Prop where
  larger : i.memory.bytes.length ≤ (giveBack m given i).memory.bytes.length
  untouched : ∀ k, kept.addr.toNat ≤ k → k < kept.addr.toNat + kept.size.toNat →
    (giveBack m given i).memory.bytes[k]? = i.memory.bytes[k]?

theorem Spares.read? {given kept : Block} (h : Spares m i given kept)
    (hread : i.memory.read? kept.addr kept.size.toNat = some data) :
    (giveBack m given i).memory.read? kept.addr kept.size.toNat = some data := by
  have hinside := Memory.inside_of_read? hread
  rw [Memory.read?_congr hinside (hinside.trans h.larger) h.untouched, hread]

/-- The guest and its memory are the same, whatever the host has noted. -/
structure SameGuest (i j : Instance γ) : Prop where
  guest : i.guest = j.guest
  memory : i.memory = j.memory

namespace SameGuest

theorem foldl_apply (maxLog : UInt32) (effects : List Effect) (h : SameGuest i j) :
    SameGuest (effects.foldl (Instance.apply maxLog) i)
      (effects.foldl (Instance.apply maxLog) j) := by
  induction effects generalizing i j with
  | nil => exact h
  | cons effect effects ih =>
    apply ih
    cases effect with
    | store addr data => exact ⟨h.guest, by simp only [Instance.apply, h.memory]⟩
    | replace data => exact ⟨h.guest, rfl⟩
    | print text => exact ⟨h.guest, h.memory⟩
    | log word => exact ⟨h.guest, h.memory⟩

private theorem giveBack (b : Block) (h : SameGuest i j) :
    SameGuest (giveBack m b i) (giveBack m b j) := by
  simp only [Guest.giveBack, invoke, h.guest, h.memory]
  generalize m.run .deallocate [b.addr.toUInt64, b.size.toUInt64] j.guest j.memory = r
  have hsame := foldl_apply m.maxLog r.effects
    (i := { i with guest := r.state, memory := j.memory }) (j := { j with guest := r.state })
    ⟨rfl, rfl⟩
  exact ⟨hsame.guest, hsame.memory⟩

theorem deallocate (b : Block) (h : SameGuest i j) :
    SameGuest (deallocate m b.addr b.size i).2 (Guest.giveBack m b j) := by
  obtain ⟨log, hlog⟩ := deallocate_eq m b.addr b.size i
  have hsame := h.giveBack (m := m) b
  rw [hlog]
  exact ⟨hsame.guest, hsame.memory⟩

end SameGuest

/-- The error slot of a call. -/
def slotBlock (slot : UInt32) : Block := ⟨slot, 4⟩

/-- The block of a text with its terminator. -/
def textBlock (addr : UInt32) (text : Bytes) : Block := ⟨addr, UInt32.ofNat (text.length + 1)⟩

private theorem PlacesText.toNat_size (h : PlacesText m message j addr j') :
    (textBlock addr message).size.toNat = message.length + 1 := by
  have hlength := h.length_le
  simp only [textBlock, UInt32.toNat_ofNat']
  omega

theorem Traps.placed (h : Traps m f args j slot message addr j') :
    ∃ i₂, PlacesText m message i₂ addr j' := by
  obtain ⟨i₁, i₂, trap, -, -, -, hplaces⟩ := h.failed
  exact ⟨i₂, hplaces⟩

theorem Traps.addr_ne_zero (h : Traps m f args j slot message addr j') : addr ≠ 0 := by
  obtain ⟨i₂, hplaces⟩ := h.placed
  exact hplaces.addr_ne_zero

theorem Traps.read? (h : Traps m f args j slot message addr j') :
    j'.memory.read? addr (textBlock addr message).size.toNat = some (message ++ [0]) := by
  obtain ⟨i₂, hplaces⟩ := h.placed
  rw [hplaces.toNat_size]
  obtain ⟨memory, hwrite, rfl⟩ := hplaces.written
  simpa using Memory.read?_of_write? hwrite

/-- What the host makes of a message that still stands in a memory. -/
structure MessageRead (memory : Memory) (addr : UInt32) (message : Bytes) : Prop where
  told : memory.bytes.length < 2 ^ 32 →
    decodedText (memory.readText? addr) = Utf8.repair (message.takeWhile (· != 0))
  lost : memory.bytes.length = 2 ^ 32 → decodedText (memory.readText? addr) = []

private theorem Traps.messageRead (h : Traps m f args j slot message addr j') {memory : Memory}
    (hread : memory.read? addr (textBlock addr message).size.toNat = some (message ++ [0])) :
    MessageRead memory addr message where
  told hsized := by
    obtain ⟨i₂, hplaces⟩ := h.placed
    rw [hplaces.toNat_size] at hread
    rw [Memory.readText?_of_read? hread h.addr_ne_zero hsized]
    rfl
  lost hfull := by
    rw [Memory.readText?_full hfull]
    rfl

@[simp] theorem fitsGuest_toUInt64 (addr : UInt32) : fitsGuest addr.toUInt64 = true := by
  have := addr.toNat_lt
  simp only [fitsGuest, UInt32.toNat_toUInt64, decide_eq_true_eq]
  omega

private theorem readText_value (m : Machine γ) (addr : UInt32) (j : Instance γ) :
    ((boundary m).readText addr.toUInt64 j).value = j.memory.readText? addr := by
  simp only [boundary, reply, readText, fitsGuest_toUInt64, guestAddress,
    UInt32.toUInt32_toUInt64]
  rfl

private theorem readRecord_value (m : Machine γ) (addr : UInt32) (j : Instance γ) :
    ((boundary m).readRecord addr.toUInt64 j).value = j.memory.readRecord? addr := by
  simp only [boundary, reply, readRecord, fitsGuest_toUInt64, guestAddress,
    UInt32.toUInt32_toUInt64]
  rfl

theorem Accepts.unique {source : Bytes} {book book' : UInt32} (h : Accepts m source i book)
    (h' : Accepts m source i book') : book = book' := by
  obtain ⟨copy, i₁, slot, i', hplaces, hanswers⟩ := h
  obtain ⟨copy', i₂, slot', i'', hplaces', hanswers'⟩ := h'
  obtain ⟨rfl, rfl⟩ := hplaces.toPlaces.unique hplaces'.toPlaces
  exact (hanswers.unique hanswers').1

section Parse

variable (m : Machine γ) (observed : Bool) (w : World (Instance γ)) (source : Bytes)

structure ParseTold : Prop where
  /-- A book is made exactly if the guest accepts the text, and it is the one that the guest
  made. -/
  made_iff : ∀ b, ((host m observed).parse source w).1 = .ok b ↔
    ∃ book, Accepts m source w.backend book ∧ b = ⟨book.toUInt64⟩
  /-- Every other parse is an error of the engine. -/
  refused : (∀ book, ¬Accepts m source w.backend book) →
    ∃ text, ((host m observed).parse source w).1 = .error (.interop "book_parse" text)
  /-- The error of a trap tells what is known about it, if the guest spares the message while its
  slot and the copy of the text go back. From a memory of `2 ^ 32` bytes nothing is told. -/
  trapped : ∀ copy i₁ slot message addr i', PlacesText m source w.backend copy i₁ →
    Traps m .bookParse (fun slot => [copy.toUInt64, slot.toUInt64]) i₁ slot message addr i' →
    Spares m i' (slotBlock slot) (textBlock addr message) →
    Spares m (giveBack m (slotBlock slot) i') (textBlock copy source) (textBlock addr message) →
    let last := (giveBack m (textBlock copy source) (giveBack m (slotBlock slot) i')).memory
    (last.bytes.length < 2 ^ 32 → ((host m observed).parse source w).1 =
      .error (.interop "book_parse" (Utf8.repair (message.takeWhile (· != 0))))) ∧
    (last.bytes.length = 2 ^ 32 →
      ((host m observed).parse source w).1 = .error (.interop "book_parse" []))

private theorem parse_refused
    (h : (bookParse m source w.backend).1.ptr = 0 ∨ (bookParse m source w.backend).1.slot ≠ 0) :
    ∃ text, ((host m observed).parse source w).1 = .error (.interop "book_parse" text) := by
  rcases hmade : (bookParse m source w.backend).1 with ⟨p, v⟩
  rw [hmade] at h
  by_cases hv : v = 0
  · obtain rfl : p = 0 := h.resolve_right (not_not_intro hv)
    subst hv
    exact ⟨_, (Engine.runs_parse_nothing (e := host m observed) hmade w rfl).1⟩
  · exact ⟨_, (Engine.runs_parse_refused (e := host m observed) hmade hv w rfl).1⟩

private theorem parse_told : ParseTold m observed w source where
  made_iff b := by
    rcases bookParse_cases m source w.backend with ⟨book, haccepts, hmade⟩ | ⟨hrefused, hnone⟩
    · have hparse : ((host m observed).parse source w).1 = .ok ⟨book.toUInt64⟩ := by
        obtain ⟨addr, i₁, slot, i', -, hanswers⟩ := haccepts
        exact (Engine.runs_parse_made (e := host m observed) hmade
          (toUInt64_ne_zero hanswers.addr_ne_zero) w rfl).1
      rw [hparse]
      constructor
      · rintro h
        exact ⟨book, haccepts, (Except.ok.inj h).symm⟩
      · rintro ⟨book', haccepts', rfl⟩
        rw [haccepts.unique haccepts']
    · obtain ⟨text, hparse⟩ := parse_refused m observed w source hrefused
      simp [hparse, hnone]
  refused hnone := by
    rcases bookParse_cases m source w.backend with ⟨book, haccepts, -⟩ | ⟨hrefused, -⟩
    · exact absurd haccepts (hnone book)
    · exact parse_refused m observed w source hrefused
  trapped copy i₁ slot message addr i' hplaces htraps hslot hcopy := by
    intro last
    obtain ⟨texts, log, hparse⟩ := bookParse_trapped hplaces htraps
    have hread := htraps.messageRead (hcopy.read? (hslot.read? htraps.read?))
    have hsame : SameGuest (bookParse m source w.backend).2
        (giveBack m (textBlock copy source) (giveBack m (slotBlock slot) i')) := by
      have hnoted : SameGuest { i' with hostTexts := texts, log := log } i' := ⟨rfl, rfl⟩
      rw [hparse]
      exact (hnoted.deallocate (slotBlock slot)).deallocate (textBlock copy source)
    have hmade : ((host m observed).boundary.parse source 0 w.backend).value =
        ⟨0, addr.toUInt64⟩ := congrArg Prod.fst hparse
    have hdecoded : decodedText ((boundary m).readText addr.toUInt64
        ((host m observed).boundary.parse source 0 w.backend).state).value =
          decodedText (last.readText? addr) := by
      have hmemory : ((host m observed).boundary.parse source 0 w.backend).state.memory = last :=
        hsame.memory
      rw [readText_value, hmemory]
    rw [(Engine.runs_parse_refused (e := host m observed) hmade
      (toUInt64_ne_zero htraps.addr_ne_zero) w rfl).1, hdecoded]
    exact ⟨fun hsized => by rw [hread.told hsized], fun hfull => by rw [hread.lost hfull]⟩

end Parse

section Evaluate

variable (m : Machine γ) (observed : Bool) (w : World (Instance γ)) (book : Ptr)
  (options : EvaluateOptions)

def evaluateArgs (slot : UInt32) : List UInt64 :=
  [(guestAddress book).toUInt64, options.interpreter.code.toUInt64, options.dump.toUInt64,
    slot.toUInt64]

/-- The record of an evaluation as it stands once the error slot has been given back. -/
def recordAt? (slot addr : UInt32) (i : Instance γ) : Option Record :=
  (invoke m .deallocate [slot.toUInt64, 4] i).2.memory.readRecord? addr

structure EvaluateTold : Prop where
  /-- There is a result exactly if the guest answers with a record that can be read. -/
  done_iff : (∃ v, ((host m observed).evaluate ⟨book⟩ options w).1 = .ok v) ↔
    ∃ slot addr i' record,
      Answers m .bookEvaluate (evaluateArgs book options) w.backend slot addr i' ∧
        recordAt? m slot addr i' = some record
  /-- A record that cannot be read is no error of the engine. -/
  unreadable : ∀ slot addr i',
    Answers m .bookEvaluate (evaluateArgs book options) w.backend slot addr i' →
    recordAt? m slot addr i' = none →
    ∃ text, ((host m observed).evaluate ⟨book⟩ options w).1 = .error (.plain text)
  /-- Every other evaluation is an error of the engine. -/
  refused : (∀ slot addr i',
      ¬Answers m .bookEvaluate (evaluateArgs book options) w.backend slot addr i') →
    ∃ text, ((host m observed).evaluate ⟨book⟩ options w).1 =
      .error (.interop "book_evaluate" text)
  /-- The error of a trap tells what is known about it, as for a parse. -/
  trapped : ∀ slot message addr i',
    Traps m .bookEvaluate (evaluateArgs book options) w.backend slot message addr i' →
    Spares m i' (slotBlock slot) (textBlock addr message) →
    let last := (giveBack m (slotBlock slot) i').memory
    (last.bytes.length < 2 ^ 32 → ((host m observed).evaluate ⟨book⟩ options w).1 =
      .error (.interop "book_evaluate" (Utf8.repair (message.takeWhile (· != 0))))) ∧
    (last.bytes.length = 2 ^ 32 →
      ((host m observed).evaluate ⟨book⟩ options w).1 = .error (.interop "book_evaluate" []))

variable {book}

private theorem evaluate_refused (hb : book ≠ 0)
    (h : (bookEvaluate m book options.interpreter options.dump w.backend).1.ptr = 0 ∨
      (bookEvaluate m book options.interpreter options.dump w.backend).1.slot ≠ 0) :
    ∃ text, ((host m observed).evaluate ⟨book⟩ options w).1 =
      .error (.interop "book_evaluate" text) := by
  rcases hmade : (bookEvaluate m book options.interpreter options.dump w.backend).1 with ⟨p, v⟩
  rw [hmade] at h
  by_cases hv : v = 0
  · obtain rfl : p = 0 := h.resolve_right (not_not_intro hv)
    subst hv
    exact ⟨_, (Engine.runs_evaluate (e := host m observed) hb hmade
      (Engine.runs_evaluationOf_nothing _) w rfl).1⟩
  · exact ⟨_, (Engine.runs_evaluate (e := host m observed) hb hmade
      (Engine.runs_evaluationOf_refused p hv _) w rfl).1⟩

/-- An evaluation that makes a record has a result exactly if the record can be read. -/
theorem evaluate_answered (hb : book ≠ 0) {slot addr : UInt32} {i' : Instance γ}
    (hanswers : Answers m .bookEvaluate (evaluateArgs book options) w.backend slot addr i') :
    match recordAt? m slot addr i' with
    | some _ => ∃ v, ((host m observed).evaluate ⟨book⟩ options w).1 = .ok v
    | none => ∃ text, ((host m observed).evaluate ⟨book⟩ options w).1 = .error (.plain text) := by
  have hslot := hanswers.withSlot_eq
  have hmade : ((host m observed).boundary.evaluate book options.interpreter options.dump 0
      w.backend).value = ⟨addr.toUInt64, 0⟩ := congrArg Prod.fst hslot
  have hp := toUInt64_ne_zero hanswers.addr_ne_zero
  have hread : ((boundary m).readRecord addr.toUInt64 ((host m observed).boundary.evaluate book
      options.interpreter options.dump 0 w.backend).state).value = recordAt? m slot addr i' := by
    have hmemory : ((host m observed).boundary.evaluate book options.interpreter options.dump 0
        w.backend).state.memory = (deallocate m slot 4 i').2.memory :=
      congrArg (fun r => r.2.memory) hslot
    obtain ⟨log, hlog⟩ := deallocate_eq m slot 4 i'
    rw [readRecord_value, hmemory, hlog]
    rfl
  cases hrecord : recordAt? m slot addr i' with
  | some record =>
    exact ⟨_, (Engine.runs_evaluate (e := host m observed) hb hmade
      (Engine.runs_evaluationOf_made hp (Engine.runs_copyRecord (hread.trans hrecord))) w rfl).1⟩
  | none =>
    exact ⟨_, (Engine.runs_evaluate (e := host m observed) hb hmade
      (Engine.runs_evaluationOf_made hp
        (Engine.runs_copyRecord_unreadable (hread.trans hrecord))) w rfl).1⟩

private theorem evaluate_told (hb : book ≠ 0) : EvaluateTold m observed w book options where
  done_iff := by
    constructor
    · rintro ⟨v, hv⟩
      rcases withSlot_cases m .bookEvaluate (evaluateArgs book options) w.backend with
        ⟨slot, addr, i', hanswers, -⟩ | ⟨hrefused, -⟩
      · have h := evaluate_answered m observed w options hb hanswers
        cases hrecord : recordAt? m slot addr i' with
        | some record => exact ⟨slot, addr, i', record, hanswers, hrecord⟩
        | none =>
          rw [hrecord] at h
          obtain ⟨text, htext⟩ := h
          simp [hv] at htext
      · obtain ⟨text, htext⟩ := evaluate_refused m observed w options hb hrefused
        simp [hv] at htext
    · rintro ⟨slot, addr, i', record, hanswers, hrecord⟩
      have h := evaluate_answered m observed w options hb hanswers
      rwa [hrecord] at h
  unreadable slot addr i' hanswers hnone := by
    have h := evaluate_answered m observed w options hb hanswers
    rwa [hnone] at h
  refused hnone := by
    rcases withSlot_cases m .bookEvaluate (evaluateArgs book options) w.backend with
      ⟨slot, addr, i', hanswers, -⟩ | ⟨hrefused, -⟩
    · exact absurd hanswers (hnone _ _ _)
    · exact evaluate_refused m observed w options hb hrefused
  trapped slot message addr i' htraps hspares := by
    intro last
    obtain ⟨texts, log, hslot⟩ := withSlot_trapped htraps
    have hread := htraps.messageRead (hspares.read? htraps.read?)
    have hsame : SameGuest
        (withSlot m (fun slot => invoke m .bookEvaluate (evaluateArgs book options slot))
          w.backend).2 (giveBack m (slotBlock slot) i') := by
      have hnoted : SameGuest { i' with hostTexts := texts, log := log } i' := ⟨rfl, rfl⟩
      rw [hslot]
      exact hnoted.deallocate (slotBlock slot)
    have hmade : ((host m observed).boundary.evaluate book options.interpreter options.dump 0
        w.backend).value = ⟨0, addr.toUInt64⟩ := congrArg Prod.fst hslot
    have hdecoded : decodedText ((boundary m).readText addr.toUInt64
        ((host m observed).boundary.evaluate book options.interpreter options.dump 0
          w.backend).state).value = decodedText (last.readText? addr) := by
      have hmemory : ((host m observed).boundary.evaluate book options.interpreter options.dump 0
          w.backend).state.memory = last := hsame.memory
      rw [readText_value, hmemory]
    rw [(Engine.runs_evaluate (e := host m observed) hb hmade (Engine.runs_evaluationOf_refused 0
      (toUInt64_ne_zero htraps.addr_ne_zero) _) w rfl).1, hdecoded]
    exact ⟨fun hsized => by rw [hread.told hsized]; rfl, fun hfull => by rw [hread.lost hfull]; rfl⟩

end Evaluate

/-- As long as the memory does not become smaller, the slot of an answer holds zero. -/
theorem Answers.slot_eq_zero {i' : Instance γ} (h : Answers m f args i slot addr i')
    (hmemory : ∀ i₁, Readies m i slot i₁ →
      i₁.memory.bytes.length ≤ i'.memory.bytes.length) :
    i'.memory.readWord? slot = some 0 := by
  obtain ⟨i₁, result, hready, -, -⟩ := h.returned
  refine h.clear.resolve_right fun hshort => ?_
  have hlarger := hmemory i₁ hready
  obtain ⟨i₀, hplaces, rfl⟩ := hready.placed
  obtain ⟨memory, hwrite, rfl⟩ := hplaces.written
  have hinside := Memory.holds_of_write? hwrite
  have hlength := Memory.length_of_write? hwrite
  have hfour : (Bytes.toLittleEndian 4 0).length = 4 := rfl
  dsimp only at hlarger
  omega

/-- Over any guest, the outcome of a parse and of an evaluation of a live book is told by the steps
through the guest. -/
theorem outcomes_told (m : Machine γ) (observed : Bool) (w : World (Instance γ)) :
    (∀ source, ParseTold m observed w source) ∧
    (∀ book options, book ≠ 0 → EvaluateTold m observed w book options) ∧
    ∀ f args i slot addr i', Answers m f args i slot addr i' →
      (∀ i₁, Readies m i slot i₁ → i₁.memory.bytes.length ≤ i'.memory.bytes.length) →
      i'.memory.readWord? slot = some 0 :=
  ⟨fun source => parse_told m observed w source,
    fun _ options hb => evaluate_told m observed w options hb,
    fun _ _ _ _ _ _ hanswers => hanswers.slot_eq_zero⟩

/-- A guest that reserves piece after piece, and prints and traps at a text that starts with an
exclamation mark. -/
def brittle : Machine UInt64 where
  run
    | .allocate, _, next, _ => { outcome := .ok [next], state := next + 32 }
    | .bookParse, [source, _], next, memory =>
      if memory.read? source.toUInt32 1 = some [33] then
        { effects := [.print " oops\n"], outcome := .error "unreachable", state := next }
      else { outcome := .ok [8], state := next }
    | _, _, next, _ => { outcome := .ok [8], state := next }

private theorem giveBack_brittle (b : Block) (i : Instance UInt64) :
    (giveBack brittle b i).memory = i.memory := rfl

private theorem brittle_spares (i : Instance UInt64) (given kept : Block) :
    Spares brittle i given kept :=
  ⟨by rw [giveBack_brittle], fun _ _ _ => by rw [giveBack_brittle]⟩

def brittleStart (memory : Memory) : World (Instance UInt64) :=
  { backend := fresh 32 memory { limit := 16 } false }

/-- A parse that traps: the copy of the text stands at 32, the error slot at 64 and the message
at 96. -/
theorem brittle_traps {memory : Memory}
    (hmemory : memory = .ofBytes (List.replicate 160 0) ∨ memory = .filled 65536 0) :
    ∃ i₁ i', PlacesText brittle "!" (brittleStart memory).backend 32 i₁ ∧
      Traps brittle .bookParse (fun slot => [(32 : UInt32).toUInt64, slot.toUInt64]) i₁ 64
        "book_parse: unreachable: oops" 96 i' ∧
      i'.memory.bytes.length = memory.bytes.length := by
  let i₁ := (writeText brittle "!" (brittleStart memory).backend).2
  let slot : Bytes := Bytes.toLittleEndian 4 0
  let j := (invoke brittle .allocate [(UInt32.ofNat slot.length).toUInt64] i₁).2
  let placed : Instance UInt64 := { j with memory := j.memory.store 64 slot }
  let ready : Instance UInt64 := { placed with stderr := placed.stderr.reset }
  let i₂ := (invoke brittle .bookParse [32, 64] ready).2
  let i' := (writeText brittle "book_parse: unreachable: oops" i₂).2
  have hcopy : (writeText brittle "!" (brittleStart memory).backend).1 = some (32, 2) := by
    rcases hmemory with rfl | rfl <;> decide +kernel
  have hslot : (invoke brittle .allocate [4] i₁).1 = .ok 64 := by
    rcases hmemory with rfl | rfl <;> decide +kernel
  have hcleared : j.memory.write? 64 slot = some (j.memory.store 64 slot) := by
    rcases hmemory with rfl | rfl <;> decide +kernel
  have htrap : (invoke brittle .bookParse [32, 64] ready).1 = .error "book_parse: unreachable" := by
    rcases hmemory with rfl | rfl <;> decide +kernel
  have hmessage : (writeText brittle "book_parse: unreachable: oops" i₂).1 = some (96, 30) := by
    rcases hmemory with rfl | rfl <;> decide +kernel
  have hexplain : ("book_parse: unreachable: oops" : Bytes) =
      Capture.explain "book_parse: unreachable" i₂.stderr := by
    rcases hmemory with rfl | rfl <;> decide +kernel
  have hlength : i'.memory.length = memory.length := by
    rcases hmemory with rfl | rfl <;> decide +kernel
  have hready : Readies brittle i₁ 64 ready :=
    ⟨placed, ⟨by decide, ⟨64, rfl, hslot⟩, ⟨_, hcleared, rfl⟩⟩, rfl⟩
  refine ⟨i₁, i', placesText_of_writeText hcopy, ⟨ready, i₂, _, hready, Prod.ext htrap rfl,
    hexplain, placesText_of_writeText hmessage⟩, ?_⟩
  rw [Memory.length_bytes, Memory.length_bytes, hlength]

theorem outcomes_told_brittle :
    let w := brittleStart (.ofBytes (List.replicate 160 0))
    (∃ b, ((host brittle true).parse "@main = 1" w).1 = .ok b ∧
      ∃ book, Accepts brittle "@main = 1" w.backend book ∧ b = ⟨book.toUInt64⟩) ∧
    ((host brittle true).parse "!" w).1 =
      .error (.interop "book_parse" "book_parse: unreachable: oops") ∧
    EvaluateTold brittle true w 8 {} := by
  intro w
  obtain ⟨hparse, hevaluate, -⟩ := outcomes_told brittle true w
  refine ⟨?_, ?_, hevaluate 8 {} (by decide)⟩
  · have hsome : ((host brittle true).parse "@main = 1" w).1.toOption.isSome = true := by
      decide +kernel
    cases hb : ((host brittle true).parse "@main = 1" w).1 with
    | error f => simp [hb, Except.toOption] at hsome
    | ok b => exact ⟨b, rfl, ((hparse _).made_iff b).1 hb⟩
  · obtain ⟨i₁, i', hcopy, htraps, hlength⟩ := brittle_traps (.inl rfl)
    have htold := ((hparse "!").trapped _ _ _ _ _ _ hcopy htraps (brittle_spares _ _ _)
      (brittle_spares _ _ _)).1
    rw [giveBack_brittle, giveBack_brittle, hlength, Memory.bytes_ofBytes,
      List.length_replicate] at htold
    have hrepair : Utf8.repair (List.takeWhile (· != 0) "book_parse: unreachable: oops") =
        "book_parse: unreachable: oops" := by
      decide +kernel
    rw [htold (by decide), hrepair]

/-- In a memory of the greatest size the message about a trap is written and spared, and the error
does not carry it. -/
theorem message_lost_brittle :
    let w := brittleStart (.filled 65536 0)
    (∃ i₁ i', PlacesText brittle "!" w.backend 32 i₁ ∧
      Traps brittle .bookParse (fun slot => [(32 : UInt32).toUInt64, slot.toUInt64]) i₁ 64
        "book_parse: unreachable: oops" 96 i' ∧
      Spares brittle i' (slotBlock 64) (textBlock 96 "book_parse: unreachable: oops") ∧
      Spares brittle (giveBack brittle (slotBlock 64) i') (textBlock 32 "!")
        (textBlock 96 "book_parse: unreachable: oops")) ∧
    ((host brittle true).parse "!" w).1 = .error (.interop "book_parse" []) := by
  intro w
  obtain ⟨i₁, i', hcopy, htraps, hlength⟩ := brittle_traps (.inr rfl)
  refine ⟨⟨i₁, i', hcopy, htraps, brittle_spares _ _ _, brittle_spares _ _ _⟩, ?_⟩
  have hlost := ((parse_told brittle true w "!").trapped _ _ _ _ _ _ hcopy htraps
    (brittle_spares _ _ _) (brittle_spares _ _ _)).2
  rw [giveBack_brittle, giveBack_brittle, hlength, Memory.length_bytes] at hlost
  exact hlost (by decide)

end EngineHost.Guest
