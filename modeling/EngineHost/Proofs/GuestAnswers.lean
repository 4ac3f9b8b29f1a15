import EngineHost.Proofs.Conversation
import EngineHost.Guest.Instance
import EngineHost.Proofs.GuestMemory

/-!
# Answers of a guest

A fallible call goes through a guest in steps, each of which may fail: room is reserved for what
the guest reads and for its error slot, both are written, and the function is called. The steps are
given here as relations between states of the module, and the calls of the boundary are computed
from them.
-/

namespace EngineHost.Guest

variable {γ : Type} {m : Machine γ} {i i' i'' : Instance γ} {data : Bytes} {addr addr' : UInt32}

/-- The guest reserves room for data at an address other than null, and the data is written
there. -/
structure Places (m : Machine γ) (data : Bytes) (i : Instance γ) (addr : UInt32)
    (i' : Instance γ) : Prop where
  addr_ne_zero : addr ≠ 0
  reserved : ∃ result : UInt64, result.toUInt32 = addr ∧
    (invoke m .allocate [(UInt32.ofNat data.length).toUInt64] i).1 = .ok result
  written : ∃ memory,
    (invoke m .allocate [(UInt32.ofNat data.length).toUInt64] i).2.memory.write? addr data =
      some memory ∧
    i' = { (invoke m .allocate [(UInt32.ofNat data.length).toUInt64] i).2 with memory }

/-- A text with its terminator is placed; its size is a 32-bit number. -/
structure PlacesText (m : Machine γ) (s : Bytes) (i : Instance γ) (addr : UInt32)
    (i' : Instance γ) : Prop extends Places m (s ++ [0]) i addr i' where
  length_le : s.length + 1 ≤ 2 ^ 32 - 1

/-- A module before a fallible call: its error slot is cleared and nothing is printed. -/
structure Readies (m : Machine γ) (i : Instance γ) (slot : UInt32) (i' : Instance γ) : Prop where
  placed : ∃ i₁, Places m (Bytes.toLittleEndian 4 0) i slot i₁ ∧
    i' = { i₁ with stderr := i₁.stderr.reset }

/-- A function of the guest returns the address of something it has made, and leaves its error slot
clear. The host takes a slot that is no longer inside the memory for a clear one. -/
structure Answers (m : Machine γ) (f : Export) (args : UInt32 → List UInt64) (i : Instance γ)
    (slot addr : UInt32) (i' : Instance γ) : Prop where
  returned : ∃ i₁ result, Readies m i slot i₁ ∧ invoke m f (args slot) i₁ = (.ok result, i') ∧
    result.toUInt32 = addr
  addr_ne_zero : addr ≠ 0
  clear : i'.memory.readWord? slot = some 0 ∨ i'.memory.bytes.length < slot.toNat + 4

/-- A function of the guest fails, and the message about it finds room in the guest's memory. -/
structure Traps (m : Machine γ) (f : Export) (args : UInt32 → List UInt64) (i : Instance γ)
    (slot : UInt32) (message : Bytes) (addr : UInt32) (i' : Instance γ) : Prop where
  failed : ∃ i₁ i₂ trap, Readies m i slot i₁ ∧ invoke m f (args slot) i₁ = (.error trap, i₂) ∧
    message = Capture.explain trap i₂.stderr ∧ PlacesText m message i₂ addr i'

theorem toUInt64_ne_zero {a : UInt32} (h : a ≠ 0) : a.toUInt64 ≠ 0 := by
  simpa [← UInt64.toNat_inj, ← UInt32.toNat_inj] using h

theorem Places.unique (h : Places m data i addr i') (h' : Places m data i addr' i'') :
    addr = addr' ∧ i' = i'' := by
  obtain ⟨result, rfl, hresult⟩ := h.reserved
  obtain ⟨result', rfl, hresult'⟩ := h'.reserved
  obtain rfl := Except.ok.inj (hresult.symm.trans hresult')
  obtain ⟨memory, hwrite, rfl⟩ := h.written
  obtain ⟨memory', hwrite', rfl⟩ := h'.written
  obtain rfl := Option.some.inj (hwrite.symm.trans hwrite')
  exact ⟨rfl, rfl⟩

theorem Readies.unique (h : Readies m i addr i') (h' : Readies m i addr' i'') :
    addr = addr' ∧ i' = i'' := by
  obtain ⟨i₁, hplaced, rfl⟩ := h.placed
  obtain ⟨i₂, hplaced', rfl⟩ := h'.placed
  obtain ⟨rfl, rfl⟩ := hplaced.unique hplaced'
  exact ⟨rfl, rfl⟩

theorem Answers.unique {f : Export} {args : UInt32 → List UInt64} {slot slot' : UInt32}
    (h : Answers m f args i slot addr i') (h' : Answers m f args i slot' addr' i'') :
    addr = addr' ∧ slot = slot' ∧ i' = i'' := by
  obtain ⟨i₁, result, hready, hinvoke, rfl⟩ := h.returned
  obtain ⟨i₂, result', hready', hinvoke', rfl⟩ := h'.returned
  obtain ⟨rfl, rfl⟩ := hready.unique hready'
  cases hinvoke.symm.trans hinvoke'
  exact ⟨rfl, rfl, rfl⟩

section Steps

variable (m : Machine γ) (i : Instance γ)

private theorem allocate_cases (size : UInt32) :
    (∃ result : UInt64, result.toUInt32 ≠ 0 ∧
      (invoke m .allocate [size.toUInt64] i).1 = .ok result ∧
      allocate m size i = (some result.toUInt32, (invoke m .allocate [size.toUInt64] i).2)) ∨
    (allocate m size i).1 = none ∧
      ∀ result, (invoke m .allocate [size.toUInt64] i).1 = .ok result → result.toUInt32 = 0 := by
  rcases hinvoke : invoke m .allocate [size.toUInt64] i with ⟨_ | result, i'⟩
  · refine .inr ⟨?_, by simp⟩
    simp only [allocate, bind, StateT.bind, hinvoke]
    rfl
  · by_cases hzero : result.toUInt32 = 0
    · refine .inr ⟨?_, by simp [hzero]⟩
      simp only [allocate, bind, StateT.bind, hinvoke, hzero, if_true]
      rfl
    · refine .inl ⟨result, hzero, rfl, ?_⟩
      simp only [allocate, bind, StateT.bind, hinvoke, hzero, if_false]
      rfl

private theorem writeText_cases (s : Bytes) :
    (∃ addr i', PlacesText m s i addr i' ∧
      writeText m s i = (some (addr, UInt32.ofNat (s.length + 1)), i')) ∨
    (writeText m s i).1 = none ∧ ∀ addr i', ¬PlacesText m s i addr i' := by
  by_cases hlong : 2 ^ 32 - 1 < s.length + 1
  · refine .inr ⟨?_, fun addr i' h => absurd h.length_le (Nat.not_le_of_lt hlong)⟩
    simp only [writeText, if_pos hlong]
    rfl
  have hlength : (s ++ [0]).length = s.length + 1 := by simp
  simp only [writeText, if_neg hlong]
  rcases allocate_cases m i (UInt32.ofNat (s.length + 1)) with
    ⟨result, hne, hresult, hallocate⟩ | ⟨hallocate, hnone⟩
  · cases hwrite : (allocate m (UInt32.ofNat (s.length + 1)) i).2.memory.write?
        result.toUInt32 (s ++ [0]) with
    | some memory =>
      rw [hallocate] at hwrite
      refine .inl ⟨_, _, ⟨⟨hne, ⟨result, rfl, by rw [hlength]; exact hresult⟩,
        ⟨memory, by rw [hlength]; exact hwrite, rfl⟩⟩, by omega⟩, ?_⟩
      simp only [bind, StateT.bind, hallocate, writeMemory, hwrite, if_true, hlength]
      rfl
    | none =>
      rw [hallocate] at hwrite
      refine .inr ⟨?_, ?_⟩
      · simp only [bind, StateT.bind, hallocate, writeMemory, hwrite]
        rfl
      · rintro addr i' ⟨⟨-, ⟨result', rfl, hresult'⟩, ⟨memory, hwrite', -⟩⟩, -⟩
        rw [hlength] at hresult' hwrite'
        obtain rfl := Except.ok.inj (hresult.symm.trans hresult')
        exact absurd (hwrite.symm.trans hwrite') (by simp)
  · refine .inr ⟨?_, ?_⟩
    · simp only [bind, StateT.bind]
      rw [show allocate m (UInt32.ofNat (s.length + 1)) i = (none, _) from Prod.ext hallocate rfl]
      rfl
    · rintro addr i' ⟨⟨hne, ⟨result, rfl, hresult⟩, -⟩, -⟩
      rw [hlength] at hresult
      exact hne (hnone _ hresult)

/-- A fallible call is made in a ready module, and its slot is given back afterwards. Where the
module is not ready, nothing is made. -/
theorem withSlot_ready_cases :
    (∃ slot i₁, Readies m i slot i₁ ∧ ∀ call, withSlot m call i =
      (((call slot >>= answerOf m slot) i₁).1,
        (deallocate m slot 4 ((call slot >>= answerOf m slot) i₁).2).2)) ∨
    (∀ call, (withSlot m call i).1.ptr = 0) ∧ ∀ slot i', ¬Readies m i slot i' := by
  rcases allocate_cases m i 4 with ⟨result, hne, hresult, hallocate⟩ | ⟨hallocate, hnone⟩
  · cases hwrite : (invoke m .allocate [(4 : UInt32).toUInt64] i).2.memory.write?
        result.toUInt32 (Bytes.toLittleEndian 4 0) with
    | some memory =>
      refine .inl ⟨_, _, ⟨_, ⟨hne, ⟨result, rfl, hresult⟩, ⟨memory, hwrite, rfl⟩⟩, rfl⟩, ?_⟩
      intro call
      simp only [withSlot, inSlot, bind, StateT.bind, hallocate, writeMemory, hwrite]
      rfl
    | none =>
      refine .inr ⟨fun call => ?_, ?_⟩
      · simp only [withSlot, inSlot, bind, StateT.bind, hallocate, writeMemory, hwrite]
        rfl
      · rintro slot i' ⟨i₁, ⟨-, ⟨result', rfl, hresult'⟩, ⟨memory, hwrite', -⟩⟩, -⟩
        obtain rfl := Except.ok.inj (hresult.symm.trans hresult')
        exact absurd (hwrite.symm.trans hwrite') (by simp)
  · refine .inr ⟨fun call => ?_, ?_⟩
    · simp only [withSlot, bind, StateT.bind]
      rw [show allocate m 4 i = (none, _) from Prod.ext hallocate rfl]
      rfl
    · rintro slot i' ⟨i₁, ⟨hne, ⟨result, rfl, hresult⟩, -⟩, -⟩
      exact hne (hnone _ hresult)

end Steps

private theorem Memory.clear_iff {memory : Memory} {slot : UInt32} :
    (memory.readWord? slot).getD 0 = 0 ↔
      memory.readWord? slot = some 0 ∨ memory.bytes.length < slot.toNat + 4 := by
  cases hread : memory.readWord? slot with
  | some word =>
    have hinside : ¬memory.bytes.length < slot.toNat + 4 := by
      intro hshort
      simp [Memory.readWord?, Memory.readNat?, Memory.read?, Memory.holds_iff,
        Nat.not_le_of_lt hshort] at hread
    simp [hinside]
  | none =>
    have hshort : memory.bytes.length < slot.toNat + 4 := by
      refine Nat.lt_of_not_le fun hinside => ?_
      simp [Memory.readWord?, Memory.readNat?, Memory.read?, Memory.holds_iff, hinside] at hread
    simp [hshort]

theorem withSlot_cases (m : Machine γ) (f : Export) (args : UInt32 → List UInt64)
    (i : Instance γ) :
    (∃ slot addr i', Answers m f args i slot addr i' ∧
      withSlot m (fun slot => invoke m f (args slot)) i =
        (⟨addr.toUInt64, 0⟩, (deallocate m slot 4 i').2)) ∨
    ((withSlot m (fun slot => invoke m f (args slot)) i).1.ptr = 0 ∨
      (withSlot m (fun slot => invoke m f (args slot)) i).1.slot ≠ 0) ∧
      ∀ slot addr i', ¬Answers m f args i slot addr i' := by
  rcases withSlot_ready_cases m i with ⟨slot, i₁, hready, hslot⟩ | ⟨hptr, hnone⟩
  · rw [hslot]
    rcases hinvoke : invoke m f (args slot) i₁ with ⟨trap | result, i'⟩
    · refine .inr ⟨.inl ?_, ?_⟩
      · simp only [bind, StateT.bind, hinvoke, answerOf]
        rfl
      · rintro slot' addr i'' ⟨⟨i₂, result, hready', hinvoke', -⟩, -, -⟩
        obtain ⟨rfl, rfl⟩ := hready.unique hready'
        cases hinvoke.symm.trans hinvoke'
    · have hanswer : (invoke m f (args slot) >>= answerOf m slot) i₁ =
          (⟨result.toUInt32.toUInt64, ((i'.memory.readWord? slot).getD 0).toUInt64⟩, i') := by
        simp only [bind, StateT.bind, hinvoke, answerOf]
        rfl
      simp only [hanswer]
      by_cases hmade : result.toUInt32 ≠ 0 ∧ (i'.memory.readWord? slot).getD 0 = 0
      · refine .inl ⟨slot, result.toUInt32, i',
          ⟨⟨i₁, result, hready, hinvoke, rfl⟩, hmade.1, Memory.clear_iff.1 hmade.2⟩, ?_⟩
        rw [hmade.2]
        rfl
      · refine .inr ⟨?_, ?_⟩
        · by_cases hzero : result.toUInt32 = 0
          · exact .inl (by rw [hzero]; rfl)
          · exact .inr (toUInt64_ne_zero fun hclear => hmade ⟨hzero, hclear⟩)
        · rintro slot' addr i'' ⟨⟨i₂, result', hready', hinvoke', rfl⟩, hne, hclear⟩
          obtain ⟨rfl, rfl⟩ := hready.unique hready'
          rw [hinvoke, Prod.mk.injEq, Except.ok.injEq] at hinvoke'
          obtain ⟨rfl, rfl⟩ := hinvoke'
          exact hmade ⟨hne, Memory.clear_iff.2 hclear⟩
  · refine .inr ⟨.inl (hptr _), ?_⟩
    rintro slot addr i' ⟨⟨i₁, result, hready, -, -⟩, -, -⟩
    exact hnone _ _ hready

theorem Answers.withSlot_eq {f : Export} {args : UInt32 → List UInt64} {slot : UInt32}
    (h : Answers m f args i slot addr i') : withSlot m (fun slot => invoke m f (args slot)) i =
      (⟨addr.toUInt64, 0⟩, (deallocate m slot 4 i').2) := by
  rcases withSlot_cases m f args i with ⟨slot', addr', i'', hanswers, hslot⟩ | ⟨-, hnone⟩
  · obtain ⟨rfl, rfl, rfl⟩ := h.unique hanswers
    exact hslot
  · exact absurd h (hnone _ _ _)

/-- A program text is accepted: it is copied into the guest, and the guest makes a book of it. -/
def Accepts (m : Machine γ) (source : Bytes) (i : Instance γ) (book : UInt32) : Prop :=
  ∃ addr i₁ slot i', PlacesText m source i addr i₁ ∧
    Answers m .bookParse (fun slot => [addr.toUInt64, slot.toUInt64]) i₁ slot book i'

theorem bookParse_cases (m : Machine γ) (source : Bytes) (i : Instance γ) :
    (∃ book, Accepts m source i book ∧ (bookParse m source i).1 = ⟨book.toUInt64, 0⟩) ∨
    ((bookParse m source i).1.ptr = 0 ∨ (bookParse m source i).1.slot ≠ 0) ∧
      ∀ book, ¬Accepts m source i book := by
  rcases writeText_cases m i source with ⟨addr, i₁, hplaces, hwrite⟩ | ⟨hwrite, hnone⟩
  · have hparse : (bookParse m source i).1 =
        (withSlot m (fun slot => invoke m .bookParse [addr.toUInt64, slot.toUInt64]) i₁).1 := by
      simp only [bookParse, bind, StateT.bind, hwrite]
      rfl
    rw [hparse]
    rcases withSlot_cases m .bookParse (fun slot => [addr.toUInt64, slot.toUInt64]) i₁ with
      ⟨slot, book, i', hanswers, hslot⟩ | ⟨hrefused, hnone⟩
    · exact .inl ⟨book, ⟨addr, i₁, slot, i', hplaces, hanswers⟩, by rw [hslot]⟩
    · refine .inr ⟨hrefused, ?_⟩
      rintro book ⟨addr', i₂, slot, i', hplaces', hanswers⟩
      obtain ⟨rfl, rfl⟩ := hplaces.unique hplaces'.toPlaces
      exact hnone _ _ _ hanswers
  · refine .inr ⟨.inl ?_, ?_⟩
    · simp only [bookParse, bind, StateT.bind]
      rw [show writeText m source i = (none, _) from Prod.ext hwrite rfl]
      rfl
    · rintro book ⟨addr, i₁, slot, i', hplaces, -⟩
      exact hnone _ _ hplaces

theorem deallocate_eq (m : Machine γ) (addr size : UInt32) (i : Instance γ) :
    ∃ log, (deallocate m addr size i).2 =
      { (invoke m .deallocate [addr.toUInt64, size.toUInt64] i).2 with log := log } := by
  rcases hinvoke : invoke m .deallocate [addr.toUInt64, size.toUInt64] i with ⟨text | result, i'⟩
  · refine ⟨i'.log ++ [⟨.error, "wazero: failed to call guest deallocate", [errorAttr text]⟩], ?_⟩
    simp only [deallocate, bind, StateT.bind, hinvoke]
    rfl
  · refine ⟨i'.log, ?_⟩
    simp only [deallocate, bind, StateT.bind, hinvoke]
    rfl

section Messages

variable {s source : Bytes} {f : Export} {args : UInt32 → List UInt64} {slot : UInt32}
  {message : Bytes}

/-- What was logged before has no bearing on a call. -/
theorem foldl_apply_log (maxLog : UInt32) (effects : List Effect) (i : Instance γ)
    (log : List Log.Record) :
    ∃ log', effects.foldl (Instance.apply maxLog) { i with log } =
      { effects.foldl (Instance.apply maxLog) i with log := log' } := by
  induction effects generalizing i log with
  | nil => exact ⟨log, rfl⟩
  | cons effect effects ih =>
    cases effect with
    | log word =>
      exact ih (i.apply maxLog (.log word)) (log ++ [logLine maxLog (some i.memory) word])
    | store addr data => exact ih (i.apply maxLog (.store addr data)) log
    | replace data => exact ih (i.apply maxLog (.replace data)) log
    | print text => exact ih (i.apply maxLog (.print text)) log

theorem invoke_log (m : Machine γ) (f : Export) (args : List UInt64) (i : Instance γ)
    (log : List Log.Record) :
    ∃ log', invoke m f args { i with log } =
      ((invoke m f args i).1, { (invoke m f args i).2 with log := log' }) := by
  obtain ⟨log', hlog⟩ := foldl_apply_log m.maxLog (m.run f args i.guest i.memory).effects
    { i with guest := (m.run f args i.guest i.memory).state } log
  refine ⟨log', ?_⟩
  simp only [invoke]
  rw [hlog]

theorem PlacesText.log (h : PlacesText m s i addr i') (log : List Log.Record) :
    ∃ log', PlacesText m s { i with log } addr { i' with log := log' } := by
  obtain ⟨log', hinvoke⟩ :=
    invoke_log m .allocate [(UInt32.ofNat (s ++ [0]).length).toUInt64] i log
  obtain ⟨result, hresult, hreserved⟩ := h.reserved
  obtain ⟨memory, hwrite, rfl⟩ := h.written
  refine ⟨log', ⟨h.addr_ne_zero, ⟨result, hresult, ?_⟩, ⟨memory, ?_, ?_⟩⟩, h.length_le⟩
  · rw [hinvoke]
    exact hreserved
  · rw [hinvoke]
    exact hwrite
  · rw [hinvoke]

private theorem PlacesText.writeText_eq (h : PlacesText m s i addr i') :
    writeText m s i = (some (addr, UInt32.ofNat (s.length + 1)), i') := by
  rcases writeText_cases m i s with ⟨addr', i'', hplaces, hwrite⟩ | ⟨-, hnone⟩
  · obtain ⟨rfl, rfl⟩ := h.toPlaces.unique hplaces.toPlaces
    exact hwrite
  · exact absurd h (hnone _ _)

theorem placesText_of_writeText {size : UInt32} (h : (writeText m s i).1 = some (addr, size)) :
    PlacesText m s i addr (writeText m s i).2 := by
  rcases writeText_cases m i s with ⟨addr', i'', hplaces, hwrite⟩ | ⟨hnone, -⟩
  · rw [hwrite] at h ⊢
    obtain ⟨rfl, -⟩ := Prod.mk.inj (Option.some.inj h)
    exact hplaces
  · simp [hnone] at h

private theorem hostError_eq (h : PlacesText m message i addr i') :
    ∃ texts log, hostError m message i =
      (addr.toUInt64, { i' with hostTexts := texts, log := log }) := by
  obtain ⟨log, hplaces⟩ := h.log
    (complain "wazero: guest call failed" [⟨"error", .string message⟩] i).2.log
  have hwrite := hplaces.writeText_eq
  have hcomplain : complain "wazero: guest call failed" [⟨"error", .string message⟩] i = ((),
      { i with
        log := (complain "wazero: guest call failed" [⟨"error", .string message⟩] i).2.log }) := rfl
  refine ⟨(addr.toUInt64, UInt32.ofNat (message.length + 1)) ::
    i'.hostTexts.filter (·.1 != addr.toUInt64), log, ?_⟩
  simp only [hostError, bind, StateT.bind]
  rw [hcomplain]
  simp only [hwrite]
  rfl

theorem withSlot_trapped (h : Traps m f args i slot message addr i') :
    ∃ texts log, withSlot m (fun slot => invoke m f (args slot)) i = (⟨0, addr.toUInt64⟩,
      (deallocate m slot 4 { i' with hostTexts := texts, log := log }).2) := by
  obtain ⟨i₁, i₂, trap, hready, hinvoke, rfl, hplaces⟩ := h.failed
  obtain ⟨texts, log, herror⟩ := hostError_eq hplaces
  refine ⟨texts, log, ?_⟩
  rcases withSlot_ready_cases m i with ⟨slot', i₁', hready', hslot⟩ | ⟨-, hnone⟩
  · obtain ⟨rfl, rfl⟩ := hready.unique hready'
    have hanswer : (invoke m f (args slot) >>= answerOf m slot) i₁ =
        (⟨0, addr.toUInt64⟩, { i' with hostTexts := texts, log := log }) := by
      have hget : (get : InstanceM γ (Instance γ)) i₂ = (i₂, i₂) := rfl
      simp only [bind, StateT.bind, hinvoke, answerOf, hget, herror]
      rfl
    rw [hslot, hanswer]
  · exact absurd hready (hnone _ _)

theorem bookParse_trapped {source : Bytes} {copy : UInt32} {i₁ : Instance γ}
    (hplaces : PlacesText m source i copy i₁)
    (h : Traps m .bookParse (fun slot => [copy.toUInt64, slot.toUInt64]) i₁ slot message addr i') :
    ∃ texts log, bookParse m source i = (⟨0, addr.toUInt64⟩,
      (deallocate m copy (UInt32.ofNat (source.length + 1))
        (deallocate m slot 4 { i' with hostTexts := texts, log := log }).2).2) := by
  obtain ⟨texts, log, hslot⟩ := withSlot_trapped h
  refine ⟨texts, log, ?_⟩
  simp only [bookParse, bind, StateT.bind, hplaces.writeText_eq, hslot]
  rfl

end Messages

end EngineHost.Guest
