import EngineHost.Proofs.SimulatedLedger

/-!
# Operations over the simulated engine

Over the simulated engine, each operation of the host has the answer that its program and the
options decide, and it leaves the ledger as it found it, but for the book that it parses.
-/

namespace EngineHost

/-- The addresses that the simulated engine takes in a call. An evaluation takes three, for its
record and the two texts in it. -/
def Call.allocations : Call → Nat
  | parse p v => (if p = 0 then 0 else 1) + if v = 0 then 0 else 1
  | evaluate _ _ _ p v => (if p = 0 then 0 else 3) + if v = 0 then 0 else 1
  | serialize _ p v => (if p = 0 then 0 else 1) + if v = 0 then 0 else 1
  | _ => 0

/-- The addresses that the simulated engine takes in a sequence of calls. -/
def allocations (calls : List Call) : Nat := (calls.map Call.allocations).sum

@[simp] theorem allocations_nil : allocations [] = 0 := rfl

@[simp] theorem allocations_append (calls calls' : List Call) :
    allocations (calls ++ calls') = allocations calls + allocations calls' := by
  simp [allocations]

@[simp] theorem allocations_cons (c : Call) (calls : List Call) :
    allocations (c :: calls) = c.allocations + allocations calls := by
  simp [allocations]

def Call.copies : Call → Bool
  | vecCopy _ _ _ => true
  | _ => false

/-- The number of encodings that an answer brings along. -/
def Answer.deliveries : Answer → Nat
  | bytes (.ok _) => 1
  | filled ⟨.ok (some _), _⟩ => 1
  | _ => 0

namespace Simulator

open Ledger

variable {o : Options} {l l' : Ledger} {p v : Ptr} {n : Nat} {ρ α : Type}

private theorem Handed.made_of_none {entries : List (Ptr × Allocation)} {r : Reply Ledger Made}
    (h : Handed l entries none r) :
    ∃ p, p ≠ 0 ∧ r.value = ⟨p, 0⟩ ∧ r.value.ptr = p ∧
      l.Became entries.length (l.live ++ entries) r.state := by
  have hslot := h.slot_eq_zero_iff.2 rfl
  have hp := h.some_ne_zero hslot
  have hbecame := h.became
  rw [hslot, unlessNull_of_ne hp] at hbecame
  refine ⟨r.value.ptr, hp, ?_, rfl, by simpa using hbecame⟩
  rw [← hslot]

/-- The text of an error is read and released, and what came with it stays. -/
theorem Handed.text_settled {entries : List (Ptr × Allocation)} {r : Reply Ledger Made}
    {message : Bytes} (h : Handed l entries (some message) r) (hmade : r.value = ⟨p, v⟩) :
    v ≠ 0 ∧ decodedText ((boundary o).readText v r.state).value = shown message ∧
      l.Became ((unlessNull p entries).length + 1) (l.live ++ unlessNull p entries)
        ((boundary o).freeText v ((boundary o).readText v r.state).state).state := by
  have hv : v ≠ 0 := by
    intro hv
    have hslot := h.slot_eq_zero_iff.1 (by rw [hmade, hv])
    simp at hslot
  have hbecame := h.became
  rw [hmade] at hbecame
  simp only [unlessNull_of_ne hv, Option.getD_some] at hbecame
  have hfind : r.state.find? v = some (.text (message ++ [0])) :=
    hbecame.sound.find? (by simp [hbecame.live_eq])
  have hread : (boundary o).readText v r.state =
      ⟨some (message.takeWhile (· != 0)), r.state, []⟩ := by
    simp [boundary, readText, hfind, takeWhile_terminated]
  have hfree := hbecame.sound.free .freeText hbecame.live_eq rfl
  rw [List.append_nil] at hfree
  rw [hread]
  exact ⟨hv, rfl, hbecame.trans hfree⟩

private theorem became_afterFree {a : Allocation} {kind : Resource} (f : Function)
    (ha : a.resource? = some kind) (h : l.Became n (l.live ++ unlessNull p [(p, a)]) l') :
    l.Became n l.live
      (afterFree (fun p l => ⟨(), (l.count f).free f p kind, []⟩) p l') := by
  by_cases hp : p = 0
  · subst hp
    simpa [afterFree] using h
  · rw [unlessNull_of_ne hp] at h
    have hfree := h.sound.free f h.live_eq ha
    rw [List.append_nil] at hfree
    simpa [afterFree, hp] using h.trans hfree

private theorem became_afterFreeEvaluation {record : Record} {result memDump : Bytes}
    (h : l.Became n (l.live ++ unlessNull p (recordEntries p record result memDump)) l') :
    l.Became n l.live (afterFree (boundary o).freeEvaluation p l') := by
  by_cases hp : p = 0
  · subst hp
    simpa [afterFree] using h
  rw [unlessNull_of_ne hp] at h
  have hfree := freeEvaluation_became h.sound (h.live_eq.trans (by rw [List.append_nil]))
  rw [List.append_nil] at hfree
  simpa [afterFree, hp, boundary] using h.trans hfree

abbrev host (o : Options) (observed : Bool) : Engine Ledger :=
  { boundary := boundary o, observed := observed }

/-- An operation has this value and leaves these entries live, after some copies of vectors. -/
def Leaves (e : Engine Ledger) (x : HostM Ledger α) (l : Ledger) (a : α)
    (live : List (Ptr × Allocation)) (copied : Nat) : Prop :=
  ∃ l' calls events, Runs e x l a l' calls events ∧ l.Became (allocations calls) live l' ∧
    calls.countP Call.copies = copied

section Operations

variable {observed : Bool} {book : Ptr} {program : Program}

theorem parse_made_leaves (observed : Bool) {source : Bytes}
    (hparsed : o.parsed source = .ok program) (hl : l.Sound)
    (hroom : l.last.toNat + 0x40 < 2 ^ 64) :
    ∃ p, p ≠ 0 ∧ Leaves (host o observed) ((host o observed).parse source) l (.ok ⟨p⟩)
      (l.live ++ [(p, .book program)]) 0 := by
  obtain ⟨read, hread, hhanded⟩ := parse_handed o source hl hroom
  obtain rfl := hread _ hparsed
  rw [hparsed] at hhanded
  obtain ⟨p, hp, hmade, hptr, hbecame⟩ := hhanded.made_of_none
  rw [hptr] at hbecame
  refine ⟨p, hp, _, _, _, Engine.runs_parse_made hmade hp, ?_, rfl⟩
  exact hbecame.of_eq (by simp [Call.allocations, hp])

theorem parse_refused_leaves (observed : Bool) {source message : Bytes}
    (hparsed : o.parsed source = .error message) (hl : l.Sound)
    (hroom : l.last.toNat + 0x40 < 2 ^ 64) :
    Leaves (host o observed) ((host o observed).parse source) l
      (.error (.interop "book_parse" (shown message))) l.live 0 := by
  obtain ⟨read, -, hhanded⟩ := parse_handed o source hl hroom
  rw [hparsed] at hhanded
  rcases hmade : (parse o source l).value with ⟨p, v⟩
  rw [hmade] at hhanded
  obtain ⟨hv, htext, hbecame⟩ := hhanded.text_settled (o := o) hmade
  rw [← htext]
  refine ⟨_, _, _, Engine.runs_parse_refused hmade hv, ?_, ?_⟩
  · refine Became.of_eq (became_afterFree .freeBook rfl hbecame) ?_
    by_cases hp : p = 0 <;> simp [Call.allocations, hp, hv]
  · by_cases hp : p = 0 <;> simp [Call.copies, hp]

private theorem copyRecord_runs (observed : Bool) {record : Record} {result memDump : Bytes}
    (hl : l.Sound) {base : List (Ptr × Allocation)} (hrecord : RecordOf o program record)
    (hlive : l.live = base ++ recordEntries p record (result ++ [0]) (memDump ++ [0])) :
    Runs (host o observed) ((host o observed).copyRecord p) l
      (.ok ⟨shown result, shown memDump, program.iterations, Duration.ofSeconds o.seconds⟩) l
      [.readRecord p, .readText record.result, .readText record.memDump] [] := by
  have hfind : l.find? p = some (.evaluation record) := hl.find? (by simp [hlive, recordEntries])
  have hresult : l.find? record.result = some (.recordText (result ++ [0])) :=
    hl.find? (by simp [hlive, recordEntries])
  have hdump : l.find? record.memDump = some (.recordText (memDump ++ [0])) :=
    hl.find? (by simp [hlive, recordEntries])
  have hread : (boundary o).readRecord p l = ⟨some record, l, []⟩ := by
    simp [boundary, readRecord, hfind]
  have htext : ∀ {q data}, q ≠ 0 → l.find? q = some (.recordText (data ++ [0])) →
      (boundary o).textAt q l = shown data ∧ (boundary o).afterRead q l = l := by
    intro q data hq hfind
    simp [Boundary.textAt, Boundary.afterRead, boundary, readText, hq, hfind,
      takeWhile_terminated, decodedText, shown]
  have hvalue : ((host o observed).boundary.readRecord p l).value = some record := by rw [hread]
  have hruns := Engine.runs_copyRecord hvalue
  simp only [hread, htext hrecord.result_ne_zero hresult, htext hrecord.memDump_ne_zero hdump,
    unlessNull_of_ne hrecord.result_ne_zero, unlessNull_of_ne hrecord.memDump_ne_zero,
    hrecord.iterations_eq, hrecord.seconds_eq] at hruns
  exact hruns

theorem evaluate_leaves (options : EvaluateOptions) (hb : book ≠ 0)
    (hbook : l.find? book = some (.book program)) (hl : l.Sound)
    (hroom : l.last.toNat + 0x40 < 2 ^ 64) :
    Leaves (host o observed) ((host o observed).evaluate ⟨book⟩ options) l
      (reply "book_evaluate" (o.evaluated program options)) l.live 0 := by
  obtain ⟨record, hrecord, hhanded⟩ := evaluate_handed o options hl hbook hroom
  cases houtcome : o.evaluated program options with
  | error message =>
    rw [houtcome] at hhanded
    rcases hmade : (evaluate o book options.interpreter options.dump l).value with ⟨p, v⟩
    rw [hmade] at hhanded
    obtain ⟨hv, htext, hbecame⟩ := hhanded.text_settled (o := o) hmade
    rw [reply_error, ← htext]
    have hrefused := Engine.runs_evaluationOf_refused (e := host o observed) p hv
      (evaluate o book options.interpreter options.dump l).state
    refine ⟨_, _, _, Engine.runs_evaluate hb hmade hrefused, ?_, ?_⟩
    · refine (became_afterFreeEvaluation hbecame).of_eq ?_
      by_cases hp : p = 0 <;> simp [Call.allocations, hp, hv, recordEntries]
    · by_cases hp : p = 0 <;> simp [Call.copies, hp]
  | ok evaluation =>
    rw [houtcome] at hhanded
    obtain ⟨p, hp, hmade, hptr, hbecame⟩ := hhanded.made_of_none
    rw [hptr] at hbecame
    have hcopy := copyRecord_runs observed hbecame.sound hrecord hbecame.live_eq
    rw [← eq_of_evaluated houtcome] at hcopy
    refine ⟨_, _, _, Engine.runs_evaluate hb hmade (Engine.runs_evaluationOf_made hp hcopy), ?_, ?_⟩
    · rw [← unlessNull_of_ne hp (recordEntries p record _ _)] at hbecame
      refine (became_afterFreeEvaluation hbecame).of_eq ?_
      simp [Call.allocations, hp, recordEntries]
    · simp [Call.copies, hp]

theorem vecLength_became {data : Bytes} (hl : l.Sound) (hmem : (p, .vec data) ∈ l.live) :
    ((boundary o).vecLength p l).value = UInt64.ofNat data.length ∧
      l.Became 0 l.live ((boundary o).vecLength p l).state := by
  simp only [boundary, vecLength, lookup_count _ .vec (hl.find? hmem) rfl, true_and]
  exact hl.count .vecLength

private theorem vecCopy_became {data : Bytes} (buffer : Bytes) (hl : l.Sound)
    (hmem : (p, .vec data) ∈ l.live) (hfits : data.length ≤ buffer.length) :
    ((boundary o).vecCopy p buffer l).value =
        (UInt64.ofNat data.length, data ++ buffer.drop data.length) ∧
      l.Became 0 l.live ((boundary o).vecCopy p buffer l).state := by
  simp only [boundary, vecCopy, lookup_count _ .vec (hl.find? hmem) rfl, Nat.not_lt.2 hfits,
    if_false, true_and]
  exact hl.count .vecCopy

/-- A use of a vector with this value that leaves the ledger as it is, after some copies. -/
def LooksAt (e : Engine Ledger) (data : Bytes) (use : Ptr → HostM Ledger α) (a : α)
    (copied : Nat) : Prop :=
  ∀ p l, l.Sound → (p, .vec data) ∈ l.live →
    ∃ l' calls events, Runs e (use p) l a l' calls events ∧ l.Became 0 l.live l' ∧
      allocations calls = 0 ∧ calls.countP Call.copies = copied

private theorem vecLength_looksAt (data : Bytes) :
    LooksAt (host o observed) data (fun vec => do
        return (.ok (← (host o observed).vecLength vec) : Except (Failed UInt64) UInt64))
      (.ok (.ofNat data.length)) 0 := by
  intro p l hl hmem
  obtain ⟨hn, hbecame⟩ := vecLength_became (o := o) hl hmem
  have hruns := (Engine.runs_vecLength (e := host o observed) p l).map
    fun n => (.ok n : Except (Failed UInt64) UInt64)
  rw [hn] at hruns
  exact ⟨_, _, _, hruns, hbecame, rfl, rfl⟩

private theorem ofNat_length_ne_zero {data : Bytes} (hdata : data.length < 2 ^ 64)
    (hne : data ≠ []) :
    UInt64.ofNat data.length ≠ 0 := by
  intro hzero
  have hsize : (UInt64.ofNat data.length).toNat = data.length := UInt64.toNat_ofNat_of_lt' hdata
  rw [hzero] at hsize
  exact hne (List.length_eq_zero_iff.1 hsize.symm)

private theorem vecBytes_looksAt {data : Bytes} (hdata : data.length < 2 ^ 64) (hne : data ≠ []) :
    LooksAt (host o observed) data (host o observed).vecBytes (.ok data) 1 := by
  intro p l hl hmem
  obtain ⟨hn, hlength⟩ := vecLength_became (o := o) hl hmem
  have hsize : (UInt64.ofNat data.length).toNat = data.length := UInt64.toNat_ofNat_of_lt' hdata
  obtain ⟨hcopied, hcopy⟩ := vecCopy_became (o := o) (p := p)
    (List.replicate (UInt64.ofNat data.length).toNat 0) hlength.sound
    (by rwa [hlength.live_eq]) (Nat.le_of_eq (by rw [List.length_replicate, hsize]))
  have hruns := Engine.runs_vecBytes (e := host o observed) hn (ofNat_length_ne_zero hdata hne)
    (Nat.le_of_lt (UInt64.toNat_lt _))
  rw [hlength.live_eq] at hcopy
  simp only [hcopied, if_true] at hruns
  rw [List.drop_eq_nil_of_le (Nat.le_of_eq (by rw [List.length_replicate, hsize])),
    List.append_nil] at hruns
  exact ⟨_, _, _, hruns, hlength.trans hcopy, rfl, rfl⟩

/-- What an attempt to put an encoding into a buffer ends with. -/
def fill (data buffer : Bytes) : Engine.Filling :=
  if buffer.length < data.length then ⟨0, false, buffer⟩
  else ⟨.ofNat data.length, true, data ++ buffer.drop data.length⟩

private theorem vecFill_looksAt {data : Bytes} (hdata : data.length < 2 ^ 64) (hne : data ≠ [])
    (buffer : Bytes) :
    LooksAt (host o observed) data ((host o observed).vecFill buffer) (.ok (fill data buffer))
      (if buffer.length < data.length then 0 else 1) := by
  intro p l hl hmem
  obtain ⟨hn, hlength⟩ := vecLength_became (o := o) hl hmem
  have hsize : (UInt64.ofNat data.length).toNat = data.length := UInt64.toNat_ofNat_of_lt' hdata
  by_cases hshort : buffer.length < data.length
  · have hruns := Engine.runs_vecFill_short (e := host o observed) hn (hsize ▸ hshort)
    rw [fill, if_pos hshort, if_pos hshort]
    exact ⟨_, _, _, hruns, hlength, rfl, rfl⟩
  · have hfits := Nat.not_lt.1 hshort
    obtain ⟨hcopied, hcopy⟩ := vecCopy_became (o := o) (p := p) buffer hlength.sound
      (by rwa [hlength.live_eq]) hfits
    have hruns := Engine.runs_vecFill (e := host o observed) hn (ofNat_length_ne_zero hdata hne)
      (hsize.symm ▸ hfits)
    rw [hlength.live_eq] at hcopy
    simp only [hcopied, if_true] at hruns
    rw [fill, if_neg hshort, if_neg hshort]
    exact ⟨_, _, _, hruns, hlength.trans hcopy, rfl, rfl⟩

private theorem withVec_refused_leaves {use : Ptr → HostM Ledger (Except (Failed ρ) α)} {out : ρ}
    {message : Bytes}
    (hencoded : o.encoded program = .error message) (hbook : l.find? book = some (.book program))
    (hl : l.Sound) (hroom : l.last.toNat + 0x40 < 2 ^ 64) :
    Leaves (host o observed) ((host o observed).withVec book out use) l
      (.error ⟨.interop "book_serialize" (shown message), out⟩) l.live 0 := by
  have hhanded := serialize_handed o hl hbook hroom
  rcases hmade : (serialize o book l).value with ⟨p, v⟩
  rw [hmade, hencoded] at hhanded
  obtain ⟨hv, htext, hbecame⟩ := hhanded.text_settled (o := o) hmade
  rw [← htext]
  refine ⟨_, _, _, Engine.runs_withVec_refused hmade hv, ?_, ?_⟩
  · refine Became.of_eq (became_afterFree .freeVec rfl hbecame) ?_
    by_cases hp : p = 0 <;> simp [Call.allocations, hp, hv]
  · by_cases hp : p = 0 <;> simp [Call.copies, hp]

private theorem withVec_made_leaves {use : Ptr → HostM Ledger (Except (Failed ρ) α)} {out : ρ}
    {data : Bytes} {a : Except (Failed ρ) α} (hencoded : o.encoded program = .ok data)
    (huse : LooksAt (host o observed) data use a n) (hbook : l.find? book = some (.book program))
    (hl : l.Sound) (hroom : l.last.toNat + 0x40 < 2 ^ 64) :
    Leaves (host o observed) ((host o observed).withVec book out use) l a l.live n := by
  have hhanded := serialize_handed o hl hbook hroom
  rw [hencoded, ← eq_of_encoded hencoded] at hhanded
  obtain ⟨p, hp, hmade, hptr, hbecame⟩ := hhanded.made_of_none
  rw [hptr] at hbecame
  obtain ⟨l', calls, events, hruns, hused, hcalls, hcopied⟩ :=
    huse p _ hbecame.sound (by simp [hbecame.live_eq])
  refine ⟨_, _, _, Engine.runs_withVec_made hmade hp hruns, ?_, ?_⟩
  · have htotal := hbecame.trans hused
    rw [hbecame.live_eq] at htotal
    have hfreed := htotal.sound.free .freeVec htotal.live_eq rfl
    rw [List.append_nil] at hfreed
    exact (htotal.trans hfreed).of_eq (by simp [hcalls, Call.allocations, hp])
  · simp [hcopied, Call.copies]

section Encoding

variable (hb : book ≠ 0) (hbook : l.find? book = some (.book program)) (hl : l.Sound)
  (hroom : l.last.toNat + 0x40 < 2 ^ 64)

include hb hbook hl hroom

theorem serializedLength_leaves :
    Leaves (host o observed) ((host o observed).serializedLength ⟨book⟩) l
      (do return .ofNat (← reply "book_serialize" (o.encoded program)).length) l.live 0 := by
  cases hencoded : o.encoded program with
  | error message =>
    obtain ⟨l', calls, events, hruns, hbecame, hcopied⟩ :
        Leaves (host o observed) ((host o observed).withVec book (0 : UInt64) _) l _ l.live 0 :=
      withVec_refused_leaves hencoded hbook hl hroom
    have hmeasured := Engine.runs_serializedLength hb hruns
    exact ⟨_, _, _, hmeasured, hbecame, hcopied⟩
  | ok data =>
    obtain ⟨l', calls, events, hruns, hbecame, hcopied⟩ :
        Leaves (host o observed) ((host o observed).withVec book (0 : UInt64) _) l _ l.live 0 :=
      withVec_made_leaves hencoded (vecLength_looksAt data) hbook hl hroom
    have hmeasured := Engine.runs_serializedLength hb hruns
    exact ⟨_, _, _, hmeasured, hbecame, hcopied⟩

theorem serialize_leaves (hsize : program.encode.length < 2 ^ 64) :
    let r := reply "book_serialize" (o.encoded program)
    Leaves (host o observed) ((host o observed).serialize ⟨book⟩) l r l.live
      (Answer.bytes r).deliveries := by
  cases hencoded : o.encoded program with
  | error message =>
    obtain ⟨l', calls, events, hruns, hbecame, hcopied⟩ :
        Leaves (host o observed) ((host o observed).withVec book none _) l _ l.live 0 :=
      withVec_refused_leaves hencoded hbook hl hroom
    exact ⟨_, _, _, Engine.runs_serialize hb hruns, hbecame, hcopied⟩
  | ok data =>
    obtain rfl := eq_of_encoded hencoded
    have hne : program.encode ≠ [] := by simp [Program.encode]
    obtain ⟨l', calls, events, hruns, hbecame, hcopied⟩ :
        Leaves (host o observed) ((host o observed).withVec book none _) l _ l.live _ :=
      withVec_made_leaves hencoded (vecBytes_looksAt hsize hne) hbook hl hroom
    exact ⟨_, _, _, Engine.runs_serialize hb hruns, hbecame, hcopied⟩

theorem serializeTo_leaves (hsize : program.encode.length < 2 ^ 64) (buffer : Bytes) :
    let r := filled buffer (reply "book_serialize" (o.encoded program))
    Leaves (host o observed) ((host o observed).serializeTo ⟨book⟩ buffer) l r l.live
      (Answer.filled r).deliveries := by
  let unfilled : Engine.Filling := { buffer := buffer }
  cases hencoded : o.encoded program with
  | error message =>
    obtain ⟨l', calls, events, hruns, hbecame, hcopied⟩ :
        Leaves (host o observed) ((host o observed).withVec book unfilled _) l _ l.live 0 :=
      withVec_refused_leaves hencoded hbook hl hroom
    have hfilled := Engine.runs_serializeTo hb hruns
    exact ⟨_, _, _, hfilled, hbecame, hcopied⟩
  | ok data =>
    obtain rfl := eq_of_encoded hencoded
    have hne : program.encode ≠ [] := by simp [Program.encode]
    obtain ⟨l', calls, events, hruns, hbecame, hcopied⟩ :
        Leaves (host o observed) ((host o observed).withVec book unfilled _) l _ l.live _ :=
      withVec_made_leaves hencoded (vecFill_looksAt hsize hne buffer) hbook hl hroom
    have hfilled := Engine.runs_serializeTo hb hruns
    by_cases hshort : buffer.length < program.encode.length
    · simp only [fill, if_pos hshort] at hfilled hcopied
      simp only [reply, Except.mapError, filled, if_pos hshort]
      exact ⟨_, _, _, hfilled, hbecame, hcopied⟩
    · simp only [fill, if_neg hshort] at hfilled hcopied
      simp only [reply, Except.mapError, filled, if_neg hshort]
      exact ⟨_, _, _, hfilled, hbecame, hcopied⟩

end Encoding

end Operations

end Simulator

end EngineHost
