import EngineHost.Proofs.Conversation
import EngineHost.Proofs.EncodedLength
import EngineHost.Proofs.SimulatedAnswers

/-!
# The simulated engine keeps its ledger

The simulated engine hands out addresses in increasing order, so what is live is told apart by its
address, and a release strikes off one entry and no other. Each call of the boundary is described
by what becomes of the ledger.
-/

namespace EngineHost.Simulator

namespace Ledger

/-- The live addresses increase, up to the one handed out last. -/
structure Sound (l : Ledger) : Prop where
  increasing : l.live.Pairwise fun a b => a.1.toNat < b.1.toNat
  bounded : ∀ e ∈ l.live, e.1.toNat ≤ l.last.toNat

/-- After `n` more addresses these entries are live, and there is no new violation. What was not
live before has an address that was not handed out before. -/
structure Became (l : Ledger) (n : Nat) (live : List (Ptr × Allocation)) (l' : Ledger) : Prop where
  live_eq : l'.live = live
  violations_eq : l'.violations = l.violations
  last_eq : l'.last.toNat = l.last.toNat + 0x10 * n
  fresh : ∀ e ∈ l'.live, e ∈ l.live ∨ l.last.toNat < e.1.toNat
  sound : l'.Sound

variable {l l' l'' : Ledger} {p : Ptr} {a : Allocation}

theorem Became.trans {n m : Nat} {live live' : List (Ptr × Allocation)}
    (h : Became l n live l') (h' : Became l' m live' l'') : Became l (n + m) live' l'' where
  live_eq := h'.live_eq
  violations_eq := h'.violations_eq.trans h.violations_eq
  last_eq := by rw [h'.last_eq, h.last_eq]; omega
  fresh e he := by
    have hlast := h.last_eq
    rcases h'.fresh e he with he | hlt
    · exact h.fresh e he
    · exact .inr (by omega)
  sound := h'.sound

theorem Became.of_eq {n m : Nat} {live : List (Ptr × Allocation)} (h : Became l n live l')
    (hm : m = n) : Became l m live l' :=
  hm ▸ h

theorem Sound.became (hl : l.Sound) : Became l 0 l.live l :=
  ⟨rfl, rfl, rfl, fun _ => .inl, hl⟩

theorem Sound.count (hl : l.Sound) (f : Function) : Became l 0 l.live (l.count f) :=
  ⟨rfl, rfl, rfl, fun _ => .inl, ⟨hl.increasing, hl.bounded⟩⟩

theorem Sound.find? (hl : l.Sound) (hmem : (p, a) ∈ l.live) : l.find? p = some a := by
  obtain ⟨before, after, hlive⟩ := List.append_of_mem hmem
  -- what was entered earlier has a smaller address, so the search does not stop there
  have hlt : ∀ e ∈ before, e.1.toNat < p.toNat := by
    have hincreasing := hl.increasing
    rw [hlive, List.pairwise_append] at hincreasing
    exact fun e he => hincreasing.2.2 e he _ (List.mem_cons_self ..)
  have hbefore : before.find? (fun e => e.1 == p) = none := by
    refine List.find?_eq_none.2 fun e he heq => ?_
    have := hlt e he
    rw [eq_of_beq heq] at this
    exact Nat.lt_irrefl _ this
  simp [Ledger.find?, hlive, List.find?_append, hbefore]

theorem Sound.erase (hl : l.Sound) {before after : List (Ptr × Allocation)}
    (hlive : l.live = before ++ (p, a) :: after) : Became l 0 (before ++ after) (l.erase p) := by
  have hincreasing := hl.increasing
  rw [hlive, List.pairwise_append, List.pairwise_cons] at hincreasing
  obtain ⟨-, ⟨hafter, -⟩, hbefore⟩ := hincreasing
  have hsub : (l.erase p).live.Sublist l.live := List.filter_sublist
  refine ⟨?_, rfl, rfl, fun e he => .inl (hsub.subset he), hl.increasing.sublist hsub,
    fun e he => hl.bounded e (hsub.subset he)⟩
  have hne : ∀ e : Ptr × Allocation, e.1.toNat ≠ p.toNat → (e.1 != p) = true := by
    intro e hne
    simpa [UInt64.toNat_inj] using hne
  simp only [Ledger.erase, hlive, List.filter_append, List.filter_cons, bne_self_eq_false,
    Bool.false_eq_true, if_false]
  rw [List.filter_eq_self.2 fun e he => hne e (Nat.ne_of_lt (hbefore e he _ List.mem_cons_self)),
    List.filter_eq_self.2 fun e he => hne e (Nat.ne_of_gt (hafter e he))]

theorem lookup_count (f : Function) (kind : Resource) (hfind : l.find? p = some a)
    (hkind : a.resource? = some kind) : (l.count f).lookup f p kind = (some a, l.count f) := by
  have hcount : (l.count f).find? p = some a := hfind
  simp [Ledger.lookup, hcount, hkind]

theorem Sound.nodup (hl : l.Sound) : (l.live.map Prod.fst).Nodup := by
  rw [List.Nodup, List.pairwise_map]
  refine hl.increasing.imp fun hlt heq => ?_
  rw [heq] at hlt
  exact Nat.lt_irrefl _ hlt

theorem Sound.free (hl : l.Sound) {before after : List (Ptr × Allocation)} {kind : Resource}
    (f : Function) (hlive : l.live = before ++ (p, a) :: after) (hkind : a.resource? = some kind) :
    Became l 0 (before ++ after) ((l.count f).free f p kind) := by
  have hcount := hl.count f
  have hfind : l.find? p = some a := hl.find? (by simp [hlive])
  have hfree : (l.count f).free f p kind = (l.count f).erase p := by
    simp [Ledger.free, lookup_count f kind hfind hkind]
  rw [hfree]
  exact hcount.trans (hcount.sound.erase (hcount.live_eq.trans hlive))

/-- The next address is new and not null as long as the addresses do not run out. -/
theorem Sound.allocate (hl : l.Sound) (hroom : l.last.toNat + 0x10 < 2 ^ 64) (a : Allocation) :
    (l.allocate a).1 ≠ 0 ∧ Became l 1 (l.live ++ [((l.allocate a).1, a)]) (l.allocate a).2 := by
  have hnext : (l.last + 0x10).toNat = l.last.toNat + 0x10 := by
    rw [UInt64.toNat_add]
    exact Nat.mod_eq_of_lt hroom
  refine ⟨?_, rfl, rfl, hnext, ?_, ?_, ?_⟩
  · intro hzero
    rw [show l.last + 0x10 = 0 from hzero] at hnext
    simp at hnext
  · intro e he
    rcases List.mem_append.1 he with he | he
    · exact .inl he
    · obtain rfl := List.mem_singleton.1 he
      exact .inr (by simp only [hnext]; omega)
  · simp only [Ledger.allocate, List.pairwise_append, List.pairwise_singleton, true_and]
    refine ⟨hl.increasing, fun e he b hb => ?_⟩
    rw [List.mem_singleton.1 hb]
    have := hl.bounded e he
    simp only [hnext]
    omega
  · intro e he
    simp only [Ledger.allocate, List.mem_append, List.mem_singleton] at he ⊢
    rcases he with he | rfl
    · have := hl.bounded e he
      omega
    · exact Nat.le_refl _

end Ledger

/-- What a call that can fail hands over: these entries if it makes something, and the text of an
error if it reports one, but never nothing. -/
structure Handed (l : Ledger) (entries : List (Ptr × Allocation)) (error : Option Bytes)
    (r : Reply Ledger Made) : Prop where
  slot_eq_zero_iff : r.value.slot = 0 ↔ error = none
  some_ne_zero : r.value.slot = 0 → r.value.ptr ≠ 0
  became : l.Became
    ((unlessNull r.value.ptr entries).length + (unlessNull r.value.slot [()]).length)
    (l.live ++ unlessNull r.value.ptr entries ++
      unlessNull r.value.slot [(r.value.slot, .text (error.getD [] ++ [0]))]) r.state

open Ledger

variable {o : Options} {l l' : Ledger}

private theorem Handed.of_became {entries : List (Ptr × Allocation)} {error : Option Bytes}
    {r : Reply Ledger Made} (h : l.Became 0 l.live l') (hr : Handed l' entries error r) :
    Handed l entries error r := by
  obtain ⟨hslot, hne, hbecame⟩ := hr
  refine ⟨hslot, hne, ?_⟩
  rw [h.live_eq] at hbecame
  simpa using h.trans hbecame

private theorem refuse_handed (hl : l.Sound) (hroom : l.last.toNat + 0x10 < 2 ^ 64)
    (message : Bytes)
    (entries : List (Ptr × Allocation)) : Handed l entries (some message) (refuse l message) := by
  obtain ⟨hp, hbecame⟩ := hl.allocate hroom (.text (message ++ [0]))
  have hslot : (refuse l message).value.slot ≠ 0 := hp
  refine ⟨by simp [hslot], fun h => absurd h hslot, ?_⟩
  rw [unlessNull_of_ne hslot, unlessNull_of_ne hslot]
  simpa [refuse, allocateText] using hbecame

theorem refuse_count_handed (f : Function) (hl : l.Sound) (hroom : l.last.toNat + 0x10 < 2 ^ 64)
    (message : Bytes) (entries : List (Ptr × Allocation)) :
    Handed l entries (some message) (refuse (l.count f) message) :=
  .of_became (hl.count f) (refuse_handed (hl.count f).sound hroom message entries)

@[simp] theorem handOver_ptr (l : Ledger) (p : Ptr) (error : Option Bytes) :
    (handOver l p error).value.ptr = p := by
  cases error <;> rfl

private theorem handOver_handed {entries : List (Ptr × Allocation)} {p : Ptr} (hp : p ≠ 0)
    (h : l.Became entries.length (l.live ++ entries) l')
    (hroom : l.last.toNat + 0x10 * (entries.length + 1) < 2 ^ 64) (error : Option Bytes) :
    Handed l entries error (handOver l' p error) := by
  have hroom' : l'.last.toNat + 0x10 < 2 ^ 64 := by
    rw [h.last_eq]
    omega
  cases error with
  | none =>
    refine ⟨by simp [handOver], fun _ => hp, ?_⟩
    simpa [handOver, hp] using h
  | some message =>
    obtain ⟨hv, hbecame⟩ := h.sound.allocate hroom' (.text (message ++ [0]))
    have hslot : (handOver l' p (some message)).value.slot ≠ 0 := hv
    refine ⟨by simp [hslot], fun h => absurd h hslot, ?_⟩
    rw [handOver_ptr, unlessNull_of_ne hslot, unlessNull_of_ne hslot, unlessNull_of_ne hp]
    rw [h.live_eq] at hbecame
    exact h.trans hbecame

theorem parse_handed (o : Options) (source : Bytes) (hl : l.Sound)
    (hroom : l.last.toNat + 0x40 < 2 ^ 64) :
    ∃ program, (∀ read, o.parsed source = .ok read → read = program) ∧
      Handed l [((parse o source l).value.ptr, .book program)] (refusal? (o.parsed source))
        (parse o source l) := by
  have hcount := hl.count .bookParse
  have hroom' : (l.count .bookParse).last.toNat + 0x40 < 2 ^ 64 := hroom
  have hrefuse := refuse_count_handed .bookParse hl (by omega)
  unfold parse Options.parsed
  dsimp only
  by_cases hinjected : (!o.parseError.isEmpty && !o.errorWithBook) = true
  · simp only [if_pos hinjected]
    exact ⟨default, by simp, hrefuse _ _⟩
  simp only [if_neg hinjected]
  cases Program.parse source with
  | error e => exact ⟨default, by simp, hrefuse _ _⟩
  | ok program =>
    obtain ⟨hp, hbecame⟩ := hcount.sound.allocate (by omega) (.book program)
    refine ⟨program, ?_, .of_became hcount ?_⟩
    · intro read hread
      dsimp only at hread
      split at hread
      · simp at hread
      · exact (Except.ok.inj hread).symm
    · rw [handOver_ptr]
      have hroom'' : (l.count .bookParse).last.toNat + 0x10 * 2 < 2 ^ 64 := by omega
      cases o.errorWithBook with
      | false => exact handOver_handed hp hbecame hroom'' none
      | true => exact handOver_handed hp hbecame hroom'' (some o.parseError)

/-- The entries of an evaluation: the two texts that its record owns, and the record. -/
def recordEntries (p : Ptr) (record : Record) (result memDump : Bytes) :
    List (Ptr × Allocation) :=
  [(record.result, .recordText result), (record.memDump, .recordText memDump),
    (p, .evaluation record)]

structure RecordOf (o : Options) (program : Program) (record : Record) : Prop where
  result_ne_zero : record.result ≠ 0
  memDump_ne_zero : record.memDump ≠ 0
  iterations_eq : record.iterations = program.iterations
  seconds_eq : record.seconds = o.seconds

private theorem enterRecord_became (o : Options) (program : Program) (dump : UInt32) (hl : l.Sound)
    (hroom : l.last.toNat + 0x30 < 2 ^ 64) :
    let p := (enterRecord o program dump l).1
    p ≠ 0 ∧ ∃ record, RecordOf o program record ∧
      l.Became 3 (l.live ++ recordEntries p record (resultText o program ++ [0])
        ((if dump = 0 then [] else program.memDump) ++ [0])) (enterRecord o program dump l).2 := by
  obtain ⟨hq, hresult⟩ := hl.allocate (by omega) (.recordText (resultText o program ++ [0]))
  obtain ⟨hq', hdump⟩ := hresult.sound.allocate (by rw [hresult.last_eq]; omega)
    (.recordText ((if dump = 0 then [] else program.memDump) ++ [0]))
  obtain ⟨hp, hrecord⟩ := hdump.sound.allocate (by rw [hdump.last_eq, hresult.last_eq]; omega)
    (.evaluation ⟨program.iterations, o.seconds, _, _, 0xdea110c⟩)
  have htrans := (hresult.trans hdump).trans hrecord
  rw [hdump.live_eq, hresult.live_eq, List.append_assoc, List.append_assoc] at htrans
  exact ⟨hp, ⟨program.iterations, o.seconds, _, _, 0xdea110c⟩, ⟨hq, hq', rfl, rfl⟩, htrans⟩

theorem evaluate_handed (o : Options) {book : Ptr} {program : Program} (options : EvaluateOptions)
    (hl : l.Sound) (hbook : l.find? book = some (.book program))
    (hroom : l.last.toNat + 0x40 < 2 ^ 64) :
    let r := evaluate o book options.interpreter options.dump l
    ∃ record, RecordOf o program record ∧
      Handed l (recordEntries r.value.ptr record (resultText o program ++ [0])
          ((if options.memDump then program.memDump else []) ++ [0]))
        (refusal? (o.evaluated program options)) r := by
  have hcount := hl.count .bookEvaluate
  have hroom' : (l.count .bookEvaluate).last.toNat + 0x40 < 2 ^ 64 := hroom
  have hrefuse := refuse_count_handed .bookEvaluate hl (by omega)
  obtain ⟨hp, record, hrecord, hbecame⟩ :=
    enterRecord_became o program options.dump hcount.sound (by omega)
  have hdump : (if options.dump = 0 then [] else program.memDump) =
      if options.memDump then program.memDump else [] := by
    cases hmem : options.memDump <;> simp [EvaluateOptions.dump, hmem]
  rw [hdump] at hbecame
  refine ⟨record, hrecord, ?_⟩
  simp only [evaluate, lookup_count _ .book hbook rfl, Options.evaluated]
  cases refusedInterpreter? o options.interpreter with
  | some message => exact hrefuse _ _
  | none =>
    by_cases hmain : (!program.hasDef "main") = true
    · simp only [if_pos hmain]
      exact hrefuse _ _
    · simp only [if_neg hmain]
      refine .of_became hcount ?_
      rw [handOver_ptr]
      cases injected o.evaluateError with
      | none => exact handOver_handed hp hbecame hroom' none
      | some message => exact handOver_handed hp hbecame hroom' (some message)

theorem serialize_handed (o : Options) {book : Ptr} {program : Program} (hl : l.Sound)
    (hbook : l.find? book = some (.book program)) (hroom : l.last.toNat + 0x40 < 2 ^ 64) :
    Handed l [((serialize o book l).value.ptr, .vec program.encode)]
      (refusal? (o.encoded program)) (serialize o book l) := by
  have hcount := hl.count .bookSerialize
  have hroom' : (l.count .bookSerialize).last.toNat + 0x10 * 2 < 2 ^ 64 := by
    change l.last.toNat + 0x10 * 2 < 2 ^ 64
    omega
  obtain ⟨hp, hbecame⟩ := hcount.sound.allocate (by omega) (.vec program.encode)
  simp only [serialize, lookup_count _ .book hbook rfl, Options.encoded]
  refine .of_became hcount ?_
  rw [handOver_ptr]
  cases injected o.serializeError with
  | none => exact handOver_handed hp hbecame hroom' none
  | some message => exact handOver_handed hp hbecame hroom' (some message)

theorem freeEvaluation_became {p : Ptr} {record : Record} {result memDump : Bytes} (hl : l.Sound)
    {before after : List (Ptr × Allocation)}
    (hlive : l.live = before ++ (recordEntries p record result memDump ++ after)) :
    l.Became 0 (before ++ after) (freeEvaluation p l).state := by
  have hcount := hl.count .freeEvaluation
  have hfind : l.find? p = some (.evaluation record) :=
    hl.find? (by simp [hlive, recordEntries])
  -- the texts go first, in the order in which they were entered
  have hresult := hcount.sound.erase (hcount.live_eq.trans hlive)
  have hdump := hresult.sound.erase hresult.live_eq
  have hrecord := hdump.sound.erase hdump.live_eq
  simp only [freeEvaluation, lookup_count _ .evaluation hfind rfl]
  exact ((hcount.trans hresult).trans hdump).trans hrecord

end EngineHost.Simulator
