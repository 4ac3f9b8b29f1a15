import EngineHost.Guest.Loading
import EngineHost.Proofs.GuestMemory
import Mathlib.Logic.Function.Basic
import Mathlib.Tactic.SplitIfs

/-!
# Announced log lines

A word and the range that it announces determine each other. A range that is short enough and lies
inside the memory is forwarded as it is, and of any other nothing is read, also where the sum of its
address and its length has more than 32 bits.
-/

namespace EngineHost.Guest

variable {limit addr : UInt32} {word : UInt64} {m : Memory} {memory : Option Memory}

/-! ## Words and ranges -/

private theorem toNat_packRange (addr length : UInt32) :
    (packRange addr length).toNat = addr.toNat * 2 ^ 32 + length.toNat := by
  have haddr := addr.toNat_lt
  have hamount : (32 : UInt64).toNat % 64 = 32 := rfl
  have hfits : addr.toNat * 2 ^ 32 < 2 ^ 64 := by omega
  rw [packRange, UInt64.toNat_or, UInt64.toNat_shiftLeft, UInt32.toNat_toUInt64,
    UInt32.toNat_toUInt64, hamount, Nat.shiftLeft_eq, Nat.mod_eq_of_lt hfits, ← Nat.shiftLeft_eq,
    ← Nat.shiftLeft_add_eq_or_of_lt length.toNat_lt]

private theorem toNat_unpackRange (word : UInt64) :
    (unpackRange word).1.toNat = word.toNat / 2 ^ 32 ∧
      (unpackRange word).2.toNat = word.toNat % 2 ^ 32 := by
  have hword := word.toNat_lt
  have hamount : (32 : UInt64).toNat % 64 = 32 := rfl
  have hmask : (0xffffffff : UInt64).toNat = 2 ^ 32 - 1 := rfl
  constructor
  · rw [unpackRange, UInt64.toNat_toUInt32, UInt64.toNat_shiftRight, hamount,
      Nat.shiftRight_eq_div_pow]
    omega
  · rw [unpackRange, UInt64.toNat_toUInt32, UInt64.toNat_and, hmask,
      Nat.and_two_pow_sub_one_eq_mod, Nat.mod_mod]

private theorem unpackRange_packRange (addr length : UInt32) :
    unpackRange (packRange addr length) = (addr, length) := by
  have hlength := length.toNat_lt
  obtain ⟨hfirst, hsecond⟩ := toNat_unpackRange (packRange addr length)
  rw [toNat_packRange] at hfirst hsecond
  have haddr : (unpackRange (packRange addr length)).1.toNat = addr.toNat := by omega
  have hrest : (unpackRange (packRange addr length)).2.toNat = length.toNat := by omega
  exact Prod.ext (UInt32.toNat_inj.1 haddr) (UInt32.toNat_inj.1 hrest)

private theorem packRange_unpackRange (word : UInt64) :
    packRange (unpackRange word).1 (unpackRange word).2 = word := by
  obtain ⟨hfirst, hsecond⟩ := toNat_unpackRange word
  rw [← UInt64.toNat_inj, toNat_packRange, hfirst, hsecond]
  omega

/-! ## Records of announced lines -/

/-- The announced range is short enough, and there is a memory that holds all of it. -/
def InReach (limit : UInt32) (memory : Option Memory) (word : UInt64) : Prop :=
  (unpackRange word).2 ≤ limit ∧ ∃ m, memory = some m ∧
    (unpackRange word).1.toNat + (unpackRange word).2.toNat ≤ m.bytes.length

/-- The record of a range that is not read. What the memory holds does not matter for it. -/
def refusal (limit : UInt32) (hasMemory : Bool) (word : UInt64) : Log.Record :=
  let (addr, length) := unpackRange word
  if limit < length then
    ⟨.error, "wazero: guest log line too large", [wordAttr "size" length, wordAttr "max" limit]⟩
  else if hasMemory then
    ⟨.error, "wazero: failed to read guest log line", [wordAttr "ptr" addr, wordAttr "len" length]⟩
  else ⟨.error, "wazero: guest log line from a module without memory", []⟩

private theorem refusal_level (limit : UInt32) (hasMemory : Bool) (word : UInt64) :
    (refusal limit hasMemory word).level = .error := by
  simp only [refusal]
  split_ifs <;> rfl

private theorem refusal_ne_forward (limit : UInt32) (hasMemory : Bool) (word : UInt64)
    (line : Bytes) :
    refusal limit hasMemory word ≠ Log.forward line := by
  have hforward : ∃ a ∈ (Log.forward line).attrs.head?, a.key = "payload" ∨ a.key = "origin" := by
    rw [Log.forward]
    split <;> simp
  intro h
  rw [← h] at hforward
  obtain ⟨a, ha, hkey⟩ := hforward
  simp only [refusal] at ha
  split_ifs at ha <;> cases ha <;> revert hkey <;> simp only [wordAttr] <;> decide

private theorem logLine_of_inReach (hshort : (unpackRange word).2 ≤ limit)
    (hinside : (unpackRange word).1.toNat + (unpackRange word).2.toNat ≤ m.bytes.length) :
    logLine limit (some m) word = Log.forward
      ((m.bytes.drop (unpackRange word).1.toNat).take (unpackRange word).2.toNat) := by
  simp only [logLine, logLineFrom, Option.map_some, Memory.read?_of_le hinside]
  rw [if_neg (UInt32.not_lt.2 hshort)]

private theorem logLine_of_not_inReach (h : ¬InReach limit memory word) :
    logLine limit memory word = refusal limit memory.isSome word := by
  by_cases hlong : limit < (unpackRange word).2
  · simp only [logLine, logLineFrom, refusal, hlong, if_true]
  · cases memory with
    | none => simp [logLine, logLineFrom, refusal, hlong]
    | some m =>
      have hunread : m.read? (unpackRange word).1 (unpackRange word).2.toNat = none := by
        rw [Memory.read?, if_neg]
        rw [Memory.holds_iff]
        exact fun hinside => h ⟨UInt32.not_lt.1 hlong, m, rfl, hinside⟩
      simp [logLine, logLineFrom, refusal, hlong, hunread]

/-- What becomes of an announced line: it is forwarded just if it is in reach, byte by byte, and
otherwise refused without a look at the memory. -/
structure Announced (limit : UInt32) (memory : Option Memory) (word : UInt64) (r : Log.Record) :
    Prop where
  forwarded_iff : (∃ line, r = Log.forward line) ↔ InReach limit memory word
  forwarded : ∀ m, memory = some m → InReach limit memory word →
    ∃ text, r = Log.forward text ∧ text.length = (unpackRange word).2.toNat ∧
      ∀ k < text.length, text[k]? = m.bytes[(unpackRange word).1.toNat + k]?
  refused : ¬InReach limit memory word → r = refusal limit memory.isSome word ∧ r.level = .error

private theorem announced_logLine (limit : UInt32) (memory : Option Memory) (word : UInt64) :
    Announced limit memory word (logLine limit memory word) where
  forwarded_iff := by
    constructor
    · rintro ⟨line, hline⟩
      by_contra hout
      rw [logLine_of_not_inReach hout] at hline
      exact refusal_ne_forward _ _ _ _ hline
    · rintro ⟨hshort, m, rfl, hinside⟩
      exact ⟨_, logLine_of_inReach hshort hinside⟩
  forwarded := by
    rintro m rfl ⟨hshort, m', hm, hinside⟩
    obtain rfl := Option.some.inj hm
    refine ⟨_, logLine_of_inReach hshort hinside, ?_, ?_⟩
    · rw [List.length_take, List.length_drop]
      omega
    · intro k hk
      rw [List.length_take] at hk
      rw [List.getElem?_take_of_lt (by omega), List.getElem?_drop]
  refused hout := by
    rw [logLine_of_not_inReach hout]
    exact ⟨rfl, refusal_level _ _ _⟩

/-- A line that stands in memory is forwarded unchanged. -/
theorem logLine_of_standing {front line rest : Bytes} (hbytes : m.bytes = front ++ line ++ rest)
    (haddr : addr.toNat = front.length) (hshort : line.length ≤ limit.toNat) :
    logLine limit (some m) (packRange addr (UInt32.ofNat line.length)) = Log.forward line := by
  have hlength : (UInt32.ofNat line.length).toNat = line.length :=
    UInt32.toNat_ofNat_of_lt' (Nat.lt_of_le_of_lt hshort limit.toNat_lt)
  rw [logLine_of_inReach] <;> rw [unpackRange_packRange]
  · simp [hlength, haddr, hbytes]
  · rwa [UInt32.le_iff_toNat_le, hlength]
  · simp only [hlength, haddr, hbytes, List.length_append]
    omega

/-! ## The places where lines are announced -/

private theorem read?_toBytes (m : Wasm.LinearMemory) (addr : UInt32) (count : Nat) :
    (Memory.ofBytes m.toBytes).read? addr count = m.read? addr.toNat count := by
  have hlength : (Memory.ofBytes m.toBytes).bytes.length = m.size := by
    rw [Memory.bytes_ofBytes, Wasm.LinearMemory.toBytes, List.length_map, List.length_range]
  by_cases hinside : addr.toNat + count ≤ m.size
  · rw [Memory.read?_of_le (by simpa only [hlength] using hinside), Wasm.LinearMemory.read?,
      if_pos hinside]
    congr 1
    apply List.ext_getElem
    · simp only [List.length_take, List.length_drop, List.length_map, List.length_range, hlength]
      omega
    · intro k _ _
      simp [Wasm.LinearMemory.toBytes]
  · rw [Memory.read?, if_neg, Wasm.LinearMemory.read?, if_neg hinside]
    rwa [Memory.holds_iff, hlength]

def loadingMemory (m : Wasm.Module) (s : Wasm.Store) : Option Memory :=
  if exportsMemory m then s.memory.map fun memory => .ofBytes memory.toBytes else none

private theorem loadingHost_call (o : LoadOptions) (m : Wasm.Module) {source : Bytes} (name : Bytes)
    (word : UInt64) (s : Wasm.Store) (e : Effects) (hsource : source ≠ systemName) :
    (loadingHost o m).call source name [.i64 word.toBitVec] s e =
      (.results [], s,
        { e with log := e.log ++ [logLine o.maxLog (loadingMemory m s) word] }) := by
  have hread : (loadingMemory m s).map Memory.read? =
      if exportsMemory m then
        s.memory.map fun memory => fun (addr : UInt32) count => memory.read? addr.toNat count
      else none := by
    rw [loadingMemory]
    split_ifs
    · rw [Option.map_map]
      congr 1
      funext memory addr count
      exact read?_toBytes memory addr count
    · rfl
  simp only [loadingHost, Listener.host, if_pos hsource, logLine, hread]
  rfl

/-- Words and ranges determine each other. A guest that announces a line, in a call or while it is
loaded, makes the host emit one record, which carries the line just if it is in reach; so a line
that stands in memory and is not too long is forwarded unchanged. -/
theorem log_lines_addressed :
    (Function.LeftInverse unpackRange fun r => packRange r.1 r.2) ∧
    (Function.RightInverse unpackRange fun r => packRange r.1 r.2) ∧
    (∀ {γ : Type} (limit : UInt32) (i : Instance γ) (word : UInt64),
      ∃ r, i.apply limit (.log word) = { i with log := i.log ++ [r] } ∧
        Announced limit (some i.memory) word r) ∧
    (∀ (o : LoadOptions) (m : Wasm.Module) (source name : Bytes) (word : UInt64) (s : Wasm.Store)
      (e : Effects), source ≠ systemName →
      ∃ r, (loadingHost o m).call source name [.i64 word.toBitVec] s e =
          (.results [], s, { e with log := e.log ++ [r] }) ∧
        Announced o.maxLog (loadingMemory m s) word r) ∧
    ∀ {γ : Type} (limit addr : UInt32) (i : Instance γ) (front line rest : Bytes),
      i.memory.bytes = front ++ line ++ rest → addr.toNat = front.length →
      line.length ≤ limit.toNat →
      i.apply limit (.log (packRange addr (UInt32.ofNat line.length))) =
        { i with log := i.log ++ [Log.forward line] } := by
  refine ⟨fun r => unpackRange_packRange r.1 r.2, packRange_unpackRange, ?_, ?_, ?_⟩
  · intro γ limit i word
    exact ⟨_, rfl, announced_logLine limit (some i.memory) word⟩
  · intro o m source name word s e hsource
    exact ⟨_, loadingHost_call o m name word s e hsource, announced_logLine _ _ _⟩
  · intro γ limit addr i front line rest hmemory haddr hshort
    have hline := logLine_of_standing hmemory haddr hshort
    exact congrArg (fun r => { i with log := i.log ++ [r] }) hline

/-- A line that ends where the memory ends and is as long as allowed. The range of the second word
would lie inside the memory if its end were taken modulo `2 ^ 32`, and the module that is loaded has
no memory. -/
theorem log_lines_addressed_edge :
    let i : Instance Unit :=
      { guest := (), memory := .ofBytes "guesthello!", stderr := { limit := 0 } }
    i.apply 6 (.log (packRange 5 6)) = { i with log := i.log ++ [Log.forward "hello!"] } ∧
      (∃ r, i.apply 6 (.log (packRange 0xffffffff 6)) = { i with log := i.log ++ [r] } ∧
        r = refusal 6 true (packRange 0xffffffff 6)) ∧
      ∃ r, (loadingHost {} {}).call "hvm_host" "log_message"
          [.i64 (packRange 0 0).toBitVec] {} {} = (.results [], {}, { log := [r] }) ∧
        r = refusal 65536 false (packRange 0 0) := by
  intro i
  obtain ⟨-, -, hcall, hloading, hstanding⟩ := log_lines_addressed
  refine ⟨hstanding 6 5 i "guest" "hello!" [] (by decide) (by decide) (by decide), ?_, ?_⟩
  · obtain ⟨r, happly, hannounced⟩ := hcall 6 i (packRange 0xffffffff 6)
    refine ⟨r, happly, (hannounced.refused ?_).1⟩
    rintro ⟨-, m, hm, hinside⟩
    obtain rfl := Option.some.inj hm
    revert hinside
    decide
  · obtain ⟨r, hcalled, hannounced⟩ :=
      hloading {} {} "hvm_host" "log_message" (packRange 0 0) {} {} (by decide)
    refine ⟨r, hcalled, (hannounced.refused ?_).1⟩
    rintro ⟨-, m, hm, -⟩
    cases hm

end EngineHost.Guest
