import EngineHost.Proofs.GuestAnswers
import EngineHost.Proofs.GuestMemory
import Mathlib.Data.List.TakeWhile

/-!
# Texts in guest memory

A text that the host writes is read back up to its first zero byte, and nothing else in the memory
changes. Where the guest answers with room that is not there, nothing is written and the room is
given back.
-/

namespace EngineHost.Guest

variable {γ : Type} {g : Machine γ} {i j : Instance γ} {s : Bytes} {addr : UInt32}

structure Memory.ReadsText (memory : Memory) (addr : UInt32) : Prop where
  isSome_iff : (memory.readText? addr).isSome = true ↔
    addr ≠ 0 ∧ addr < memory.size ∧ ∃ k, addr.toNat ≤ k ∧ memory.bytes[k]? = some 0
  up_to_zero : ∀ t, memory.readText? addr = some t →
    0 ∉ t ∧ ∃ rest, memory.bytes.drop addr.toNat = t ++ 0 :: rest

/-- What writing a text comes to when the guest has answered with an address and `j` is what it
left. A memory of `2 ^ 32` bytes reports that it is empty, so what is written there is not read
back. -/
structure WritesText (g : Machine γ) (s : Bytes) (i j : Instance γ) (addr : UInt32) : Prop where
  written : addr.toNat + (s.length + 1) ≤ j.memory.bytes.length →
    ∃ memory,
      writeText g s i = (some (addr, UInt32.ofNat (s.length + 1)), { j with memory }) ∧
      (UInt32.ofNat (s.length + 1)).toNat = s.length + 1 ∧
      memory.bytes.length = j.memory.bytes.length ∧
      (∀ k, k < addr.toNat ∨ addr.toNat + (s.length + 1) ≤ k →
        memory.bytes[k]? = j.memory.bytes[k]?) ∧
      (j.memory.bytes.length < 2 ^ 32 →
        memory.readText? addr = some (s.takeWhile (· != 0)) ∧
        (0 ∉ s → memory.readText? addr = some s)) ∧
      (j.memory.bytes.length = 2 ^ 32 → memory.readText? addr = none)
  refused : s.length + 1 < 2 ^ 32 → j.memory.bytes.length < addr.toNat + (s.length + 1) →
    ∃ log, writeText g s i = (none,
      { (invoke g .deallocate [addr.toUInt64, (UInt32.ofNat (s.length + 1)).toUInt64] j).2 with
        log })
  too_long : 2 ^ 32 ≤ s.length + 1 → writeText g s i = (none, i)

private theorem takeWhile_eq_append_zero {s : Bytes} (h : 0 ∈ s) :
    ∃ rest, s = s.takeWhile (· != 0) ++ 0 :: rest := by
  induction s with
  | nil => simp at h
  | cons b s ih =>
    by_cases hb : b = 0
    · subst hb
      exact ⟨s, rfl⟩
    · have htail : 0 ∈ s := by simpa [Ne.symm hb] using h
      obtain ⟨rest, hrest⟩ := ih htail
      refine ⟨rest, ?_⟩
      rw [List.takeWhile_cons_of_pos (by simpa using hb), List.cons_append, ← hrest]

private theorem mem_drop_iff {s : Bytes} {n : Nat} {b : UInt8} :
    b ∈ s.drop n ↔ ∃ k, n ≤ k ∧ s[k]? = some b := by
  rw [List.mem_iff_getElem?]
  constructor
  · rintro ⟨k, hk⟩
    rw [List.getElem?_drop] at hk
    exact ⟨n + k, Nat.le_add_right n k, hk⟩
  · rintro ⟨k, hle, hk⟩
    refine ⟨k - n, ?_⟩
    rw [List.getElem?_drop, Nat.add_sub_cancel' hle]
    exact hk

private theorem Memory.readsText {memory : Memory} (hreach : memory.bytes.length ≤ 2 ^ 32)
    (addr : UInt32) : memory.ReadsText addr where
  isSome_iff := by
    rw [readText?_eq hreach, ← mem_drop_iff]
    split <;> simp [*]
  up_to_zero t ht := by
    rw [readText?_eq hreach] at ht
    split at ht
    · rename_i hread
      obtain rfl := Option.some.inj ht
      refine ⟨?_, takeWhile_eq_append_zero hread.2.2⟩
      intro hzero
      simpa using List.mem_takeWhile_imp hzero
    · simp at ht

private theorem allocate_eq {size : UInt32} {result : UInt64}
    (hinvoke : invoke g .allocate [size.toUInt64] i = (.ok result, j))
    (hne : result.toUInt32 ≠ 0) : allocate g size i = (some result.toUInt32, j) := by
  simp only [allocate, bind, StateT.bind, hinvoke, hne, if_false]
  rfl

private theorem writeText_of_allocate (hshort : s.length + 1 < 2 ^ 32)
    (hallocate : allocate g (UInt32.ofNat (s.length + 1)) i = (some addr, j)) :
    (∀ memory, j.memory.write? addr (s ++ [0]) = some memory →
      writeText g s i = (some (addr, UInt32.ofNat (s.length + 1)), { j with memory })) ∧
    (j.memory.write? addr (s ++ [0]) = none → ∃ log, writeText g s i = (none,
      { (invoke g .deallocate [addr.toUInt64, (UInt32.ofNat (s.length + 1)).toUInt64] j).2 with
        log })) := by
  have hnot : ¬2 ^ 32 - 1 < s.length + 1 := by omega
  constructor
  · intro memory hwrite
    simp only [writeText, if_neg hnot, bind, StateT.bind, hallocate, writeMemory, hwrite, if_true]
    rfl
  · intro hwrite
    -- the failure is logged before the room goes back, and the guest does not see the log
    let logged := (complain "wazero: failed to write string to guest memory"
      [wordAttr "ptr" addr, wordAttr "len" (UInt32.ofNat (s.length + 1))] j).2.log
    obtain ⟨log, hdeallocate⟩ :=
      deallocate_eq g addr (UInt32.ofNat (s.length + 1)) { j with log := logged }
    obtain ⟨log', hinvoke⟩ := invoke_log g .deallocate
      [addr.toUInt64, (UInt32.ofNat (s.length + 1)).toUInt64] j logged
    refine ⟨log, ?_⟩
    have hwriteText : writeText g s i = (none,
        (deallocate g addr (UInt32.ofNat (s.length + 1)) { j with log := logged }).2) := by
      simp only [writeText, if_neg hnot, bind, StateT.bind, hallocate, writeMemory, hwrite]
      rfl
    rw [hwriteText, hdeallocate, hinvoke]

private theorem writesText {result : UInt64}
    (hinvoke : invoke g .allocate [(UInt32.ofNat (s.length + 1)).toUInt64] i = (.ok result, j))
    (hne : result.toUInt32 ≠ 0) (hreach : j.memory.bytes.length ≤ 2 ^ 32) :
    WritesText g s i j result.toUInt32 where
  written hroom := by
    have hpos : result.toUInt32.toNat ≠ 0 := by
      rwa [ne_eq, ← UInt32.toNat_inj] at hne
    have hshort : s.length + 1 < 2 ^ 32 := by omega
    have hlength : (s ++ [0]).length = s.length + 1 := by simp
    have hfit : result.toUInt32.toNat + (s ++ [0]).length ≤ j.memory.bytes.length := by
      rwa [hlength]
    obtain ⟨memory, hwrite⟩ := Memory.exists_write? hfit
    have hkept := Memory.length_of_write? hwrite
    refine ⟨memory, (writeText_of_allocate hshort (allocate_eq hinvoke hne)).1 memory hwrite,
      ?_, hkept, ?_, ?_, ?_⟩
    · rw [UInt32.toNat_ofNat', Nat.mod_eq_of_lt hshort]
    · intro k hk
      exact Memory.getElem?_of_write? hwrite (hlength ▸ hk)
    · intro hsized
      have hread := Memory.read?_of_write? hwrite
      rw [hlength] at hread
      have htext := Memory.readText?_of_read? hread hne (hkept ▸ hsized)
      refine ⟨htext, ?_⟩
      intro hzero
      rw [htext, List.takeWhile_eq_self_iff.2]
      intro b hb
      have hne : b ≠ 0 := by
        rintro rfl
        exact hzero hb
      simpa using hne
    · intro hfull
      exact Memory.readText?_full (hkept.trans hfull)
  refused hshort hroom := by
    apply (writeText_of_allocate hshort (allocate_eq hinvoke hne)).2
    rw [Memory.write?, if_neg]
    rw [Memory.holds_iff]
    simp only [List.length_append, List.length_singleton]
    omega
  too_long hlong := by
    have hover : 2 ^ 32 - 1 < s.length + 1 := by omega
    simp only [writeText, if_pos hover]
    rfl

/-- Texts cross guest memory unharmed: a read finds the bytes up to the first zero byte and fails
exactly if there is none, and a write is read back or leaves no trace in the memory. Only a memory
of `2 ^ 32` bytes keeps what is written and does not give it back. -/
theorem texts_cross_memory :
    (∀ (memory : Memory) (addr : UInt32), memory.bytes.length ≤ 2 ^ 32 →
      memory.ReadsText addr) ∧
    ∀ {γ : Type} (g : Machine γ) (s : Bytes) (i j : Instance γ) (result : UInt64),
      invoke g .allocate [(UInt32.ofNat (s.length + 1)).toUInt64] i = (.ok result, j) →
      result.toUInt32 ≠ 0 → j.memory.bytes.length ≤ 2 ^ 32 →
      WritesText g s i j result.toUInt32 :=
  ⟨fun _ addr hreach => Memory.readsText hreach addr,
    fun _ _ _ _ _ hinvoke hne hreach => writesText hinvoke hne hreach⟩

/-- A guest that answers every call with the same address. -/
def oneTrack : Machine Unit where
  run _ _ _ _ := { outcome := .ok [8], state := () }

/-- Sixteen bytes without a zero byte. -/
def crowded : Instance Unit where
  guest := ()
  memory := .ofBytes (List.replicate 16 7)
  stderr := { limit := 0 }

theorem texts_cross_memory_crowded :
    let left (s : Bytes) : Instance Unit :=
      (invoke oneTrack .allocate [(UInt32.ofNat (s.length + 1)).toUInt64] crowded).2
    (crowded.memory.readText? 8).isSome = false ∧
      (∃ memory, writeText oneTrack [1, 0, 2] crowded =
          (some (8, 4), { left [1, 0, 2] with memory }) ∧
        memory.readText? 8 = some [1]) ∧
      ∃ log, writeText oneTrack (List.replicate 8 1) crowded = (none,
        { (invoke oneTrack .deallocate [8, 9] (left (List.replicate 8 1))).2 with log }) := by
  intro left
  obtain ⟨hread, hwrite⟩ := texts_cross_memory
  refine ⟨?_, ?_, ?_⟩
  · have hnone := (hread crowded.memory 8 (by decide)).isSome_iff
    rw [← mem_drop_iff] at hnone
    rw [Bool.eq_false_iff, ne_eq, hnone]
    decide
  · obtain ⟨memory, hmemory, -, -, -, htext, -⟩ := (hwrite oneTrack [1, 0, 2] crowded
      (left [1, 0, 2]) 8 rfl (by decide) (by decide)).written (by decide)
    exact ⟨memory, hmemory, (htext (by decide)).1⟩
  · exact (hwrite oneTrack (List.replicate 8 1) crowded (left (List.replicate 8 1)) 8 rfl
      (by decide) (by decide)).refused (by decide) (by decide)

/-- A memory of the greatest size. -/
def spacious : Instance Unit where
  guest := ()
  memory := .filled 65536 0
  stderr := { limit := 0 }

/-- Where the room lies inside a memory of the greatest size, a text is written and then not
read. -/
theorem text_lost_spacious :
    let j : Instance Unit := (invoke oneTrack .allocate [3] spacious).2
    invoke oneTrack .allocate [3] spacious = (.ok 8, j) ∧
      8 + 3 ≤ j.memory.bytes.length ∧
      ∃ memory, writeText oneTrack "hi" spacious = (some (8, 3), { j with memory }) ∧
        memory.readText? 8 = none ∧
        memory.readText? 8 ≠ some (List.takeWhile (· != 0) "hi") := by
  have hnone : (spacious.memory.store 8 [0x68, 0x69, 0]).readText? 8 = none := by decide +kernel
  refine ⟨rfl, ?_, spacious.memory.store 8 [0x68, 0x69, 0], rfl, hnone, by simp [hnone]⟩
  rw [Memory.length_bytes]
  decide +kernel

end EngineHost.Guest
