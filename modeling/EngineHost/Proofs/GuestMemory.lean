import EngineHost.Guest.Memory

/-!
# The bytes of guest memory

A memory is its bytes by address. A write changes the bytes of its own range and no others, a read
depends on the bytes of its own range and on no others, and a text reaches up to the first zero byte
at or behind its address.
-/

namespace EngineHost.Guest.Memory

variable {memory memory' : Memory} {addr addr' : UInt32} {data s : Bytes} {count : Nat}

theorem length_bytes (memory : Memory) : memory.bytes.length = memory.length := by
  simp [bytes, length]

@[simp] theorem bytes_ofBytes (data : Bytes) : (ofBytes data).bytes = data := by
  simp [bytes, ofBytes]

theorem holds_iff : memory.holds addr count = true ↔
    addr.toNat + count ≤ memory.bytes.length := by
  rw [length_bytes, holds, decide_eq_true_eq]

/-- The size is reported modulo the first number that has more than 32 bits. -/
theorem size_toNat : memory.size.toNat = memory.bytes.length % 2 ^ 32 := by
  rw [length_bytes, size, UInt32.toNat_ofNat']

theorem size_le_length (memory : Memory) : memory.size.toNat ≤ memory.bytes.length := by
  rw [size_toNat]
  exact Nat.mod_le _ _

theorem read?_of_le (h : addr.toNat + count ≤ memory.bytes.length) :
    memory.read? addr count = some ((memory.bytes.drop addr.toNat).take count) := by
  rw [length_bytes, length] at h
  have hrest : min (count - (memory.front.length - addr.toNat))
      (memory.rest - (addr.toNat - memory.front.length)) =
        count - (memory.front.length - addr.toNat) := by
    omega
  rw [read?, if_pos (holds_iff.2 (by rw [length_bytes, length]; exact h)), bytes,
    List.drop_append, List.take_append, List.drop_replicate, List.take_replicate,
    List.length_drop, hrest]

theorem inside_of_read? (h : memory.read? addr count = some data) :
    addr.toNat + count ≤ memory.bytes.length := by
  unfold read? at h
  split at h
  · exact holds_iff.1 ‹_›
  · simp at h

theorem holds_of_write? (h : memory.write? addr data = some memory') :
    addr.toNat + data.length ≤ memory.bytes.length := by
  unfold write? at h
  split at h
  · exact holds_iff.1 ‹_›
  · simp at h

private theorem bytes_of_write? (h : memory.write? addr data = some memory') :
    memory'.bytes = memory.bytes.take addr.toNat ++ data ++
      memory.bytes.drop (addr.toNat + data.length) := by
  have hholds := holds_of_write? h
  rw [write?, if_pos (holds_iff.2 hholds)] at h
  rw [length_bytes, length] at hholds
  have hbefore : min (addr.toNat - memory.front.length) memory.rest =
      addr.toNat - memory.front.length := by
    omega
  rw [← Option.some.inj h]
  simp only [bytes, List.take_append, List.drop_append, List.take_replicate, List.drop_replicate,
    hbefore, List.append_assoc]

theorem length_of_write? (h : memory.write? addr data = some memory') :
    memory'.bytes.length = memory.bytes.length := by
  have hholds := holds_of_write? h
  rw [bytes_of_write? h]
  simp only [List.length_append, List.length_take, List.length_drop]
  omega

theorem exists_write? (h : addr.toNat + data.length ≤ memory.bytes.length) :
    ∃ memory', memory.write? addr data = some memory' := by
  rw [write?, if_pos (holds_iff.2 h)]
  exact ⟨_, rfl⟩

theorem getElem?_of_write? (h : memory.write? addr data = some memory') {k : Nat}
    (hk : k < addr.toNat ∨ addr.toNat + data.length ≤ k) :
    memory'.bytes[k]? = memory.bytes[k]? := by
  have hholds := holds_of_write? h
  have htake : (memory.bytes.take addr.toNat).length = addr.toNat :=
    List.length_take_of_le (by omega)
  rw [bytes_of_write? h]
  obtain hk | hk := hk
  · rw [List.append_assoc, List.getElem?_append_left (by omega), List.getElem?_take_of_lt hk]
  · have hfront : (memory.bytes.take addr.toNat ++ data).length = addr.toNat + data.length := by
      rw [List.length_append, htake]
    rw [List.getElem?_append_right (by omega), hfront, List.getElem?_drop]
    congr 1
    omega

theorem read?_of_write? (h : memory.write? addr data = some memory') :
    memory'.read? addr data.length = some data := by
  have hholds := holds_of_write? h
  have hlength := length_of_write? h
  have htake : (memory.bytes.take addr.toNat).length = addr.toNat :=
    List.length_take_of_le (by omega)
  rw [read?_of_le (by omega), bytes_of_write? h, List.append_assoc, List.drop_left' htake,
    List.take_left]

theorem read?_congr (h : addr.toNat + count ≤ memory.bytes.length)
    (h' : addr.toNat + count ≤ memory'.bytes.length)
    (hbytes : ∀ k, addr.toNat ≤ k → k < addr.toNat + count → memory'.bytes[k]? = memory.bytes[k]?) :
    memory'.read? addr count = memory.read? addr count := by
  rw [read?_of_le h, read?_of_le h']
  congr 1
  apply List.ext_getElem?
  intro k
  simp only [List.getElem?_take, List.getElem?_drop]
  split
  · exact hbytes _ (by omega) (by omega)
  · rfl

theorem read?_of_write?_apart (h : memory.write? addr data = some memory')
    (hinside : addr'.toNat + count ≤ memory.bytes.length)
    (hapart : addr'.toNat + count ≤ addr.toNat ∨ addr.toNat + data.length ≤ addr'.toNat) :
    memory'.read? addr' count = memory.read? addr' count := by
  have hlength := length_of_write? h
  apply read?_congr hinside (by omega)
  intro k hlow hhigh
  exact getElem?_of_write? h (by omega)

/-! ## Texts -/

/-- A memory that 32-bit addresses reach to the end: a text is read where the rest of the memory
holds a zero byte. A memory of the greatest size reports that it is empty, and nothing is read. -/
theorem readText?_eq (hreach : memory.bytes.length ≤ 2 ^ 32) :
    memory.readText? addr =
      if addr ≠ 0 ∧ addr < memory.size ∧ 0 ∈ memory.bytes.drop addr.toNat then
        some ((memory.bytes.drop addr.toNat).takeWhile (· != 0))
      else none := by
  by_cases hrefused : addr = 0 ∨ memory.size ≤ addr
  · rw [readText?, if_pos hrefused, if_neg]
    rintro ⟨hne, hlt, -⟩
    obtain hzero | hle := hrefused
    · exact hne hzero
    · exact absurd hlt (UInt32.not_lt.2 hle)
  · obtain ⟨hne, hlt⟩ := not_or.1 hrefused
    rw [UInt32.not_le] at hlt
    have hbelow : addr.toNat < memory.size.toNat := UInt32.lt_iff_toNat_lt.1 hlt
    -- a memory that reports a size at all reports its own
    have hsize : memory.size.toNat = memory.bytes.length := by
      rw [size_toNat] at hbelow ⊢
      omega
    have hrest : (memory.size - addr).toNat = memory.bytes.length - addr.toNat := by
      rw [UInt32.toNat_sub_of_le _ _ (UInt32.le_of_lt hlt), hsize]
    have hview : (memory.bytes.drop addr.toNat).take (memory.bytes.length - addr.toNat) =
        memory.bytes.drop addr.toNat :=
      List.take_of_length_le (Nat.le_of_eq List.length_drop)
    have hread : memory.read? addr (memory.size - addr).toNat =
        some (memory.bytes.drop addr.toNat) := by
      rw [read?_of_le (by omega), hrest, hview]
    have hany : (memory.bytes.drop addr.toNat).any (· == 0) = true ↔
        0 ∈ memory.bytes.drop addr.toNat := by
      simp
    rw [readText?, if_neg hrefused, hread, Option.bind_some]
    simp only [hany, ne_eq, hne, not_false_eq_true, hlt, true_and]

theorem readText?_full (hfull : memory.bytes.length = 2 ^ 32) : memory.readText? addr = none := by
  have hsize : memory.size = 0 := by
    rw [← UInt32.toNat_inj, size_toNat, hfull]
    rfl
  rw [readText?, if_pos (.inr (hsize ▸ UInt32.zero_le))]

/-- A text with its terminator is read up to its first zero byte, as long as the size of the
memory is a 32-bit number. -/
theorem readText?_of_read? (h : memory.read? addr (s.length + 1) = some (s ++ [0]))
    (haddr : addr ≠ 0) (hlength : memory.bytes.length < 2 ^ 32) :
    memory.readText? addr = some (s.takeWhile (· != 0)) := by
  have hinside := inside_of_read? h
  have hlt : addr < memory.size := by
    rw [UInt32.lt_iff_toNat_lt, size_toNat]
    omega
  -- the rest of the memory starts with the text
  have hview : memory.bytes.drop addr.toNat =
      s ++ 0 :: memory.bytes.drop (addr.toNat + (s.length + 1)) := by
    have hblock : (memory.bytes.drop addr.toNat).take (s.length + 1) = s ++ [0] := by
      rw [read?_of_le hinside] at h
      exact Option.some.inj h
    rw [List.append_cons, ← hblock, ← List.drop_drop, List.take_append_drop]
  rw [readText?_eq (Nat.le_of_lt hlength), if_pos ⟨haddr, hlt, by simp [hview]⟩, hview]
  simp only [List.takeWhile_append, List.takeWhile_cons, bne_self_eq_false, Bool.false_eq_true,
    if_false, List.append_nil]
  split
  · rw [(List.takeWhile_prefix _).eq_of_length ‹_›]
  · rfl

end EngineHost.Guest.Memory
