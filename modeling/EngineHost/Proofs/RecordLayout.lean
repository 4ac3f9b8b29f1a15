import EngineHost.Proofs.GuestMemory

/-!
# The layout of evaluation records

The five fields of a record tile its 28 bytes. One check of the whole range is enough for every
field, whose addresses do not wrap around, and what is read depends on these bytes alone.
-/

namespace EngineHost.Bytes

private theorem length_toLittleEndian (width n : Nat) :
    (toLittleEndian width n).length = width := by
  induction width generalizing n with
  | zero => rfl
  | succ width ih => rw [toLittleEndian, List.length_cons, ih]

private theorem littleEndian_toLittleEndian {width n : Nat} (h : n < 256 ^ width) :
    littleEndian (toLittleEndian width n) = n := by
  induction width generalizing n with
  | zero =>
    rw [Nat.pow_zero, Nat.lt_one_iff] at h
    rw [h]
    rfl
  | succ width ih =>
    have hrest : n / 256 < 256 ^ width := by
      rw [Nat.pow_succ] at h
      exact Nat.div_lt_of_lt_mul (Nat.mul_comm _ _ ▸ h)
    have hbyte : (n % 256).toUInt8.toNat = n % 256 := by
      simp
    rw [toLittleEndian, littleEndian, ih hrest, hbyte, Nat.mod_add_div]

end EngineHost.Bytes

namespace EngineHost.Guest

/-- A record as a guest writes it, whose addresses are 32-bit numbers. -/
structure GuestRecord where
  iterations : UInt64
  seconds : Binary64
  result : UInt32
  memDump : UInt32
  deallocator : UInt32

namespace GuestRecord

def toRecord (r : GuestRecord) : Record :=
  ⟨r.iterations, r.seconds, r.result.toUInt64, r.memDump.toUInt64, r.deallocator.toUInt64⟩

/-- The fields in memory: their offsets and their bytes. -/
def fields (r : GuestRecord) : List (UInt32 × Bytes) :=
  [(0, Bytes.toLittleEndian 8 r.iterations.toNat), (8, Bytes.toLittleEndian 8 r.seconds.bits.toNat),
    (16, Bytes.toLittleEndian 4 r.result.toNat), (20, Bytes.toLittleEndian 4 r.memDump.toNat),
    (24, Bytes.toLittleEndian 4 r.deallocator.toNat)]

def Apart (f f' : UInt32 × Bytes) : Prop :=
  f.1.toNat + f.2.length ≤ f'.1.toNat ∨ f'.1.toNat + f'.2.length ≤ f.1.toNat

private theorem pairwise_fields (r : GuestRecord) : r.fields.Pairwise Apart := by
  simp [fields, Apart, Bytes.length_toLittleEndian]

private theorem inside_of_mem_fields {r : GuestRecord} {f : UInt32 × Bytes} (h : f ∈ r.fields) :
    f.1.toNat + f.2.length ≤ Memory.recordSize := by
  simp only [fields, List.mem_cons, List.not_mem_nil, or_false] at h
  rcases h with rfl | rfl | rfl | rfl | rfl <;>
    simp [Bytes.length_toLittleEndian, Memory.recordSize]

end GuestRecord

namespace Memory

variable {memory memory' : Memory} {addr offset : UInt32} {width : Nat}

def recordFields : List (UInt32 × Nat) := [(0, 8), (8, 8), (16, 4), (20, 4), (24, 4)]

def HasRecord (memory : Memory) (addr : UInt32) : Prop :=
  addr ≠ 0 ∧ addr.toNat + recordSize ≤ memory.size.toNat

/-- Writes fields behind an address. -/
def writeFields? (memory : Memory) (addr : UInt32) : List (UInt32 × Bytes) → Option Memory
  | [] => some memory
  | f :: rest => (memory.write? (addr + f.1) f.2).bind fun memory => memory.writeFields? addr rest

namespace HasRecord

theorem toNat_add (h : memory.HasRecord addr) (hoffset : offset.toNat ≤ recordSize) :
    (addr + offset).toNat = addr.toNat + offset.toNat := by
  have hsize : memory.size.toNat < 2 ^ 32 := UInt32.toNat_lt _
  have hend := h.2
  rw [UInt32.toNat_add]
  apply Nat.mod_eq_of_lt
  omega

theorem inside (h : memory.HasRecord addr) (hoffset : offset.toNat + width ≤ recordSize) :
    (addr + offset).toNat + width ≤ memory.bytes.length := by
  have hend := h.2
  have hsize := size_le_length memory
  rw [h.toNat_add (by omega)]
  omega

private theorem of_write? {data : Bytes} (h : memory.HasRecord addr)
    (hwrite : memory.write? (addr + offset) data = some memory') : memory'.HasRecord addr := by
  have hsize : memory'.size = memory.size := by
    rw [size, size, ← length_bytes, ← length_bytes, length_of_write? hwrite]
  exact ⟨h.1, hsize ▸ h.2⟩

/-- Every field that is written keeps its bytes, because no other shares one of them. -/
theorem writeFields? (h : memory.HasRecord addr) {fields : List (UInt32 × Bytes)}
    (hapart : fields.Pairwise GuestRecord.Apart)
    (hinside : ∀ f ∈ fields, f.1.toNat + f.2.length ≤ recordSize) :
    ∃ memory', memory.writeFields? addr fields = some memory' ∧ memory'.HasRecord addr ∧
      (∀ f ∈ fields, memory'.read? (addr + f.1) f.2.length = some f.2) ∧
      ∀ f : UInt32 × Bytes, f.1.toNat + f.2.length ≤ recordSize →
        (∀ f' ∈ fields, GuestRecord.Apart f f') →
        memory'.read? (addr + f.1) f.2.length = memory.read? (addr + f.1) f.2.length := by
  induction fields generalizing memory with
  | nil => exact ⟨memory, rfl, h, by simp, fun _ _ _ => rfl⟩
  | cons f fields ih =>
    rw [List.pairwise_cons] at hapart
    simp only [List.mem_cons, forall_eq_or_imp] at hinside ⊢
    obtain ⟨memory₁, hwrite⟩ := exists_write? (h.inside hinside.1)
    obtain ⟨memory', hrest, hrecord, hread, hkept⟩ :=
      ih (h.of_write? hwrite) hapart.2 hinside.2
    refine ⟨memory', ?_, hrecord, ⟨?_, hread⟩, ?_⟩
    · rw [Memory.writeFields?, hwrite, Option.bind_some, hrest]
    · rw [hkept f hinside.1 hapart.1]
      exact read?_of_write? hwrite
    · intro f' hf' hothers
      rw [hkept f' hf' hothers.2]
      apply read?_of_write?_apart hwrite (h.inside hf')
      rw [h.toNat_add (by omega), h.toNat_add (by omega)]
      obtain hbefore | hbehind := hothers.1
      · exact .inl (by omega)
      · exact .inr (by omega)

end HasRecord

private theorem readRecord?_of_not_hasRecord (h : ¬memory.HasRecord addr) :
    memory.readRecord? addr = none := by
  have hrefused : addr = 0 ∨ memory.size.toNat < addr.toNat + recordSize := by
    by_cases hzero : addr = 0
    · exact .inl hzero
    · exact .inr (Nat.lt_of_not_le fun hend => h ⟨hzero, hend⟩)
  rw [readRecord?, if_pos hrefused]

/-- A record put together from the numbers that are read at its fields. -/
def assemble? (read : UInt32 → Nat → Option Nat) : Option Record := do
  let iterations ← read 0 8
  let seconds ← read 8 8
  let result ← read 16 4
  let memDump ← read 20 4
  let deallocator ← read 24 4
  return ⟨UInt64.ofNat iterations, ⟨UInt64.ofNat seconds⟩, UInt64.ofNat result,
    UInt64.ofNat memDump, UInt64.ofNat deallocator⟩

private theorem assemble?_congr {read read' : UInt32 → Nat → Option Nat}
    (h : ∀ f ∈ recordFields, read f.1 f.2 = read' f.1 f.2) : assemble? read = assemble? read' := by
  simp only [recordFields, List.forall_mem_cons] at h
  obtain ⟨h0, h8, h16, h20, h24, -⟩ := h
  simp only [assemble?, h0, h8, h16, h20, h24]

private theorem inside_of_mem_recordFields {f : UInt32 × Nat} (h : f ∈ recordFields) :
    f.1.toNat + f.2 ≤ recordSize := by
  revert f
  decide

namespace HasRecord

private theorem readRecord?_eq (h : memory.HasRecord addr) :
    memory.readRecord? addr =
      assemble? fun offset width => memory.readNat? (addr + offset) width := by
  have hnot : ¬(addr = 0 ∨ memory.size.toNat < addr.toNat + recordSize) := by
    rintro (hzero | hshort)
    · exact h.1 hzero
    · exact Nat.not_lt.2 h.2 hshort
  rw [readRecord?, if_neg hnot, assemble?, UInt32.add_zero]

/-- One check of the whole range is enough for every field. -/
theorem readNat?_field (h : memory.HasRecord addr) {f : UInt32 × Nat} (hf : f ∈ recordFields) :
    memory.readNat? (addr + f.1) f.2 =
      some (Bytes.littleEndian ((memory.bytes.drop (addr + f.1).toNat).take f.2)) := by
  rw [readNat?, read?_of_le (h.inside (inside_of_mem_recordFields hf)), Option.map_some]

private theorem isSome_readRecord? (h : memory.HasRecord addr) :
    (memory.readRecord? addr).isSome = true := by
  have hfields : (assemble? fun offset width => memory.readNat? (addr + offset) width) =
      assemble? fun offset width =>
        some (Bytes.littleEndian ((memory.bytes.drop (addr + offset).toNat).take width)) :=
    assemble?_congr fun f hf => h.readNat?_field hf
  rw [h.readRecord?_eq, hfields]
  rfl

private theorem readRecord?_congr (h : memory.HasRecord addr) (h' : memory'.HasRecord addr)
    (hbytes : ∀ k, addr.toNat ≤ k → k < addr.toNat + recordSize →
      memory'.bytes[k]? = memory.bytes[k]?) :
    memory'.readRecord? addr = memory.readRecord? addr := by
  rw [h.readRecord?_eq, h'.readRecord?_eq]
  apply assemble?_congr
  intro f hf
  have hinside := inside_of_mem_recordFields hf
  have hfield : memory'.read? (addr + f.1) f.2 = memory.read? (addr + f.1) f.2 := by
    apply read?_congr (h.inside hinside) (h'.inside hinside)
    rw [h.toNat_add (by omega)]
    intro k hlow hhigh
    exact hbytes k (by omega) (by omega)
  rw [readNat?, readNat?, hfield]

end HasRecord

private theorem readNat?_of_read? {place : UInt32} {n : Nat} (hn : n < 256 ^ width)
    (h : memory.read? place (Bytes.toLittleEndian width n).length =
      some (Bytes.toLittleEndian width n)) : memory.readNat? place width = some n := by
  rw [Bytes.length_toLittleEndian] at h
  rw [readNat?, h, Option.map_some, Bytes.littleEndian_toLittleEndian hn]

private theorem HasRecord.readRecord?_of_fields (h : memory.HasRecord addr) {r : GuestRecord}
    (hfields : ∀ f ∈ r.fields, memory.read? (addr + f.1) f.2.length = some f.2) :
    memory.readRecord? addr = some r.toRecord := by
  simp only [GuestRecord.fields, List.forall_mem_cons] at hfields
  obtain ⟨h0, h8, h16, h20, h24, -⟩ := hfields
  have hiterations := readNat?_of_read? r.iterations.toNat_lt h0
  have hseconds := readNat?_of_read? r.seconds.bits.toNat_lt h8
  have hresult := readNat?_of_read? r.result.toNat_lt h16
  have hmemDump := readNat?_of_read? r.memDump.toNat_lt h20
  have hdeallocator := readNat?_of_read? r.deallocator.toNat_lt h24
  rw [h.readRecord?_eq, assemble?, hiterations, hseconds, hresult, hmemDump, hdeallocator]
  simp [GuestRecord.toRecord]

/-- A record can be read exactly where its whole range lies inside the size that the memory
reports, which is none for a memory of `2 ^ 32` bytes; then every field does, what was written field
by field is read, and no other byte has a bearing on it. -/
theorem record_layout (memory : Memory) (addr : UInt32) :
    ((memory.readRecord? addr).isSome = true ↔
      addr ≠ 0 ∧ addr.toNat + 28 ≤ memory.size.toNat) ∧
    (addr ≠ 0 ∧ addr.toNat + 28 ≤ memory.size.toNat →
      (∀ f ∈ recordFields, (addr + f.1).toNat = addr.toNat + f.1.toNat ∧
        addr.toNat + f.1.toNat + f.2 ≤ memory.bytes.length ∧
        (memory.readNat? (addr + f.1) f.2).isSome = true) ∧
      (∀ r : GuestRecord, ∃ memory', memory.writeFields? addr r.fields = some memory' ∧
        memory'.readRecord? addr = some r.toRecord) ∧
      ∀ memory' : Memory, addr.toNat + 28 ≤ memory'.size.toNat →
        (∀ k, addr.toNat ≤ k → k < addr.toNat + 28 → memory'.bytes[k]? = memory.bytes[k]?) →
        memory'.readRecord? addr = memory.readRecord? addr) := by
  refine ⟨⟨?_, fun h => HasRecord.isSome_readRecord? h⟩, ?_⟩
  · intro hsome
    refine Classical.byContradiction fun hnot => ?_
    rw [readRecord?_of_not_hasRecord hnot] at hsome
    simp at hsome
  · intro h
    have hrecord : memory.HasRecord addr := h
    refine ⟨?_, ?_, ?_⟩
    · intro f hf
      have hfit := inside_of_mem_recordFields hf
      have hinside := hrecord.inside hfit
      have hadd := hrecord.toNat_add (show f.1.toNat ≤ recordSize by omega)
      refine ⟨hadd, by omega, ?_⟩
      rw [hrecord.readNat?_field hf]
      rfl
    · intro r
      obtain ⟨memory', hwrite, hrecord', hread, -⟩ :=
        hrecord.writeFields? r.pairwise_fields fun _ => GuestRecord.inside_of_mem_fields
      exact ⟨memory', hwrite, hrecord'.readRecord?_of_fields hread⟩
    · intro memory' hend hbytes
      exact hrecord.readRecord?_congr ⟨h.1, hend⟩ hbytes

/-- The last place in a memory where a record fits. -/
theorem record_layout_last :
    let memory : Memory := .ofBytes (List.replicate 48 0xff)
    let r : GuestRecord := ⟨0xffffffffffffffff, ⟨0x7ff8000000000001⟩, 1, 0, 0xffffffff⟩
    (memory.readRecord? 20).isSome = true ∧ (memory.readRecord? 21).isSome = false ∧
      ∃ memory', memory.writeFields? 20 r.fields = some memory' ∧
        memory'.readRecord? 20 = some r.toRecord := by
  intro memory r
  have hlast := record_layout memory 20
  have hbeyond := (record_layout memory 21).1
  refine ⟨hlast.1.2 (by decide), ?_, (hlast.2 (by decide)).2.1 r⟩
  rw [Bool.eq_false_iff, ne_eq, hbeyond]
  decide

end Memory

end EngineHost.Guest
