import EngineHost.Proofs.EncodedLength

/-!
# Well-formed text

Reading at the front of a byte string undoes the encoding of a character, so a byte string is
well-formed exactly when it is the encoding of its characters, and then there is nothing to repair.
-/

namespace EngineHost.Utf8

private theorem isTail_iff {b : UInt8} : isTail b = true ↔ 0x80 ≤ b.toNat ∧ b.toNat ≤ 0xbf := by
  simp only [isTail, Bool.and_eq_true, decide_eq_true_eq, UInt8.le_iff_toNat_le,
    UInt8.reduceToNat]

private theorem fits_iff {a b : UInt8} :
    fits a b = true ↔ 0x80 ≤ b.toNat ∧ b.toNat ≤ 0xbf ∧ (a.toNat = 0xe0 → 0xa0 ≤ b.toNat) ∧
      (a.toNat = 0xed → b.toNat ≤ 0x9f) ∧ (a.toNat = 0xf0 → 0x90 ≤ b.toNat) ∧
      (a.toNat = 0xf4 → b.toNat ≤ 0x8f) := by
  simp only [fits, secondRange, ← UInt8.toNat_inj, UInt8.reduceToNat]
  split_ifs <;> simp only [Bool.and_eq_true, decide_eq_true_eq, UInt8.le_iff_toNat_le,
    UInt8.reduceToNat] <;> omega

theorem width_eq (a : UInt8) :
    width a = if a.toNat < 0x80 then 1 else if 0xc2 ≤ a.toNat ∧ a.toNat ≤ 0xdf then 2
      else if 0xe0 ≤ a.toNat ∧ a.toNat ≤ 0xef then 3
      else if 0xf0 ≤ a.toNat ∧ a.toNat ≤ 0xf4 then 4 else 0 := by
  simp only [width, UInt8.lt_iff_toNat_lt, UInt8.le_iff_toNat_le, UInt8.reduceToNat]

theorem front?_encode (c : Char) (rest : Bytes) :
    front? (encode c ++ rest) = some (c.toNat, (encode c).length) := by
  have hvalid : c.toNat < 0xd800 ∨ 0xdfff < c.toNat ∧ c.toNat < 0x110000 := c.valid
  have hval : c.val.toNat = c.toNat := rfl
  simp only [encode, String.utf8EncodeChar, hval]
  generalize c.toNat = v at *
  split_ifs with hone htwo hthree
  · have hw : width (UInt8.ofNat v) = 1 := by
      rw [width_eq, UInt8.toNat_ofNat', if_pos (by omega)]
    simp only [List.cons_append, List.nil_append, front?, hw, UInt8.toNat_ofNat', List.length_cons,
      List.length_nil, Option.some.injEq, Prod.mk.injEq, and_true]
    omega
  · have hw : width (UInt8.ofNat (v / 64 % 32 + 192)) = 2 := by
      rw [width_eq, UInt8.toNat_ofNat', if_neg (by omega), if_pos (by omega)]
    have ht : isTail (UInt8.ofNat (v % 64 + 128)) = true := by
      rw [isTail_iff, UInt8.toNat_ofNat']
      omega
    simp only [List.cons_append, List.nil_append, front?, hw, ht, if_true, UInt8.toNat_ofNat',
      List.length_cons, List.length_nil, Option.some.injEq, Prod.mk.injEq, and_true]
    omega
  · have hw : width (UInt8.ofNat (v / 4096 % 16 + 224)) = 3 := by
      rw [width_eq, UInt8.toNat_ofNat', if_neg (by omega), if_neg (by omega), if_pos (by omega)]
    have hf :
        fits (UInt8.ofNat (v / 4096 % 16 + 224)) (UInt8.ofNat (v / 64 % 64 + 128)) = true := by
      rw [fits_iff, UInt8.toNat_ofNat', UInt8.toNat_ofNat']
      omega
    have ht : isTail (UInt8.ofNat (v % 64 + 128)) = true := by
      rw [isTail_iff, UInt8.toNat_ofNat']
      omega
    simp only [List.cons_append, List.nil_append, front?, hw, hf, ht, Bool.and_self, if_true,
      UInt8.toNat_ofNat', List.length_cons, List.length_nil, Option.some.injEq, Prod.mk.injEq,
      and_true]
    omega
  · have hw : width (UInt8.ofNat (v / 262144 % 8 + 240)) = 4 := by
      rw [width_eq, UInt8.toNat_ofNat', if_neg (by omega), if_neg (by omega), if_neg (by omega),
        if_pos (by omega)]
    have hf : fits (UInt8.ofNat (v / 262144 % 8 + 240)) (UInt8.ofNat (v / 4096 % 64 + 128)) =
        true := by
      rw [fits_iff, UInt8.toNat_ofNat', UInt8.toNat_ofNat']
      omega
    have ht : isTail (UInt8.ofNat (v / 64 % 64 + 128)) = true := by
      rw [isTail_iff, UInt8.toNat_ofNat']
      omega
    have hl : isTail (UInt8.ofNat (v % 64 + 128)) = true := by
      rw [isTail_iff, UInt8.toNat_ofNat']
      omega
    simp only [List.cons_append, List.nil_append, front?, hw, hf, ht, hl, Bool.and_self, if_true,
      UInt8.toNat_ofNat', List.length_cons, List.length_nil, Option.some.injEq, Prod.mk.injEq,
      and_true]
    omega

theorem mem_encode {c : Char} {b : UInt8} (h : b ∈ encode c) :
    0x80 ≤ b.toNat ∨ b.toNat = c.toNat := by
  have hval : c.val.toNat = c.toNat := rfl
  simp only [encode, String.utf8EncodeChar, hval] at h
  split_ifs at h
  all_goals
    simp only [List.mem_cons, List.not_mem_nil, or_false] at h
    rcases h with rfl | rfl | rfl | rfl
  all_goals
    simp only [UInt8.toNat_ofNat']
    omega

private theorem encode_ofNat {n : Nat} (h : n.isValidChar) :
    encode (Char.ofNat n) =
      if n ≤ 0x7f then [UInt8.ofNat n]
      else if n ≤ 0x7ff then [UInt8.ofNat (n / 64 % 32 + 192), UInt8.ofNat (n % 64 + 128)]
      else if n ≤ 0xffff then
        [UInt8.ofNat (n / 4096 % 16 + 224), UInt8.ofNat (n / 64 % 64 + 128),
          UInt8.ofNat (n % 64 + 128)]
      else [UInt8.ofNat (n / 262144 % 8 + 240), UInt8.ofNat (n / 4096 % 64 + 128),
        UInt8.ofNat (n / 64 % 64 + 128), UInt8.ofNat (n % 64 + 128)] := by
  have hval : (Char.ofNat n).val.toNat = n := by
    rw [Char.ofNat, dif_pos h]
    rfl
  rw [encode, String.utf8EncodeChar, hval]

private theorem range_of_width (a : UInt8) :
    (width a = 1 → a.toNat < 0x80) ∧ (width a = 2 → 0xc2 ≤ a.toNat ∧ a.toNat ≤ 0xdf) ∧
      (width a = 3 → 0xe0 ≤ a.toNat ∧ a.toNat ≤ 0xef) ∧
      (width a = 4 → 0xf0 ≤ a.toNat ∧ a.toNat ≤ 0xf4) := by
  rw [width_eq]
  refine ⟨?_, ?_, ?_, ?_⟩ <;> intro h <;> split_ifs at h <;> omega

theorem encode_of_front? {s : Bytes} {n w : Nat} (h : front? s = some (n, w)) :
    encode (Char.ofNat n) = s.take w := by
  cases s with
  | nil => simp [front?] at h
  | cons a rest =>
    obtain ⟨hone, htwo, hthree, hfour⟩ := range_of_width a
    simp only [front?] at h
    split at h
    · have ha := hone ‹_›
      simp only [Option.some.injEq, Prod.mk.injEq] at h
      obtain ⟨rfl, rfl⟩ := h
      rw [encode_ofNat (.inl (by omega)), if_pos (by omega), UInt8.ofNat_toNat]
      rfl
    · have ha := htwo ‹_›
      split_ifs at h with htail
      simp only [Option.some.injEq, Prod.mk.injEq] at h
      obtain ⟨rfl, rfl⟩ := h
      have hb := isTail_iff.1 htail
      rw [encode_ofNat (.inl (by omega)), if_neg (by omega), if_pos (by omega)]
      simp only [List.take_succ_cons, List.take_zero, List.cons.injEq, and_true, ← UInt8.toNat_inj,
        UInt8.toNat_ofNat']
      omega
    · have ha := hthree ‹_›
      split_ifs at h with htail
      simp only [Option.some.injEq, Prod.mk.injEq] at h
      obtain ⟨rfl, rfl⟩ := h
      rw [Bool.and_eq_true, fits_iff, isTail_iff] at htail
      obtain ⟨hb, hc⟩ := htail
      rw [encode_ofNat (by simp only [Nat.isValidChar]; omega), if_neg (by omega),
        if_neg (by omega), if_pos (by omega)]
      simp only [List.take_succ_cons, List.take_zero, List.cons.injEq, and_true, ← UInt8.toNat_inj,
        UInt8.toNat_ofNat']
      omega
    · have ha := hfour ‹_›
      split_ifs at h with htail
      simp only [Option.some.injEq, Prod.mk.injEq] at h
      obtain ⟨rfl, rfl⟩ := h
      rw [Bool.and_eq_true, Bool.and_eq_true, fits_iff, isTail_iff, isTail_iff] at htail
      obtain ⟨⟨hb, hc⟩, hd⟩ := htail
      rw [encode_ofNat (by simp only [Nat.isValidChar]; omega), if_neg (by omega),
        if_neg (by omega), if_neg (by omega)]
      simp only [List.take_succ_cons, List.take_zero, List.cons.injEq, and_true, ← UInt8.toNat_inj,
        UInt8.toNat_ofNat']
      omega
    · simp at h

theorem flatMap_bytes_piecesAfter (skip : Nat) (s : Bytes) :
    (piecesAfter skip s).flatMap Piece.bytes = s.drop skip := by
  fun_induction piecesAfter skip s with
  | case1 => simp
  | case2 skip b rest ih => simpa using ih
  | case3 a rest n w hfront ih =>
    obtain ⟨-, hpos, -⟩ := length_encode_front hfront
    obtain ⟨w, rfl⟩ : ∃ w', w = w' + 1 := ⟨w - 1, by omega⟩
    rw [Nat.add_sub_cancel] at ih
    rw [List.flatMap_cons, Piece.bytes, encode_of_front? hfront, List.take_succ_cons,
      List.cons_append, Nat.add_sub_cancel, ih, List.take_append_drop]
    rfl
  | case4 a rest hfront ih =>
    rw [List.flatMap_cons, ih]
    rfl

theorem flatMap_encode_chars {s : Bytes} (h : valid s = true) : (chars s).flatMap encode = s := by
  have hpieces : ∀ p ∈ pieces s, encode p.toChar = p.bytes := by
    intro p hp
    have hchar := List.all_eq_true.1 h p hp
    cases p with
    | char c => rfl
    | stray b => simp at hchar
  rw [chars, List.flatMap_map, List.flatMap_def, List.map_congr_left hpieces, ← List.flatMap_def]
  exact flatMap_bytes_piecesAfter 0 s

private theorem piecesAfter_append (u rest : Bytes) :
    piecesAfter u.length (u ++ rest) = pieces rest := by
  induction u with
  | nil => rfl
  | cons b u ih => exact ih

theorem pieces_encode_append (c : Char) (rest : Bytes) :
    pieces (encode c ++ rest) = .char c :: pieces rest := by
  have hfront := front?_encode c rest
  cases hbytes : encode c with
  | nil => exact absurd hbytes String.utf8EncodeChar_ne_nil
  | cons b u =>
    rw [hbytes, List.cons_append] at hfront
    rw [List.cons_append, pieces, piecesAfter, hfront]
    simp only [List.length_cons, Nat.add_sub_cancel, piecesAfter_append, Char.ofNat_toNat]

private theorem repairAfter_append (u rest : Bytes) :
    repairAfter u.length (u ++ rest) = repair rest := by
  induction u with
  | nil => rfl
  | cons b u ih => exact ih

theorem repair_encode_append (c : Char) (rest : Bytes) :
    repair (encode c ++ rest) = encode c ++ repair rest := by
  have hfront := front?_encode c rest
  cases hbytes : encode c with
  | nil => exact absurd hbytes String.utf8EncodeChar_ne_nil
  | cons b u =>
    rw [hbytes, List.cons_append] at hfront
    rw [List.cons_append, repair, repairAfter, hfront]
    simp only [List.length_cons, Nat.add_sub_cancel, repairAfter_append, List.take_succ_cons,
      List.take_left, List.cons_append]

private theorem repair_flatMap_encode_append (cs : List Char) (rest : Bytes) :
    repair (cs.flatMap encode ++ rest) = cs.flatMap encode ++ repair rest := by
  induction cs with
  | nil => rfl
  | cons c cs ih =>
    rw [List.flatMap_cons, List.append_assoc, repair_encode_append, ih, List.append_assoc]

def WellFormed (s : Bytes) : Prop := ∃ cs : List Char, s = cs.flatMap encode

theorem WellFormed.repair_append {s : Bytes} (h : WellFormed s) (rest : Bytes) :
    repair (s ++ rest) = s ++ repair rest := by
  obtain ⟨cs, rfl⟩ := h
  exact repair_flatMap_encode_append cs rest

theorem WellFormed.repair_eq {s : Bytes} (h : WellFormed s) : repair s = s := by
  have hall := h.repair_append []
  rwa [List.append_nil, show repair [] = [] from rfl, List.append_nil] at hall

end EngineHost.Utf8
