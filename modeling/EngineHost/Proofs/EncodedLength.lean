import EngineHost.Simulator.Program
import Mathlib.Data.List.Flatten
import Mathlib.Tactic.SplitIfs

/-!
# The length of an encoded program

A name is found in a line of its own, between an at sign and an equals sign, so the encoding of a
program is at most one byte longer than its text.
-/

namespace EngineHost

namespace Utf8

private theorem length_encode_ofNat_le {n w : Nat} (hw : 1 ≤ w) (htwo : 0x7f < n → 2 ≤ w)
    (hthree : 0x7ff < n → 3 ≤ w) (hfour : 0xffff < n → 4 ≤ w) :
    (encode (Char.ofNat n)).length ≤ w := by
  have hval : (Char.ofNat n).val.toNat = n ∨ (Char.ofNat n).val.toNat = 0 := by
    by_cases hvalid : n.isValidChar
    · rw [Char.ofNat, dif_pos hvalid]
      exact .inl rfl
    · rw [Char.ofNat, dif_neg hvalid]
      exact .inr rfl
  simp only [encode, String.utf8EncodeChar]
  split_ifs <;> simp only [List.length_cons, List.length_nil] <;> omega

private theorem width_spec (a : UInt8) :
    (width a = 1 → a.toNat ≤ 0x7f) ∧ (width a = 2 → a.toNat ≤ 0xdf) ∧
      (width a = 3 → a.toNat ≤ 0xef) := by
  simp only [width, UInt8.lt_iff_toNat_lt, UInt8.le_iff_toNat_le, UInt8.reduceToNat]
  refine ⟨?_, ?_, ?_⟩ <;> intro h <;> split_ifs at h <;> omega

private theorem toNat_le_of_isTail {b : UInt8} (h : isTail b = true) : b.toNat ≤ 0xbf := by
  simp only [isTail, Bool.and_eq_true, decide_eq_true_eq] at h
  exact UInt8.le_iff_toNat_le.1 h.2

private theorem toNat_le_of_fits {a b : UInt8} (h : fits a b = true) : b.toNat ≤ 0xbf := by
  have hrange : (secondRange a).2.toNat ≤ 0xbf := by
    simp only [secondRange]
    split_ifs <;> decide
  simp only [fits, Bool.and_eq_true, decide_eq_true_eq] at h
  exact Nat.le_trans (UInt8.le_iff_toNat_le.1 h.2) hrange

/-- A character at the front takes no more bytes than were read for it. -/
theorem length_encode_front {s : Bytes} {n w : Nat} (h : front? s = some (n, w)) :
    (encode (Char.ofNat n)).length ≤ w ∧ 1 ≤ w ∧ w ≤ s.length := by
  cases s with
  | nil => simp [front?] at h
  | cons a rest =>
    obtain ⟨hone, htwo, hthree⟩ := width_spec a
    simp only [front?] at h
    split at h
    · obtain ⟨rfl, rfl⟩ : a.toNat = n ∧ 1 = w := by simpa using h
      have := hone ‹_›
      exact ⟨length_encode_ofNat_le (by omega) (by omega) (by omega) (by omega), by simp, by simp⟩
    · split_ifs at h
      simp only [Option.some.injEq, Prod.mk.injEq] at h
      obtain ⟨rfl, rfl⟩ := h
      have := htwo ‹_›
      have := toNat_le_of_isTail ‹_›
      exact ⟨length_encode_ofNat_le (by omega) (by omega) (by omega) (by omega), by simp, by simp⟩
    · split_ifs at h
      simp only [Option.some.injEq, Prod.mk.injEq] at h
      obtain ⟨rfl, rfl⟩ := h
      rename_i b c _ _ hfits
      have htail : fits a b = true ∧ isTail c = true := by simpa using hfits
      have := hthree ‹_›
      have := toNat_le_of_fits htail.1
      have := toNat_le_of_isTail htail.2
      exact ⟨length_encode_ofNat_le (by omega) (by omega) (by omega) (by omega), by simp, by simp⟩
    · split_ifs at h
      simp only [Option.some.injEq, Prod.mk.injEq] at h
      obtain ⟨rfl, rfl⟩ := h
      exact ⟨length_encode_ofNat_le (by omega) (by omega) (by omega) (by omega), by simp, by simp⟩
    · simp at h

private theorem length_bytes_piecesAfter (skip : Nat) (s : Bytes) :
    ((piecesAfter skip s).flatMap Piece.bytes).length ≤ s.length - skip := by
  fun_induction piecesAfter skip s with
  | case1 => simp
  | case2 skip b rest ih => simpa using ih
  | case3 a rest n w hfront ih =>
    obtain ⟨hchar, hpos, hw⟩ := length_encode_front hfront
    simp only [List.flatMap_cons, List.length_append, Piece.bytes, List.length_cons] at *
    omega
  -- a byte that starts no character stands for itself
  | case4 a rest hfront ih =>
    simp only [List.flatMap_cons, List.length_append, Piece.bytes, List.length_cons,
      List.length_nil] at *
    omega

end Utf8

namespace Bytes

private theorem length_trim_le (s : Bytes) : (trim s).length ≤ s.length := by
  have hsub : (((Utf8.pieces s).dropWhile Utf8.Piece.isBlank).reverse.dropWhile
      Utf8.Piece.isBlank).reverse.Sublist (Utf8.pieces s) := by
    refine List.Sublist.trans ?_ (List.dropWhile_sublist Utf8.Piece.isBlank)
    exact List.reverse_sublist.1 (by
      simpa using List.dropWhile_sublist Utf8.Piece.isBlank)
  calc (trim s).length
      _ ≤ ((Utf8.pieces s).flatMap Utf8.Piece.bytes).length :=
        (hsub.flatMap Utf8.Piece.bytes).length_le
      _ ≤ s.length := Utf8.length_bytes_piecesAfter 0 s

private theorem length_of_cut {sep : UInt8} {s before after : Bytes}
    (h : cut sep s = some (before, after)) : before.length + 1 ≤ s.length := by
  induction s generalizing before with
  | nil => simp [cut] at h
  | cons b s ih =>
    rw [cut] at h
    split_ifs at h
    · obtain ⟨rfl, rfl⟩ : [] = before ∧ s = after := by simpa using h
      simp
    · obtain ⟨⟨before', after'⟩, hcut, hpair⟩ := Option.map_eq_some_iff.1 h
      obtain ⟨rfl, rfl⟩ : b :: before' = before ∧ after' = after := by simpa using hpair
      simpa using ih hcut

private theorem sum_length_split (sep : UInt8) (s : Bytes) :
    ((split sep s).map List.length).sum ≤ s.length := by
  induction s with
  | nil => simp [split]
  | cons b s ih =>
    rw [split]
    split_ifs
    · simpa using Nat.le_succ_of_le ih
    · cases hparts : split sep s with
      | nil => simp
      | cons part parts =>
        simp only [hparts, List.map_cons, List.sum_cons, List.length_cons] at ih ⊢
        omega

end Bytes

namespace Simulator.Program

def namesLength (names : List Bytes) : Nat := (names.flatMap encodeName).length

private theorem namesLength_define {line depth : Nat} {defs defs' : List Bytes} {text : Bytes}
    (h : define line depth defs text = .ok defs') :
    namesLength defs' ≤ namesLength defs + text.length := by
  unfold define at h
  split at h
  · rename_i afterAt
    split at h
    · simp at h
    · rename_i name hname
      split_ifs at h
      obtain rfl : name :: defs = defs' := by simpa using h
      have hlength : name.length + 1 ≤ afterAt.length := by
        unfold definedName? at hname
        split at hname
        · rename_i before after hcut
          dsimp only at hname
          split_ifs at hname
          rw [← Option.some.inj hname]
          exact Nat.le_trans (Nat.succ_le_succ (Bytes.length_trim_le before))
            (Bytes.length_of_cut hcut)
        · simp at hname
      simp only [namesLength, List.flatMap_cons, List.length_append, encodeName, List.length_cons]
      omega
  · split_ifs at h
    obtain rfl : defs = defs' := by simpa using h
    exact Nat.le_add_right _ _

private theorem namesLength_scan {line depth : Nat} {defs names : List Bytes} {lines : List Bytes}
    (h : scan line depth defs lines = .ok names) :
    namesLength names ≤ namesLength defs + (lines.map List.length).sum := by
  fun_induction scan line depth defs lines with
  | case1 => simp at h
  | case2 => simp at h
  -- the names were collected backwards; the order does not change their length
  | case3 _ depth defs _ _ =>
    obtain rfl : defs.reverse = names := by simpa using h
    simp [namesLength, List.length_flatMap, List.sum_reverse]
  | case4 line depth defs s rest text hempty ih =>
    have := ih h
    simp only [List.map_cons, List.sum_cons]
    omega
  | case5 => simp at h
  | case6 => simp at h
  | case7 line depth defs s rest text hempty defs' hdefine depth' hdepth ih =>
    have hrest := ih h
    have hdefs := namesLength_define hdefine
    have htrim : text.length ≤ s.length := Bytes.length_trim_le s
    simp only [List.map_cons, List.sum_cons]
    omega

theorem length_encode_le {source : Bytes} {program : Program}
    (h : parse source = .ok program) : program.encode.length ≤ source.length + 1 := by
  unfold parse at h
  cases hscan : scan 1 0 [] (Bytes.lines source) with
  | error e => simp [hscan, Except.map] at h
  | ok names =>
    obtain rfl : (⟨source, names⟩ : Program) = program := by simpa [hscan, Except.map] using h
    have hnames := namesLength_scan hscan
    have hlines := Bytes.sum_length_split 10 source
    simp only [encode, List.length_cons, namesLength, Bytes.lines] at *
    simpa using Nat.le_trans hnames (by simpa using hlines)

end Simulator.Program

end EngineHost
