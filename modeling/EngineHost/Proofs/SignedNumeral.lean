import EngineHost.Number.Literal
import EngineHost.Proofs.FilledProgram
import Mathlib.Data.Nat.Digits.Defs
import Mathlib.Tactic.Ring

/-!
# Signed numerals

A decimal numeral stands for the number of its digits, with an optional sign in front. Reading a
64-bit integer accepts just the numerals of integers in the range, and gives the integer that the
numeral stands for.
-/

namespace EngineHost

namespace Bytes

variable {s : Bytes} {n : Int}

/-- A run of bytes ends before the first one that does not belong to it. -/
theorem takeWhile_dropWhile_append {p : UInt8 → Bool} (hs : ∀ b ∈ s, p b = true) (rest : Bytes)
    (hrest : ∀ b ∈ rest.head?, p b = false) :
    (s ++ rest).takeWhile p = s ∧ (s ++ rest).dropWhile p = rest := by
  rw [List.takeWhile_append_of_pos hs, List.dropWhile_append_of_pos hs]
  cases rest with
  | nil => simp
  | cons b more => simp [hrest b rfl]

/-- The number that decimal digits stand for, the last one being the units. -/
def decimal (s : Bytes) : Nat := Nat.ofDigits 10 (s.reverse.map fun b => b.toNat - 48)

/-- A decimal numeral with an optional sign, and the integer that it stands for. -/
inductive SignedNumeral : Bytes → Int → Prop
  | unsigned {s : Bytes} (h : s.Numeral) : SignedNumeral s s.decimal
  | plus {s : Bytes} (h : s.Numeral) : SignedNumeral (43 :: s) s.decimal
  | minus {s : Bytes} (h : s.Numeral) : SignedNumeral (45 :: s) (-s.decimal)

theorem digitsValue_concat (s : Bytes) (b : UInt8) :
    digitsValue (s ++ [b]) = 10 * digitsValue s + (b.toNat - 48) := by
  simp [digitsValue]

theorem digitsValue_eq_decimal (s : Bytes) : digitsValue s = s.decimal := by
  induction s using List.reverseRecOn with
  | nil => rfl
  | append_singleton s b ih =>
    have hdecimal : decimal (s ++ [b]) = (b.toNat - 48) + 10 * decimal s := by
      simp [decimal, Nat.ofDigits_cons]
    rw [digitsValue_concat, hdecimal, ih]
    omega

theorem digitsValue_append (s t : Bytes) :
    digitsValue (s ++ t) = digitsValue s * 10 ^ t.length + digitsValue t := by
  induction t using List.reverseRecOn with
  | nil => simp [digitsValue]
  | append_singleton t b ih =>
    rw [← List.append_assoc, digitsValue_concat, digitsValue_concat, ih, List.length_append,
      List.length_singleton, Nat.pow_succ]
    ring

theorem digitsValue_replicate (k : Nat) : digitsValue (List.replicate k 48) = 0 := by
  induction k with
  | zero => rfl
  | succ k ih =>
    rw [List.replicate_succ, ← List.singleton_append, digitsValue_append, ih]
    simp [digitsValue]

theorem digitsValue_lt (h : ∀ b ∈ s, isDigit b = true) : digitsValue s < 10 ^ s.length := by
  induction s using List.reverseRecOn with
  | nil => decide
  | append_singleton s b ih =>
    have hs := ih fun c hc => h c (List.mem_append_left _ hc)
    have hb := h b (by simp)
    simp only [isDigit, Bool.and_eq_true, decide_eq_true_eq, UInt8.le_iff_toNat_le] at hb
    have hgreatest : b.toNat ≤ 57 := hb.2
    rw [digitsValue_concat, List.length_append, List.length_singleton, Nat.pow_succ]
    omega

private theorem numeral_iff : s.Numeral ↔ (!s.isEmpty && s.all isDigit) = true := by
  simp only [Bool.and_eq_true, Bool.not_eq_true', List.isEmpty_eq_false_iff, List.all_eq_true]
  exact ⟨fun h => ⟨h.ne_nil, h.digits⟩, fun h => ⟨h.1, h.2⟩⟩

theorem digitsValue_ofNat (n : Nat) : digitsValue (ofNat n) = n := by
  have hdigits : ∀ m, ∀ d ∈ Nat.toDigits 10 n,
      10 * m + ((ofAscii d).toNat - 48) = 10 * m + (d.toNat - '0'.toNat) := by
    intro m d hd
    rw [(toNat_ofAscii_of_mem_toDigits hd).1]
    rfl
  calc digitsValue (ofNat n)
      = (Nat.toDigits 10 n).foldl (fun m d => 10 * m + ((ofAscii d).toNat - 48)) 0 :=
        List.foldl_map
    _ = Nat.ofDigitChars 10 (Nat.toDigits 10 n) 0 := List.foldl_ext _ _ _ hdigits
    _ = n := Nat.ofDigitChars_toDigits (by decide) (by decide)

theorem decimal_ofNat (n : Nat) : (ofNat n).decimal = n := by
  rw [← digitsValue_eq_decimal, digitsValue_ofNat]

theorem signedNumeral_ofInt (n : Int) : SignedNumeral (ofInt n) n := by
  cases n with
  | ofNat n =>
    have h := SignedNumeral.unsigned (numeral_ofNat n)
    rwa [decimal_ofNat] at h
  | negSucc n =>
    have h := SignedNumeral.minus (numeral_ofNat (n + 1))
    rwa [decimal_ofNat] at h

end Bytes

namespace Literal

open Bytes (SignedNumeral Numeral)

variable {s : Bytes} {n : Int} {m : Nat}

/-- A sign, which may be missing; true for a minus. -/
inductive Sign : Bytes → Bool → Prop
  | none : Sign [] false
  | plus : Sign [43] false
  | minus : Sign [45] true

theorem exists_sign (s : Bytes) :
    ∃ sign, s = sign ++ (splitSign s).2 ∧ Sign sign (splitSign s).1 := by
  unfold splitSign
  split
  · exact ⟨[43], rfl, .plus⟩
  · exact ⟨[45], rfl, .minus⟩
  · exact ⟨[], rfl, .none⟩

theorem Sign.splitSign {sign : Bytes} {neg : Bool} (h : Sign sign neg)
    (hs : ∀ b ∈ s.head?, b ≠ 43 ∧ b ≠ 45) : splitSign (sign ++ s) = (neg, s) := by
  cases h with
  | plus => rfl
  | minus => rfl
  | none =>
    rw [List.nil_append]
    unfold Literal.splitSign
    split
    · exact absurd rfl (hs 43 rfl).1
    · exact absurd rfl (hs 45 rfl).2
    · rfl

private theorem natural?_eq_some_iff : natural? s = some m ↔ s.Numeral ∧ m = s.decimal := by
  by_cases h : s.Numeral
  · rw [natural?, if_pos (Bytes.numeral_iff.1 h), Bytes.digitsValue_eq_decimal]
    simp [h, eq_comm]
  · rw [natural?, if_neg (mt Bytes.numeral_iff.2 h)]
    simp [h]

theorem ne_sign_of_isDigit {b : UInt8} (h : Bytes.isDigit b = true) : b ≠ 43 ∧ b ≠ 45 := by
  constructor <;> rintro rfl <;> cases h

private theorem splitSign_of_numeral (h : s.Numeral) : splitSign s = (false, s) :=
  Sign.none.splitSign fun b hb => ne_sign_of_isDigit (h.digits b (List.mem_of_mem_head? hb))

private theorem integer?_eq_some_iff : integer? s = some n ↔ SignedNumeral s n := by
  have hsplit : integer? s = some n ↔ (splitSign s).2.Numeral ∧
      n = if (splitSign s).1 then -((splitSign s).2.decimal : Int)
        else (splitSign s).2.decimal := by
    rw [integer?]
    cases hnatural : natural? (splitSign s).2 with
    | none =>
      have hdigits : ¬(splitSign s).2.Numeral := by
        intro h
        simp [natural?_eq_some_iff.2 ⟨h, rfl⟩] at hnatural
      simp [hnatural, hdigits]
    | some m =>
      obtain ⟨hdigits, rfl⟩ := natural?_eq_some_iff.1 hnatural
      simp only [hnatural, hdigits, true_and, Option.map_some, Option.bind_eq_bind,
        Option.bind_some, Option.pure_def, Option.some.injEq]
      exact eq_comm
  rw [hsplit]
  constructor
  · rintro ⟨hdigits, rfl⟩
    revert hdigits
    unfold splitSign
    split
    · exact .plus
    · exact .minus
    · exact .unsigned
  · rintro (hdigits | hdigits | hdigits)
    · rw [splitSign_of_numeral hdigits]
      exact ⟨hdigits, rfl⟩
    · exact ⟨hdigits, rfl⟩
    · exact ⟨hdigits, rfl⟩

theorem int64?_eq_some_iff {k : Int64} : int64? s = some k ↔
    ∃ n, SignedNumeral s n ∧ -(2 ^ 63) ≤ n ∧ n < 2 ^ 63 ∧ k = Int64.ofInt n := by
  simp only [← integer?_eq_some_iff, int64?]
  cases integer? s with
  | none => simp
  | some n =>
    simp only [Bool.and_eq_true, decide_eq_true_eq, Option.some.injEq, exists_eq_left']
    by_cases hrange : -(2 ^ 63) ≤ n ∧ n < 2 ^ 63
    · rw [if_pos hrange, Option.some.injEq, ← and_assoc, and_iff_right hrange, eq_comm]
    · rw [if_neg hrange, ← and_assoc]
      simp only [reduceCtorEq, hrange, false_and]

theorem int64?_eq_some_iff_toInt {k : Int64} : int64? s = some k ↔ SignedNumeral s k.toInt := by
  rw [int64?_eq_some_iff]
  constructor
  · rintro ⟨n, hn, hleast, hgreatest, rfl⟩
    rwa [Int64.toInt_ofInt_of_le hleast hgreatest]
  · intro h
    exact ⟨k.toInt, h, Int64.le_toInt k, Int64.toInt_lt k, (Int64.ofInt_toInt k).symm⟩

theorem uint64?_eq_some_iff {k : UInt64} :
    uint64? s = some k ↔ s.Numeral ∧ s.decimal = k.toNat := by
  rw [uint64?]
  cases hnatural : natural? s with
  | none =>
    have hnumeral : ¬s.Numeral := by
      intro h
      rw [natural?_eq_some_iff.2 ⟨h, rfl⟩] at hnatural
      cases hnatural
    simp [hnumeral]
  | some m =>
    obtain ⟨hnumeral, rfl⟩ := natural?_eq_some_iff.1 hnatural
    by_cases hrange : s.decimal < 2 ^ 64
    · simp only [hrange, if_true, Option.some.injEq, hnumeral, true_and]
      rw [← UInt64.toNat_inj, UInt64.toNat_ofNat_of_lt' hrange]
    · have hne : s.decimal ≠ k.toNat := by
        have hk := k.toNat_lt
        omega
      simp [hrange, hne]

end Literal

end EngineHost
