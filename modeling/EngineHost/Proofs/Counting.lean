import EngineHost.Number.Binary64
import Mathlib.Data.Nat.Log
import Mathlib.Tactic.Ring

/-!
# Counting in floating point

Natural numbers up to `2 ^ 53` are binary64 numbers, and so are the integers of these magnitudes.
A sum of integers is rounded once, so one that is small enough is not rounded at all. Products and
whole quotients of natural numbers are not rounded either.
-/

namespace EngineHost

private theorem roundDiv_one (n : Nat) : roundDiv n 1 = n := by
  simp [roundDiv, Nat.mod_one]

private theorem roundDiv_mul_right (num den : Nat) {c : Nat} (hc : 0 < c) :
    roundDiv (num * c) (den * c) = roundDiv num den := by
  have hless : 2 * (num % den * c) < den * c ↔ 2 * (num % den) < den := by
    rw [← Nat.mul_assoc, Nat.mul_lt_mul_right hc]
  have hmore : den * c < 2 * (num % den * c) ↔ den < 2 * (num % den) := by
    rw [← Nat.mul_assoc, Nat.mul_lt_mul_right hc]
  simp only [roundDiv, Nat.mul_div_mul_right _ _ hc, Nat.mul_mod_mul_right, hless, hmore]

/-- The logarithm of a whole number does not depend on the denominator it is written over. -/
theorem floorLog2_mul_right {n c : Nat} (hn : n ≠ 0) (hc : 0 < c) :
    floorLog2 (n * c) c = n.log2 := by
  have hprod : n * c ≠ 0 := Nat.mul_ne_zero hn hc.ne'
  have hscaled (k : Nat) : c * 2 ^ k ≤ n * c ↔ 2 ^ k ≤ n := by
    rw [Nat.mul_comm c, Nat.mul_le_mul_right_iff hc]
  -- the logarithms add up, or miss one that is carried
  have hlow : n.log2 + c.log2 ≤ (n * c).log2 := by
    rw [Nat.le_log2 hprod, Nat.pow_add]
    exact Nat.mul_le_mul (Nat.log2_self_le hn) (Nat.log2_self_le hc.ne')
  have hhigh : (n * c).log2 < n.log2 + 1 + (c.log2 + 1) := by
    rw [Nat.log2_lt hprod, Nat.pow_add]
    exact Nat.mul_lt_mul'' Nat.lt_log2_self Nat.lt_log2_self
  obtain hcarry | hcarry : (n * c).log2 = n.log2 + c.log2 ∨
      (n * c).log2 = n.log2 + 1 + c.log2 := by omega
  · have hk : ((n * c).log2 : Int) - (c.log2 : Int) = n.log2 := by omega
    have hle : c * 2 ^ n.log2 ≤ n * c := (hscaled _).2 (Nat.log2_self_le hn)
    simp only [floorLog2, hk]
    rw [if_pos (by simpa using hle)]
  · have hk : ((n * c).log2 : Int) - (c.log2 : Int) = (n.log2 + 1 : Nat) := by omega
    have hlt : ¬c * 2 ^ (n.log2 + 1) ≤ n * c := by
      rw [hscaled, Nat.not_le]
      exact Nat.lt_log2_self
    have hneg : (-((n.log2 + 1 : Nat) : Int)).toNat = 0 := by omega
    simp only [floorLog2, hk, hneg, Int.toNat_natCast, Nat.pow_zero, Nat.mul_one]
    rw [if_neg hlt]
    omega

private theorem floorLog2_one {n : Nat} (hn : n ≠ 0) : floorLog2 n 1 = n.log2 := by
  simpa using floorLog2_mul_right hn Nat.one_pos

namespace Binary64

private theorem ofRatio_mul_right (neg : Bool) (n : Nat) {c : Nat} (hc : 0 < c) :
    ofRatio neg (n * c) c = ofRatio neg n 1 := by
  by_cases hn : n = 0
  · simp [ofRatio, hn]
  · have hnum : n * c ≠ 0 := Nat.mul_ne_zero hn hc.ne'
    have hround (x y : Nat) :
        roundDiv (n * c * 2 ^ x) (c * 2 ^ y) = roundDiv (n * 2 ^ x) (1 * 2 ^ y) := by
      rw [Nat.mul_right_comm, Nat.mul_comm c, Nat.one_mul, roundDiv_mul_right _ _ hc]
    simp only [ofRatio, hn, hnum, if_false, floorLog2_mul_right hn hc, floorLog2_one hn, hround]

/-- A number that stands for a natural number, without a sign and without rounding. -/
structure Counts (x : Binary64) (n : Nat) : Prop where
  negative : x.negative = false
  finite : x.isFinite = true
  ratio : ∃ j, x.ratio = (n * 2 ^ j, 2 ^ j)

theorem negative_ofMagnitude (neg : Bool) {m : Nat} (hm : m < 2 ^ 63) :
    (ofMagnitude neg m).negative = neg := by
  simp only [negative, ofMagnitude, UInt64.le_iff_toNat_le]
  cases neg with
  | false =>
    rw [UInt64.toNat_ofNat_of_lt' (by simp [UInt64.size]; omega)]
    simpa using hm
  | true =>
    rw [UInt64.toNat_ofNat_of_lt' (by simp [UInt64.size]; omega)]
    simp

theorem magnitudeBits_ofMagnitude (neg : Bool) {m : Nat} (hm : m < 2 ^ 63) :
    (ofMagnitude neg m).magnitudeBits = m := by
  simp only [magnitudeBits, ofMagnitude]
  cases neg with
  | false =>
    rw [UInt64.toNat_ofNat_of_lt' (by simp [UInt64.size]; omega)]
    simpa using Nat.mod_eq_of_lt hm
  | true =>
    rw [UInt64.toNat_ofNat_of_lt' (by simp [UInt64.size]; omega), if_pos rfl]
    omega

private theorem shifted_bounds {n k : Nat} (hk : k ≤ 52) (hle : 2 ^ k ≤ n) (hlt : n < 2 ^ (k + 1)) :
    2 ^ 52 ≤ n * 2 ^ (52 - k) ∧ n * 2 ^ (52 - k) < 2 ^ 53 := by
  constructor
  · calc 2 ^ 52 = 2 ^ k * 2 ^ (52 - k) := by rw [← Nat.pow_add, Nat.add_sub_cancel' hk]
      _ ≤ n * 2 ^ (52 - k) := Nat.mul_le_mul_right _ hle
  · calc n * 2 ^ (52 - k) < 2 ^ (k + 1) * 2 ^ (52 - k) :=
          Nat.mul_lt_mul_of_pos_right hlt (Nat.two_pow_pos _)
      _ = 2 ^ 53 := by rw [← Nat.pow_add]; congr 1; omega

private theorem counts_shifted {n k : Nat} (hk : k ≤ 52) (hle : 2 ^ k ≤ n) (hlt : n < 2 ^ (k + 1)) :
    Counts (ofMagnitude false (n * 2 ^ (52 - k) + (k + 1022) * 2 ^ 52)) n := by
  obtain ⟨hlow, hhigh⟩ := shifted_bounds hk hle hlt
  generalize hq : n * 2 ^ (52 - k) = q at hlow hhigh
  have hm : q + (k + 1022) * 2 ^ 52 < 2 ^ 63 := by omega
  have hbits := magnitudeBits_ofMagnitude false hm
  -- the top bit of the mantissa is one, so it moves up the exponent field by one
  have hfield : (q + (k + 1022) * 2 ^ 52) / 2 ^ 52 = k + 1023 := by omega
  have hfraction : (q + (k + 1022) * 2 ^ 52) % 2 ^ 52 = q - 2 ^ 52 := by omega
  have hmantissa : (ofMagnitude false (q + (k + 1022) * 2 ^ 52)).mantissa = q := by
    simp only [mantissa, hbits, hfield, hfraction]
    rw [if_neg (by omega)]
    omega
  have hexponent : (ofMagnitude false (q + (k + 1022) * 2 ^ 52)).exponent = k - 52 := by
    simp only [exponent, hbits, hfield]
    rw [if_neg (by omega)]
    omega
  refine ⟨negative_ofMagnitude false hm, ?_, 52 - k, ?_⟩
  · simp only [isFinite, hbits, infinityBits, decide_eq_true_eq]
    omega
  · have hpos : ((k : Int) - 52).toNat = 0 := by omega
    have hneg : (-((k : Int) - 52)).toNat = 52 - k := by omega
    simp only [Binary64.ratio, hmantissa, hexponent, hpos, hneg, Nat.pow_zero, Nat.mul_one, hq]

private theorem ofNat_eq_shifted {n k : Nat} (hk : k ≤ 52) (hle : 2 ^ k ≤ n)
    (hlt : n < 2 ^ (k + 1)) :
    ofNat n = ofMagnitude false (n * 2 ^ (52 - k) + (k + 1022) * 2 ^ 52) := by
  have hn : n ≠ 0 := (Nat.lt_of_lt_of_le (Nat.two_pow_pos k) hle).ne'
  have hlog : floorLog2 n 1 = k := by
    rw [floorLog2_one hn, (Nat.log2_eq_iff hn).2 ⟨hle, hlt⟩]
  have hmax : Max.max (-1074) ((k : Int) - 52) = k - 52 := by omega
  have hdown : (-((k : Int) - 52)).toNat = 52 - k := by omega
  have hup : ((k : Int) - 52).toNat = 0 := by omega
  have hfield : ((k : Int) - 52 + 1074).toNat = k + 1022 := by omega
  have hhigh := (shifted_bounds hk hle hlt).2
  simp only [ofNat, ofRatio, hn, if_false, hlog, hmax, hdown, hup, hfield, Nat.pow_zero,
    Nat.mul_one, roundDiv_one]
  rw [Nat.min_eq_right]
  rw [infinityBits]
  omega

/-- Every natural number up to `2 ^ 53` is a binary64 number. -/
theorem counts_ofNat {n : Nat} (hn : n ≤ 2 ^ 53) : Counts (ofNat n) n := by
  rcases Nat.eq_zero_or_pos n with rfl | hpos
  · exact ⟨by decide, by decide, 1074, by decide +kernel⟩
  rcases Nat.lt_or_eq_of_le hn with hlt | rfl
  · have hlog : n.log2 ≤ 52 := Nat.lt_succ_iff.1 ((Nat.log2_lt hpos.ne').2 hlt)
    have hle := Nat.log2_self_le hpos.ne'
    rw [ofNat_eq_shifted hlog hle Nat.lt_log2_self]
    exact counts_shifted hlog hle Nat.lt_log2_self
  · exact ⟨by decide +kernel, by decide +kernel, 0, by decide +kernel⟩

theorem not_isNaN_of_isFinite {x : Binary64} (h : x.isFinite = true) :
    x.isNaN = false ∧ x.isInfinite = false := by
  simp only [isFinite, isNaN, isInfinite, decide_eq_true_eq, decide_eq_false_iff_not,
    beq_eq_false_iff_ne] at *
  omega

/-! ## Integers -/

/-- A number that stands for an integer, without rounding. Zero has no sign. -/
structure Integral (x : Binary64) (z : Int) : Prop where
  negative : x.negative = decide (z < 0)
  finite : x.isFinite = true
  ratio : ∃ j, x.ratio = (z.natAbs * 2 ^ j, 2 ^ j)

/-- The sign in front of a quotient does not change how its magnitude is rounded. -/
theorem exists_ofRatio_eq (num den : Nat) :
    ∃ m < 2 ^ 63, ∀ neg, ofRatio neg num den = ofMagnitude neg m := by
  by_cases hnum : num = 0
  · exact ⟨0, by decide, fun neg => by rw [ofRatio, if_pos hnum]⟩
  · refine ⟨_, ?_, fun neg => by rw [ofRatio, if_neg hnum]⟩
    exact Nat.lt_of_le_of_lt (Nat.min_le_left _ _) (by decide)

private theorem decide_natCast_lt_zero (n : Nat) : decide ((n : Int) < 0) = false :=
  decide_eq_false (Int.not_lt.2 (Int.natCast_nonneg n))

theorem ofInt_natCast (n : Nat) : ofInt n = ofNat n := by
  rw [ofInt, decide_natCast_lt_zero, Int.natAbs_natCast, ofNat]

theorem Counts.integral {x : Binary64} {n : Nat} (hx : x.Counts n) : x.Integral n where
  negative := hx.negative.trans (decide_natCast_lt_zero n).symm
  finite := hx.finite
  ratio := hx.ratio

theorem integral_ofInt {z : Int} (hz : z.natAbs ≤ 2 ^ 53) : (ofInt z).Integral z := by
  have hcounts := counts_ofNat hz
  obtain ⟨m, hm, hsigned⟩ := exists_ofRatio_eq z.natAbs 1
  rw [ofNat, hsigned] at hcounts
  rw [ofInt, hsigned]
  by_cases hneg : z < 0
  · have hbits : (ofMagnitude true m).magnitudeBits = (ofMagnitude false m).magnitudeBits := by
      rw [magnitudeBits_ofMagnitude true hm, magnitudeBits_ofMagnitude false hm]
    rw [decide_eq_true hneg]
    refine ⟨?_, ?_, ?_⟩
    · rw [negative_ofMagnitude true hm, decide_eq_true hneg]
    · rw [isFinite, hbits]
      exact hcounts.finite
    · obtain ⟨j, hratio⟩ := hcounts.ratio
      refine ⟨j, ?_⟩
      rw [← hratio]
      simp only [Binary64.ratio, mantissa, exponent, hbits]
  · rw [decide_eq_false hneg]
    exact ⟨by rw [hcounts.negative, decide_eq_false hneg], hcounts.finite, hcounts.ratio⟩

private theorem Integral.signedRatio_eq {x : Binary64} {z : Int} (hx : x.Integral z) :
    ∃ j, x.signedRatio = (z * 2 ^ j, 2 ^ j) := by
  obtain ⟨j, hratio⟩ := hx.ratio
  refine ⟨j, ?_⟩
  rw [signedRatio, hratio, hx.negative]
  by_cases hneg : z < 0
  · have habs : (z.natAbs : Int) = -z := by omega
    simp [hneg, habs]
  · have habs : (z.natAbs : Int) = z := by omega
    simp [hneg, habs]

/-- A sum of integers is rounded once, from the integer that it is. -/
theorem Integral.add {x y : Binary64} {a b : Int} (hx : x.Integral a) (hy : y.Integral b) :
    x.add y = ofInt (a + b) := by
  obtain ⟨j, hxratio⟩ := hx.signedRatio_eq
  obtain ⟨i, hyratio⟩ := hy.signedRatio_eq
  have hpos : (0 : Int) < 2 ^ (j + i) := Int.pow_pos (by decide)
  have hsum : a * 2 ^ j * (2 ^ i : Nat) + b * 2 ^ i * (2 ^ j : Nat) = (a + b) * 2 ^ (j + i) := by
    push_cast
    ring
  have hsign : (decide ((a + b) * 2 ^ (j + i) < 0) ||
      ((a + b) * 2 ^ (j + i) == 0 && decide (a < 0) && decide (b < 0))) = decide (a + b < 0) := by
    have hless : (a + b) * 2 ^ (j + i) < 0 ↔ a + b < 0 := by
      simpa using Int.mul_lt_mul_right (b := a + b) (c := 0) hpos
    have hzero : (a + b) * 2 ^ (j + i) = 0 ↔ a + b = 0 := by
      rw [Int.mul_eq_zero, or_iff_left hpos.ne']
    rw [Bool.eq_iff_iff]
    simp only [Bool.or_eq_true, Bool.and_eq_true, decide_eq_true_eq, beq_iff_eq, hless, hzero]
    omega
  have hmagnitude : ((a + b) * 2 ^ (j + i)).natAbs = (a + b).natAbs * 2 ^ (j + i) := by
    rw [Int.natAbs_mul]
    simp [Int.natAbs_pow]
  have hden : 2 ^ j * 2 ^ i = 2 ^ (j + i) := (Nat.pow_add ..).symm
  simp only [Binary64.add, not_isNaN_of_isFinite hx.finite, not_isNaN_of_isFinite hy.finite,
    hxratio, hyratio, hsum, hx.negative, hy.negative, hsign, hmagnitude, hden, Bool.or_false,
    Bool.false_and, Bool.false_eq_true, if_false]
  exact ofRatio_mul_right _ _ (Nat.two_pow_pos (j + i))

section Products

variable {x y : Binary64} {n m : Nat}

theorem Counts.mul (hx : x.Counts n) (hy : y.Counts m) : x.mul y = ofNat (n * m) := by
  obtain ⟨hxsign, hxfinite, j, hxratio⟩ := hx
  obtain ⟨hysign, hyfinite, i, hyratio⟩ := hy
  have hnum : n * 2 ^ j * (m * 2 ^ i) = n * m * (2 ^ j * 2 ^ i) := by ring
  simp only [Binary64.mul, not_isNaN_of_isFinite hxfinite, not_isNaN_of_isFinite hyfinite, hxsign,
    hysign, hxratio, hyratio, hnum, Bool.or_false, bne_self_eq_false, Bool.false_eq_true, if_false]
  exact ofRatio_mul_right false (n * m) (Nat.mul_pos (Nat.two_pow_pos j) (Nat.two_pow_pos i))

private theorem Counts.isZero_eq_false (hx : x.Counts n) (hn : 0 < n) : x.isZero = false := by
  obtain ⟨-, -, j, hratio⟩ := hx
  rw [isZero, beq_eq_false_iff_ne]
  intro hbits
  have hmantissa : x.mantissa = 0 := by simp [mantissa, hbits]
  have hzero : n * 2 ^ j = 0 := by
    have hnum := congrArg Prod.fst hratio
    rw [Binary64.ratio, hmantissa, Nat.zero_mul] at hnum
    exact hnum.symm
  exact (Nat.mul_pos hn (Nat.two_pow_pos j)).ne' hzero

theorem Counts.div (hx : x.Counts (n * m)) (hy : y.Counts m) (hm : 0 < m) : x.div y = ofNat n := by
  have hzero := hy.isZero_eq_false hm
  obtain ⟨hxsign, hxfinite, j, hxratio⟩ := hx
  obtain ⟨hysign, hyfinite, i, hyratio⟩ := hy
  have hnum : n * m * 2 ^ j * 2 ^ i = n * (2 ^ j * (m * 2 ^ i)) := by ring
  simp only [Binary64.div, not_isNaN_of_isFinite hxfinite, not_isNaN_of_isFinite hyfinite, hxsign,
    hysign, hxratio, hyratio, hnum, hzero, Bool.or_false, bne_self_eq_false, Bool.false_eq_true,
    if_false]
  refine ofRatio_mul_right false n ?_
  exact Nat.mul_pos (Nat.two_pow_pos j) (Nat.mul_pos hm (Nat.two_pow_pos i))

theorem Counts.truncate_eq (hx : x.Counts n) : x.truncate = n := by
  obtain ⟨hsign, -, j, hratio⟩ := hx
  simp [truncate, hratio, hsign]

end Products

end Binary64

end EngineHost
