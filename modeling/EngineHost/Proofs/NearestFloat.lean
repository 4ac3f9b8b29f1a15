import EngineHost.Number.Literal
import EngineHost.Proofs.Counting
import Mathlib.Algebra.Order.Field.Power
import Mathlib.Data.Rat.Cast.Order
import Mathlib.Tactic.FieldSimp
import Mathlib.Tactic.Linarith
import Mathlib.Tactic.Positivity

/-!
# Nearest floating-point numbers

`Nearest` says which floating-point number an exact one is rounded to, by distances alone. The
infinities stand for the next power of two, so numbers from halfway to it on are infinite. There is
just one nearest number, and rounding a quotient finds it.
-/

namespace EngineHost

private theorem zpow_eq_div (b : ℚ) (k : ℤ) : b ^ k = b ^ k.toNat / b ^ (-k).toNat := by
  rcases Int.le_total 0 k with hk | hk
  · have hneg : (-k).toNat = 0 := by omega
    obtain ⟨n, rfl⟩ := Int.eq_ofNat_of_zero_le hk
    rw [hneg, pow_zero, div_one, Int.toNat_natCast, zpow_natCast]
  · have hpos : k.toNat = 0 := by omega
    obtain ⟨n, hn⟩ := Int.eq_ofNat_of_zero_le (Int.neg_nonneg.2 hk)
    obtain rfl : k = -(n : ℤ) := by omega
    rw [hpos, pow_zero, neg_neg, Int.toNat_natCast, zpow_neg, zpow_natCast, one_div]

private theorem two_zpow_pos (k : ℤ) : (0 : ℚ) < 2 ^ k := zpow_pos (by norm_num) k

/-! ## Whole numbers -/

private theorem roundDiv_gap (num : Nat) {den : Nat} (hden : 0 < den) (k : Nat) :
    ((num : ℤ) - roundDiv num den * den).natAbs ≤ ((num : ℤ) - k * den).natAbs ∧
      (((num : ℤ) - roundDiv num den * den).natAbs = ((num : ℤ) - k * den).natAbs →
        k ≠ roundDiv num den → roundDiv num den % 2 = 0) := by
  have hnum : (num : ℤ) = (num / den : Nat) * den + (num % den : Nat) := by
    exact_mod_cast (Nat.div_add_mod' num den).symm
  have hr := Nat.mod_lt num hden
  simp only [roundDiv]
  generalize num / den = q at hnum ⊢
  generalize num % den = r at hnum hr ⊢
  have hbelow : (num : ℤ) - q * den = r := by rw [hnum]; ring
  have habove : (num : ℤ) - (q + 1 : Nat) * den = r - den := by rw [hnum]; push_cast; ring
  -- further away than the two neighbours, the distance has grown by a whole denominator
  have hfarBelow (hk : k < q) : (den : ℤ) + r ≤ num - k * den := by
    have hle : ((k : ℤ) + 1) * den ≤ q * den :=
      mul_le_mul_of_nonneg_right (by exact_mod_cast hk) (by positivity)
    rw [hnum]
    linarith
  have hfarAbove (hk : q + 1 < k) : (num : ℤ) - k * den ≤ r - 2 * den := by
    have hle : ((q : ℤ) + 2) * den ≤ k * den :=
      mul_le_mul_of_nonneg_right (by exact_mod_cast hk) (by positivity)
    rw [hnum]
    linarith
  obtain hk | rfl | rfl | hk : k < q ∨ k = q ∨ k = q + 1 ∨ q + 1 < k := by omega
  · have hfar := hfarBelow hk
    generalize (num : ℤ) - k * den = gap at hfar ⊢
    split_ifs <;> simp only [hbelow, habove] <;> omega
  · split_ifs <;> simp only [hbelow, habove] <;> omega
  · split_ifs <;> simp only [hbelow, habove] <;> omega
  · have hfar := hfarAbove hk
    generalize (num : ℤ) - k * den = gap at hfar ⊢
    split_ifs <;> simp only [hbelow, habove] <;> omega

/-- No whole number is closer to `r` than `q`, and where another is just as close, `q` is even. -/
private def Rounded (r : ℚ) (q : Nat) : Prop :=
  ∀ k : Nat, |r - q| ≤ |r - k| ∧ (|r - q| = |r - k| → k ≠ q → q % 2 = 0)

private theorem rounded_roundDiv (num : Nat) {den : Nat} (hden : 0 < den) :
    Rounded ((num : ℚ) / den) (roundDiv num den) := by
  intro k
  have hpos : (0 : ℚ) < den := by exact_mod_cast hden
  have hscale (n : Nat) : |(num : ℚ) / den - n| = ((num : ℤ) - n * den).natAbs / den := by
    rw [Nat.cast_natAbs, Int.cast_abs, ← abs_of_pos hpos, ← abs_div, abs_of_pos hpos]
    congr 1
    push_cast
    field_simp
  obtain ⟨hle, heven⟩ := roundDiv_gap num hden k
  rw [hscale, hscale, div_le_div_iff_of_pos_right hpos, div_left_inj' hpos.ne']
  exact ⟨by exact_mod_cast hle, fun h => heven (by exact_mod_cast h)⟩

private theorem Rounded.le {r : ℚ} {q B : Nat} (h : Rounded r q) (hr : r ≤ B) : q ≤ B := by
  by_contra! hless
  have hless : (B : ℚ) < q := by exact_mod_cast hless
  have hclose := (h B).1
  rw [abs_of_nonpos (by linarith), abs_of_nonpos (by linarith)] at hclose
  linarith

private theorem Rounded.ge {r : ℚ} {q A : Nat} (h : Rounded r q) (hr : (A : ℚ) ≤ r) : A ≤ q := by
  by_contra! hless
  have hless : (q : ℚ) < A := by exact_mod_cast hless
  have hclose := (h A).1
  rw [abs_of_nonneg (by linarith), abs_of_nonneg (by linarith)] at hclose
  linarith

private theorem floorLog2_spec {num den : Nat} (hnum : 0 < num) (hden : 0 < den) :
    (2 : ℚ) ^ floorLog2 num den ≤ num / den ∧ (num : ℚ) / den < 2 ^ (floorLog2 num den + 1) := by
  have hpos : (0 : ℚ) < den := by exact_mod_cast hden
  have hlow : (2 : ℚ) ^ num.log2 ≤ num := by exact_mod_cast Nat.log2_self_le hnum.ne'
  have hhigh : (num : ℚ) < 2 ^ (num.log2 + 1) := by exact_mod_cast Nat.lt_log2_self
  have hlow' : (2 : ℚ) ^ den.log2 ≤ den := by exact_mod_cast Nat.log2_self_le hden.ne'
  have hhigh' : (den : ℚ) < 2 ^ (den.log2 + 1) := by exact_mod_cast Nat.lt_log2_self
  unfold floorLog2
  generalize hk : (num.log2 : ℤ) - den.log2 = k
  have hcompare : den * 2 ^ k.toNat ≤ num * 2 ^ (-k).toNat ↔ (2 : ℚ) ^ k ≤ num / den := by
    rw [zpow_eq_div, div_le_div_iff₀ (by positivity) hpos, mul_comm ((2 : ℚ) ^ k.toNat)]
    exact_mod_cast Iff.rfl
  have hupper : (num : ℚ) / den < 2 ^ (k + 1) := by
    rw [div_lt_iff₀ hpos]
    calc (num : ℚ) < 2 ^ (num.log2 + 1) := hhigh
      _ = 2 ^ (k + 1) * 2 ^ den.log2 := by
          rw [← zpow_natCast, ← zpow_natCast, ← zpow_add₀ (by norm_num)]
          congr 1
          push_cast
          omega
      _ ≤ 2 ^ (k + 1) * den := mul_le_mul_of_nonneg_left hlow' (two_zpow_pos _).le
  have hlower : (2 : ℚ) ^ (k - 1) ≤ num / den := by
    rw [le_div_iff₀ hpos]
    calc (2 : ℚ) ^ (k - 1) * den ≤ 2 ^ (k - 1) * 2 ^ (den.log2 + 1) :=
          mul_le_mul_of_nonneg_left hhigh'.le (two_zpow_pos _).le
      _ = 2 ^ num.log2 := by
          rw [← zpow_natCast, ← zpow_natCast, ← zpow_add₀ (by norm_num)]
          congr 1
          push_cast
          omega
      _ ≤ num := hlow
  simp only [hcompare]
  split_ifs with h
  · exact ⟨h, hupper⟩
  · refine ⟨hlower, ?_⟩
    rw [sub_add_cancel]
    exact not_le.1 h

namespace Binary64

/-! ## Magnitudes -/

/-- The magnitude of a number. That of the infinities is the power of two behind the largest finite
one. -/
def magnitude (x : Binary64) : ℚ := x.mantissa * 2 ^ x.exponent

private def place (m : Nat) : ℚ :=
  if m / 2 ^ 52 = 0 then (m % 2 ^ 52 : Nat) * 2 ^ (-1074 : ℤ)
  else (m % 2 ^ 52 + 2 ^ 52 : Nat) * 2 ^ ((m / 2 ^ 52 : Nat) - 1075 : ℤ)

private theorem magnitude_eq_place (x : Binary64) : x.magnitude = place x.magnitudeBits := by
  simp only [magnitude, mantissa, exponent, place]
  split_ifs <;> rfl

/-- A mantissa of a bit more than the full width carries into the exponent field. -/
private theorem place_carry {q E : Nat} (hq : q ≤ 2 ^ 53) (hE : E = 0 ∨ 2 ^ 52 ≤ q) :
    place (q + E * 2 ^ 52) = q * 2 ^ (E - 1074 : ℤ) := by
  unfold place
  obtain hsub | hnormal | rfl : q < 2 ^ 52 ∨ 2 ^ 52 ≤ q ∧ q < 2 ^ 53 ∨ q = 2 ^ 53 := by omega
  · obtain rfl : E = 0 := by omega
    have hfield : (q + 0 * 2 ^ 52) / 2 ^ 52 = 0 := by omega
    have hfraction : (q + 0 * 2 ^ 52) % 2 ^ 52 = q := by omega
    rw [hfield, hfraction, if_pos rfl]
    norm_num
  · have hfield : (q + E * 2 ^ 52) / 2 ^ 52 = E + 1 := by omega
    have hfraction : (q + E * 2 ^ 52) % 2 ^ 52 + 2 ^ 52 = q := by omega
    rw [hfield, hfraction, if_neg (by omega)]
    congr 2
    push_cast
    ring
  · have hfield : (2 ^ 53 + E * 2 ^ 52) / 2 ^ 52 = E + 2 := by omega
    have hfraction : (2 ^ 53 + E * 2 ^ 52) % 2 ^ 52 = 0 := by omega
    have hexponent : ((E + 2 : Nat) : ℤ) - 1075 = 1 + (E - 1074) := by push_cast; ring
    rw [hfield, hfraction, if_neg (by omega), hexponent, zpow_add₀ (by norm_num), zpow_one]
    push_cast
    ring

private theorem exists_carry (m : Nat) :
    ∃ q E, m = q + E * 2 ^ 52 ∧ q < 2 ^ 53 ∧ (E = 0 ∨ 2 ^ 52 ≤ q) := by
  by_cases hfield : m / 2 ^ 52 = 0
  · exact ⟨m, 0, by omega, by omega, .inl rfl⟩
  · exact ⟨m % 2 ^ 52 + 2 ^ 52, m / 2 ^ 52 - 1, by omega, by omega, .inr (by omega)⟩

private theorem place_strictMono : StrictMono place := by
  apply strictMono_nat_of_lt_succ
  intro m
  obtain ⟨q, E, rfl, hq, hE⟩ := exists_carry m
  have hsucc : q + E * 2 ^ 52 + 1 = (q + 1) + E * 2 ^ 52 := by ring
  rw [hsucc, place_carry hq.le hE, place_carry hq (by omega)]
  exact mul_lt_mul_of_pos_right (by push_cast; linarith) (two_zpow_pos _)

private theorem place_zero : place 0 = 0 := by norm_num [place]

private theorem place_infinityBits : place infinityBits = 2 ^ 1024 := by
  have hbits : infinityBits = 2 ^ 53 + 2045 * 2 ^ 52 := by decide
  have hexponent : ((2045 : Nat) : ℤ) - 1074 = (971 : Nat) := by norm_num
  rw [hbits, place_carry le_rfl (.inr (by norm_num)), hexponent, zpow_natCast, Nat.cast_pow,
    Nat.cast_ofNat, ← pow_add]

/-! ## The nearest number -/

/-- A number is the nearest one to `r` with a sign: no other is closer, and where another is just as
close, its mantissa is even. -/
structure Nearest (neg : Bool) (r : ℚ) (x : Binary64) : Prop where
  sign : x.negative = neg
  number : x.isNaN = false
  closest : ∀ y : Binary64, y.isNaN = false → |r - x.magnitude| ≤ |r - y.magnitude|
  even : ∀ y : Binary64, y.isNaN = false → y.magnitude ≠ x.magnitude →
    |r - x.magnitude| = |r - y.magnitude| → x.mantissa % 2 = 0

private theorem isNaN_eq_false_iff {x : Binary64} :
    x.isNaN = false ↔ x.magnitudeBits ≤ infinityBits := by
  simp [isNaN]

private theorem mantissa_mod_two (x : Binary64) : x.mantissa % 2 = x.magnitudeBits % 2 := by
  simp only [mantissa]
  split_ifs <;> omega

private def Closest (r : ℚ) (m : Nat) : Prop :=
  ∀ m' ≤ infinityBits, |r - place m| ≤ |r - place m'| ∧
    (|r - place m| = |r - place m'| → m' ≠ m → m % 2 = 0)

private theorem Closest.nearest {r : ℚ} {m : Nat} (h : Closest r m) (hm : m ≤ infinityBits)
    (neg : Bool) : Nearest neg r (ofMagnitude neg m) := by
  have hless : m < 2 ^ 63 := Nat.lt_of_le_of_lt hm (by decide)
  have hbits := magnitudeBits_ofMagnitude neg hless
  have hplace : (ofMagnitude neg m).magnitude = place m := by rw [magnitude_eq_place, hbits]
  refine ⟨negative_ofMagnitude neg hless, ?_, fun y hy => ?_, fun y hy hne heq => ?_⟩
  · rw [isNaN_eq_false_iff, hbits]
    exact hm
  · rw [hplace, magnitude_eq_place y]
    exact (h _ (isNaN_eq_false_iff.1 hy)).1
  · rw [hplace, magnitude_eq_place y] at heq
    rw [hplace, magnitude_eq_place y] at hne
    rw [mantissa_mod_two, hbits]
    exact (h _ (isNaN_eq_false_iff.1 hy)).2 heq fun hsame => hne (by rw [hsame])

/-- From a power of two on, the patterns are multiples of its step width. -/
private theorem place_of_le {q E E' : Nat} (h : E ≤ E') :
    (q : ℚ) * 2 ^ (E' - 1074 : ℤ) = (q * 2 ^ (E' - E) : Nat) * 2 ^ (E - 1074 : ℤ) := by
  have hexponent : (E' : ℤ) - 1074 = ((E' - E : Nat) : ℤ) + (E - 1074) := by omega
  rw [hexponent, zpow_add₀ (by norm_num), zpow_natCast]
  push_cast
  ring

private theorem place_of_lt {q E E' : Nat} (hq : q < 2 ^ 53) (h : E' < E) :
    (q : ℚ) * 2 ^ (E' - 1074 : ℤ) < 2 ^ 52 * 2 ^ (E - 1074 : ℤ) := by
  have hq : (q : ℚ) < 2 ^ 53 := by exact_mod_cast hq
  calc (q : ℚ) * 2 ^ (E' - 1074 : ℤ) < 2 ^ 53 * 2 ^ (E' - 1074 : ℤ) :=
        mul_lt_mul_of_pos_right hq (two_zpow_pos _)
    _ = 2 ^ 52 * 2 ^ (E' + 1 - 1074 : ℤ) := by
        rw [add_sub_right_comm, zpow_add₀ (by norm_num), zpow_one]
        ring
    _ ≤ 2 ^ 52 * 2 ^ (E - 1074 : ℤ) := by
        refine mul_le_mul_of_nonneg_left (zpow_le_zpow_right₀ (by norm_num) ?_) (by norm_num)
        omega

/-- A rounded multiple of a step width is the nearest pattern: those of the same width and above are
multiples too, and those below are all too small. -/
private theorem closest_carry {r : ℚ} {q E : Nat} (hq : q ≤ 2 ^ 53)
    (hE : E = 0 ∨ 2 ^ 52 ≤ q ∧ 2 ^ 52 * 2 ^ (E - 1074 : ℤ) ≤ r)
    (hround : Rounded (r / 2 ^ (E - 1074 : ℤ)) q) : Closest r (q + E * 2 ^ 52) := by
  have hstep := two_zpow_pos (E - 1074 : ℤ)
  have hscale (k : ℚ) : |r - k * 2 ^ (E - 1074 : ℤ)| =
      |r / 2 ^ (E - 1074 : ℤ) - k| * 2 ^ (E - 1074 : ℤ) := by
    rw [← abs_of_pos hstep, ← abs_mul, abs_of_pos hstep]
    congr 1
    field_simp
  intro m' _
  rw [place_carry hq (hE.imp_right And.left), hscale]
  obtain ⟨q', E', hm', hq', hE'⟩ := exists_carry m'
  rw [hm', place_carry hq'.le hE']
  rcases Nat.lt_or_ge E' E with hless | hge
  · obtain ⟨-, hr⟩ := hE.resolve_left (by omega)
    have hclose := (hround (2 ^ 52)).1
    have hfar := place_of_lt hq' hless
    have hlt : |r / 2 ^ (E - 1074 : ℤ) - q| * 2 ^ (E - 1074 : ℤ) <
        |r - q' * 2 ^ (E' - 1074 : ℤ)| := by
      calc |r / 2 ^ (E - 1074 : ℤ) - q| * 2 ^ (E - 1074 : ℤ)
          ≤ |r / 2 ^ (E - 1074 : ℤ) - (2 ^ 52 : Nat)| * 2 ^ (E - 1074 : ℤ) :=
            mul_le_mul_of_nonneg_right hclose hstep.le
        _ = r - 2 ^ 52 * 2 ^ (E - 1074 : ℤ) := by
            rw [← hscale]
            push_cast
            exact abs_of_nonneg (sub_nonneg.2 hr)
        _ < r - q' * 2 ^ (E' - 1074 : ℤ) := sub_lt_sub_left hfar r
        _ ≤ |r - q' * 2 ^ (E' - 1074 : ℤ)| := le_abs_self _
    exact ⟨hlt.le, fun heq => absurd heq hlt.ne⟩
  · obtain ⟨hclose, heven⟩ := hround (q' * 2 ^ (E' - E))
    rw [place_of_le hge, hscale]
    refine ⟨mul_le_mul_of_nonneg_right hclose hstep.le, fun heq hne => ?_⟩
    have hparity : (q + E * 2 ^ 52) % 2 = q % 2 := by omega
    rw [hparity]
    refine heven (mul_right_cancel₀ hstep.ne' heq) fun hsame => hne ?_
    apply place_strictMono.injective
    rw [place_carry hq'.le hE', place_carry hq (hE.imp_right And.left), place_of_le hge, hsame]

private theorem closest_infinity {r : ℚ} (hr : 2 ^ 1024 ≤ r) : Closest r infinityBits := by
  intro m' hm'
  have hplace : place m' ≤ 2 ^ 1024 :=
    place_infinityBits ▸ place_strictMono.monotone hm'
  rw [place_infinityBits, abs_of_nonneg (sub_nonneg.2 hr),
    abs_of_nonneg (sub_nonneg.2 (hplace.trans hr))]
  exact ⟨sub_le_sub_left hplace r, fun _ _ => by decide⟩

private theorem closest_zero {r : ℚ} (hzero : 0 ≤ r) (hr : 2 * r < 2 ^ (-1074 : ℤ)) :
    Closest r 0 := by
  intro m' _
  rw [place_zero, sub_zero, abs_of_nonneg hzero]
  refine ⟨?_, fun _ _ => rfl⟩
  rcases Nat.eq_zero_or_pos m' with rfl | hpos
  · rw [place_zero, sub_zero, abs_of_nonneg hzero]
  · have hone : place 1 = 2 ^ (-1074 : ℤ) := by norm_num [place]
    have hplace : 2 ^ (-1074 : ℤ) ≤ place m' := hone ▸ place_strictMono.monotone hpos
    rw [abs_sub_comm]
    exact le_trans (by linarith) (le_abs_self _)

/-- Past the largest finite pattern, a rounded multiple is capped by infinity. -/
private theorem closest_capped {r : ℚ} {q E : Nat} (hq : q ≤ 2 ^ 53)
    (hE : E = 0 ∨ 2 ^ 52 ≤ q ∧ 2 ^ 52 * 2 ^ (E - 1074 : ℤ) ≤ r)
    (hround : Rounded (r / 2 ^ (E - 1074 : ℤ)) q) :
    Closest r (Min.min infinityBits (q + E * 2 ^ 52)) := by
  rcases Nat.lt_or_ge infinityBits (q + E * 2 ^ 52) with hinfinite | hfinite
  · have hlarge : 2046 ≤ E := by
      rw [infinityBits] at hinfinite
      omega
    obtain ⟨-, hr⟩ := hE.resolve_left (by omega)
    have hwidth : (2 : ℚ) ^ 1024 = 2 ^ 52 * 2 ^ (972 : ℤ) := by
      rw [show (972 : ℤ) = (972 : Nat) from rfl, zpow_natCast, ← pow_add]
    rw [Nat.min_eq_left hinfinite.le]
    refine closest_infinity (le_trans ?_ hr)
    rw [hwidth]
    exact mul_le_mul_of_nonneg_left (zpow_le_zpow_right₀ (by norm_num) (by omega)) (by norm_num)
  · rw [Nat.min_eq_right hfinite]
    exact closest_carry hq hE hround

private theorem rounded_scaled (num : Nat) {den : Nat} (hden : 0 < den) (k : ℤ) :
    Rounded ((num : ℚ) / den / 2 ^ k)
      (roundDiv (num * 2 ^ (-k).toNat) (den * 2 ^ k.toNat)) := by
  have hratio : (num : ℚ) / den / 2 ^ k =
      (num * 2 ^ (-k).toNat : Nat) / (den * 2 ^ k.toNat : Nat) := by
    rw [zpow_eq_div, Nat.cast_mul, Nat.cast_mul, Nat.cast_pow, Nat.cast_pow, Nat.cast_ofNat,
      div_div_div_eq]
  rw [hratio]
  exact rounded_roundDiv _ (Nat.mul_pos hden (Nat.two_pow_pos _))

/-- Rounding a quotient finds the nearest number. -/
theorem nearest_ofRatio (neg : Bool) (num : Nat) {den : Nat} (hden : 0 < den) :
    Nearest neg ((num : ℚ) / den) (ofRatio neg num den) := by
  unfold ofRatio
  split_ifs with hnum
  · subst hnum
    have hzero : Closest ((0 : Nat) / den : ℚ) 0 := closest_zero (by simp) (by simp)
    exact hzero.nearest (by decide) neg
  obtain ⟨hlow, hhigh⟩ := floorLog2_spec (Nat.pos_of_ne_zero hnum) hden
  generalize floorLog2 num den = k at hlow hhigh ⊢
  obtain ⟨E, hE⟩ : ∃ E : Nat, Max.max (-1074) (k - 52) = (E : ℤ) - 1074 :=
    ⟨(Max.max (-1074) (k - 52) + 1074).toNat, by omega⟩
  have hfield : ((E : ℤ) - 1074 + 1074).toNat = E := by omega
  simp only [hE, hfield]
  have hstep := two_zpow_pos (E - 1074 : ℤ)
  have hround := rounded_scaled num hden (E - 1074)
  generalize roundDiv _ _ = q at hround ⊢
  -- the exponent is chosen so that the mantissa has its full width, unless it is the least one
  have hwide (n : Nat) : ((2 ^ n : Nat) : ℚ) * 2 ^ (E - 1074 : ℤ) = 2 ^ (n + E - 1074 : ℤ) := by
    rw [Nat.cast_pow, Nat.cast_ofNat, ← zpow_natCast, ← zpow_add₀ (by norm_num), add_sub_assoc]
  have hq : q ≤ 2 ^ 53 := by
    apply hround.le
    rw [div_le_iff₀ hstep, hwide]
    exact hhigh.le.trans (zpow_le_zpow_right₀ (by norm_num) (by push_cast; omega))
  have hnormal : E = 0 ∨ 2 ^ 52 ≤ q ∧ 2 ^ 52 * 2 ^ (E - 1074 : ℤ) ≤ (num : ℚ) / den := by
    rcases Nat.eq_zero_or_pos E with hzero | hE'
    · exact .inl hzero
    have hr : ((2 ^ 52 : Nat) : ℚ) * 2 ^ (E - 1074 : ℤ) ≤ (num : ℚ) / den := by
      rw [hwide]
      exact (zpow_le_zpow_right₀ (by norm_num) (by push_cast; omega)).trans hlow
    exact .inr ⟨hround.ge ((le_div_iff₀ hstep).2 hr), by exact_mod_cast hr⟩
  exact (closest_capped hq hnormal hround).nearest (Nat.min_le_left _ _) neg

/-- Between two even patterns there is another one, so they are not both the closest. -/
private theorem not_closest_of_lt {r : ℚ} {m m' : Nat} (h : Closest r m) (h' : Closest r m')
    (hm' : m' ≤ infinityBits) (hlt : m < m') : False := by
  have heq : |r - place m| = |r - place m'| := le_antisymm (h m' hm').1 (h' m (by omega)).1
  have heven := (h m' hm').2 heq hlt.ne'
  have heven' := (h' m (by omega)).2 heq.symm hlt.ne
  have hbetween := (h (m + 1) (by omega)).1
  have hlow : place m < place (m + 1) := place_strictMono (by omega)
  have hhigh : place (m + 1) < place m' := place_strictMono (by omega)
  rcases abs_eq_abs.1 heq with hsame | hmiddle
  · linarith
  · rw [abs_of_nonneg (by linarith : 0 ≤ r - place m)] at hbetween
    rcases le_abs.1 hbetween with hless | hmore <;> linarith

private theorem Nearest.closest_bits {neg : Bool} {r : ℚ} {x : Binary64} (h : Nearest neg r x) :
    Closest r x.magnitudeBits := by
  intro m hm
  have hbits := magnitudeBits_ofMagnitude false (m := m) (Nat.lt_of_le_of_lt hm (by decide))
  have hnumber : (ofMagnitude false m).isNaN = false := by rwa [isNaN_eq_false_iff, hbits]
  have hplace : (ofMagnitude false m).magnitude = place m := by rw [magnitude_eq_place, hbits]
  have hclosest := h.closest _ hnumber
  have heven := h.even _ hnumber
  rw [hplace, magnitude_eq_place x] at hclosest heven
  rw [mantissa_mod_two] at heven
  exact ⟨hclosest, fun heq hne => heven (place_strictMono.injective.ne hne) heq⟩

private theorem ofMagnitude_self (x : Binary64) : ofMagnitude x.negative x.magnitudeBits = x := by
  obtain ⟨bits⟩ := x
  have hbits := bits.toNat_lt
  simp only [ofMagnitude, negative, magnitudeBits, UInt64.le_iff_toNat_le, UInt64.reduceToNat,
    decide_eq_true_eq, Binary64.mk.injEq, ← UInt64.toNat_inj, UInt64.toNat_ofNat']
  split_ifs <;> omega

theorem Nearest.unique {neg : Bool} {r : ℚ} {x y : Binary64} (hx : Nearest neg r x)
    (hy : Nearest neg r y) : x = y := by
  have hbits : x.magnitudeBits = y.magnitudeBits := by
    rcases Nat.lt_trichotomy x.magnitudeBits y.magnitudeBits with hlt | heq | hlt
    · exact (not_closest_of_lt hx.closest_bits hy.closest_bits
        (isNaN_eq_false_iff.1 hy.number) hlt).elim
    · exact heq
    · exact (not_closest_of_lt hy.closest_bits hx.closest_bits
        (isNaN_eq_false_iff.1 hx.number) hlt).elim
  rw [← ofMagnitude_self x, ← ofMagnitude_self y, hx.sign, hy.sign, hbits]

end Binary64

/-! ## Literals -/

namespace Literal

open Binary64 (Nearest nearest_ofRatio)

private theorem nearest_zero (neg : Bool) {r : ℚ} (hzero : 0 ≤ r) (hr : 2 * r < 2 ^ (-1074 : ℤ)) :
    Nearest neg r (Binary64.ofMagnitude neg 0) :=
  (Binary64.closest_zero hzero hr).nearest (by decide) neg

private theorem nearest_infinity (neg : Bool) {r : ℚ} (hr : 2 ^ 1024 ≤ r) :
    Nearest neg r (Binary64.infinity neg) :=
  (Binary64.closest_infinity hr).nearest le_rfl neg

private theorem nearest_scaled_ratio (neg : Bool) (mantissa base : Nat) (hbase : 0 < base)
    (scale : ℤ) : Nearest neg (mantissa * (base : ℚ) ^ scale)
      (Binary64.ofRatio neg (mantissa * base ^ scale.toNat) (base ^ (-scale).toNat)) := by
  have h := nearest_ofRatio neg (mantissa * base ^ scale.toNat)
    (Nat.pow_pos (n := (-scale).toNat) hbase)
  rwa [Nat.cast_mul, Nat.cast_pow, Nat.cast_pow, mul_div_assoc, ← zpow_eq_div] at h

private theorem zpow_le_scaled {base mantissa n : Nat} (hbase : 0 < base) (h : base ^ n ≤ mantissa)
    (scale : ℤ) : (base : ℚ) ^ (n + scale) ≤ mantissa * (base : ℚ) ^ scale := by
  have hpos : (0 : ℚ) < base := by exact_mod_cast hbase
  rw [zpow_add₀ hpos.ne', zpow_natCast]
  exact mul_le_mul_of_nonneg_right (by exact_mod_cast h) (zpow_pos hpos _).le

private theorem scaled_lt_zpow {base mantissa n : Nat} (hbase : 0 < base) (h : mantissa < base ^ n)
    (scale : ℤ) : mantissa * (base : ℚ) ^ scale < (base : ℚ) ^ (n + scale) := by
  have hpos : (0 : ℚ) < base := by exact_mod_cast hbase
  rw [zpow_add₀ hpos.ne', zpow_natCast]
  exact mul_lt_mul_of_pos_right (by exact_mod_cast h) (zpow_pos hpos _)

private theorem ten_pow_ge : (2 : ℚ) ^ (1200 : ℤ) ≤ 10 ^ (400 : ℤ) := by
  rw [show (1200 : ℤ) = 3 * 400 from rfl, zpow_mul]
  exact zpow_le_zpow_left₀ (by norm_num) (by norm_num) (by norm_num)

private theorem twice_two_zpow_lt : 2 * (2 : ℚ) ^ (-1200 : ℤ) < 2 ^ (-1074 : ℤ) := by
  rw [← zpow_one_add₀ (by norm_num)]
  exact zpow_lt_zpow_right₀ (by norm_num) (by norm_num)

/-- A decimal literal is rounded to the nearest number. -/
theorem nearest_scaled (neg : Bool) {mantissa digits : Nat} (scale : ℤ)
    (hlow : mantissa ≠ 0 → 10 ^ (digits - 1) ≤ mantissa) (hhigh : mantissa < 10 ^ digits) :
    Nearest neg (mantissa * 10 ^ scale) (scaled neg mantissa digits scale) := by
  unfold scaled
  split_ifs with hzero hlarge hsmall
  · subst hzero
    apply nearest_zero <;> simp
  · apply nearest_infinity
    calc (2 : ℚ) ^ 1024 = 2 ^ (1024 : ℤ) := (zpow_natCast 2 1024).symm
      _ ≤ 2 ^ (1200 : ℤ) := zpow_le_zpow_right₀ (by norm_num) (by norm_num)
      _ ≤ 10 ^ (400 : ℤ) := ten_pow_ge
      _ ≤ 10 ^ (((digits - 1 : Nat) : ℤ) + scale) :=
          zpow_le_zpow_right₀ (by norm_num) (by omega)
      _ ≤ mantissa * 10 ^ scale := zpow_le_scaled (by decide) (hlow hzero) scale
  · apply nearest_zero
    · positivity
    · calc 2 * (mantissa * 10 ^ scale : ℚ)
          ≤ 2 * 10 ^ ((digits : ℤ) + scale) :=
            mul_le_mul_of_nonneg_left (scaled_lt_zpow (by decide) hhigh scale).le (by norm_num)
        _ ≤ 2 * 10 ^ (-400 : ℤ) := mul_le_mul_of_nonneg_left
            (zpow_le_zpow_right₀ (by norm_num) hsmall.le) (by norm_num)
        _ ≤ 2 * 2 ^ (-1200 : ℤ) := by
            rw [zpow_neg, zpow_neg]
            exact mul_le_mul_of_nonneg_left
              (inv_anti₀ (two_zpow_pos _) ten_pow_ge) (by norm_num)
        _ < 2 ^ (-1074 : ℤ) := twice_two_zpow_lt
  · exact nearest_scaled_ratio neg mantissa 10 (by decide) scale

theorem nearest_scaledBinary (neg : Bool) (mantissa : Nat) (scale : ℤ) :
    Nearest neg (mantissa * 2 ^ scale) (scaledBinary neg mantissa scale) := by
  unfold scaledBinary
  split_ifs with hzero hlarge hsmall
  · subst hzero
    apply nearest_zero <;> simp
  · apply nearest_infinity
    calc (2 : ℚ) ^ 1024 = 2 ^ (1024 : ℤ) := (zpow_natCast 2 1024).symm
      _ ≤ 2 ^ ((mantissa.log2 : ℤ) + scale) := zpow_le_zpow_right₀ (by norm_num) (by omega)
      _ ≤ mantissa * 2 ^ scale := zpow_le_scaled (by decide) (Nat.log2_self_le hzero) scale
  · apply nearest_zero
    · positivity
    · calc 2 * (mantissa * 2 ^ scale : ℚ)
          ≤ 2 * 2 ^ (((mantissa.log2 + 1 : Nat) : ℤ) + scale) :=
            mul_le_mul_of_nonneg_left (scaled_lt_zpow (by decide) Nat.lt_log2_self scale).le
              (by norm_num)
        _ ≤ 2 * 2 ^ (-1200 : ℤ) := mul_le_mul_of_nonneg_left
            (zpow_le_zpow_right₀ (by norm_num) (by omega)) (by norm_num)
        _ < 2 ^ (-1074 : ℤ) := twice_two_zpow_lt
  · exact nearest_scaled_ratio neg mantissa 2 (by decide) scale

end Literal

end EngineHost
