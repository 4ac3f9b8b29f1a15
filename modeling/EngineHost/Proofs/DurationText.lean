import EngineHost.Proofs.Counting
import EngineHost.Proofs.SignedNumeral
import EngineHost.Time.Duration

/-!
# The texts of durations

The text of a duration is a row of numbers with units, behind an optional sign. `Spelled` gives the
form of these texts and the duration that each of them stands for, and the reader accepts just them.
Digits behind a point are scaled in floating point. In the text of a duration all the numbers
involved are whole and small, so nothing is rounded there and every duration is read back.
-/

namespace EngineHost.Duration

open Bytes (isDigit digitsValue ofNat Numeral digitsValue_append digitsValue_replicate
  digitsValue_lt digitsValue_concat digitsValue_eq_decimal)
open Literal (Sign)

/-! ## The grammar -/

/-- The names of the units of time and their lengths in nanoseconds. -/
def unitTable : List (Bytes × Nat) :=
  [("ns", 1), ("us", 1000), ("µs", 1000), ("μs", 1000), ("ms", 1000000), ("s", 1000000000),
    ("m", 60000000000), ("h", 3600000000000)]

/-- A power of ten, rounded at each multiplication. -/
def roundedPower : Nat → Binary64
  | 0 => Binary64.ofNat 1
  | n + 1 => (roundedPower n).mul (Binary64.ofNat 10)

/-- The digits behind a point that count: the longest run of them with a number of at most
`2 ^ 63`. -/
def Counted (digits kept : Bytes) : Prop :=
  kept.decimal ≤ 2 ^ 63 ∧
    ∃ dropped, digits = kept ++ dropped ∧ ∀ b ∈ dropped.head?, 2 ^ 63 < (kept ++ [b]).decimal

def fractionPart (kept : Bytes) (unit : Nat) : Nat :=
  if 0 < kept.decimal then
    ((Binary64.ofNat kept.decimal).mul
      ((Binary64.ofNat unit).div (roundedPower kept.length))).truncate.toNat
  else 0

/-- A number of units as it is written: digits, perhaps a point with more digits, and the name of
the unit. -/
structure Component where
  whole : Bytes
  fraction : Option Bytes
  unit : Bytes

namespace Component

def digits (c : Component) : Bytes := c.fraction.getD []

def text (c : Component) : Bytes :=
  c.whole ++ ((c.fraction.map (46 :: ·)).getD [] ++ c.unit)

structure Denotes (c : Component) (v : Nat) : Prop where
  whole : ∀ b ∈ c.whole, isDigit b = true
  digits : ∀ b ∈ c.digits, isDigit b = true
  ne_nil : c.whole ≠ [] ∨ c.digits ≠ []
  value : ∃ unit kept, (c.unit, unit) ∈ unitTable ∧ Counted c.digits kept ∧
    v = c.whole.decimal * unit + fractionPart kept unit
  range : v ≤ 2 ^ 63

end Component

/-- Components one after the other, added up in a 64-bit word. No sum may pass `2 ^ 63`; two values
of just that size cancel out. -/
inductive Row : Nat → Bytes → Nat → Prop
  | nil {n : Nat} : Row n [] n
  | cons {c : Component} {v n m : Nat} {s : Bytes} (hc : c.Denotes v)
    (hsum : (n + v) % 2 ^ 64 ≤ 2 ^ 63) (h : Row ((n + v) % 2 ^ 64) s m) : Row n (c.text ++ s) m

/-- The duration that a text stands for. A zero needs no unit. -/
inductive Spelled : Bytes → Duration → Prop
  | zero {sign : Bytes} {neg : Bool} (hsign : Sign sign neg) : Spelled (sign ++ "0") ⟨0⟩
  | row {sign body : Bytes} {neg : Bool} {n : Nat} {d : Duration} (hsign : Sign sign neg)
    (hne : body ≠ []) (hrow : Row 0 body n)
    (hd : d.nanoseconds.toInt = if neg then -(n : Int) else n) : Spelled (sign ++ body) d

variable {c : Component} {s rest digits kept : Bytes} {n m v : Nat} {d : Duration}

/-! ## Digits behind a point -/

private theorem decimal_concat (s : Bytes) (b : UInt8) :
    (s ++ [b]).decimal = 10 * s.decimal + (b.toNat - 48) := by
  rw [← digitsValue_eq_decimal, ← digitsValue_eq_decimal, digitsValue_concat]

private theorem exists_counted (digits : Bytes) : ∃ kept, Counted digits kept := by
  induction digits using List.reverseRecOn with
  | nil => exact ⟨[], by decide, [], rfl, nofun⟩
  | append_singleton s b ih =>
    obtain ⟨kept, hkept, dropped, rfl, hdropped⟩ := ih
    cases dropped with
    | cons c dropped =>
      exact ⟨kept, hkept, c :: dropped ++ [b], by simp, by simpa using hdropped⟩
    | nil =>
      rw [List.append_nil]
      by_cases hfits : (kept ++ [b]).decimal ≤ 2 ^ 63
      · exact ⟨kept ++ [b], hfits, [], by simp, nofun⟩
      · exact ⟨kept, hkept, [b], rfl, by simpa using hfits⟩

private theorem foldl_fractionStep_kept (h : kept.decimal ≤ 2 ^ 63) :
    kept.foldl fractionStep (0, Binary64.ofNat 1, false) =
      (kept.decimal, roundedPower kept.length, false) := by
  induction kept using List.reverseRecOn with
  | nil => rfl
  | append_singleton s b ih =>
    have hlast := decimal_concat s b
    rw [List.foldl_append, ih (by omega), List.foldl_cons, List.foldl_nil, fractionStep]
    simp only [Bool.false_eq_true, if_false, ← hlast]
    rw [if_neg (by omega), if_neg (by omega), List.length_append, List.length_singleton,
      roundedPower]

private theorem foldl_fractionStep_full (s : Bytes) (x : Nat) (scale : Binary64) :
    s.foldl fractionStep (x, scale, true) = (x, scale, true) := by
  induction s with
  | nil => rfl
  | cons b s ih => exact ih

private theorem Counted.leadingFraction (h : Counted digits kept) :
    leadingFraction digits = (kept.decimal, roundedPower kept.length) := by
  obtain ⟨hkept, dropped, rfl, hdropped⟩ := h
  have hfold : ∃ full, (kept ++ dropped).foldl fractionStep (0, Binary64.ofNat 1, false) =
      (kept.decimal, roundedPower kept.length, full) := by
    rw [List.foldl_append, foldl_fractionStep_kept hkept]
    cases dropped with
    | nil => exact ⟨false, rfl⟩
    | cons b dropped =>
      have hfull : 2 ^ 63 < 10 * kept.decimal + (b.toNat - 48) := by
        rw [← decimal_concat]
        exact hdropped b rfl
      have hstep : fractionStep (kept.decimal, roundedPower kept.length, false) b =
          (kept.decimal, roundedPower kept.length, true) := by
        simp only [fractionStep, Bool.false_eq_true, if_false, hfull, if_true, ite_self]
      exact ⟨true, by rw [List.foldl_cons, hstep, foldl_fractionStep_full]⟩
  obtain ⟨full, hfold⟩ := hfold
  simp only [Duration.leadingFraction, hfold]

/-! ## One number with its unit -/

private theorem unit?_eq_some_iff {name : Bytes} {unit : Nat} :
    unit? name = some unit ↔ (name, unit) ∈ unitTable := by
  constructor
  · intro h
    unfold unit? at h
    split_ifs at h with hns hus hms hs hm hh <;> cases h <;> simp_all [unitTable]
  · intro h
    have hall : (unitTable.all fun p => unit? p.1 == some p.2) = true := by decide
    simpa using List.all_eq_true.1 hall _ h

private theorem unitTable_spec {name : Bytes} {unit : Nat} (h : (name, unit) ∈ unitTable) :
    0 < unit ∧ name ≠ [] ∧ ∀ b ∈ name, isUnitByte b = true := by
  have hall : (unitTable.all fun p => 0 < p.2 && !p.1.isEmpty && p.1.all isUnitByte) = true := by
    decide
  simpa [and_assoc] using List.all_eq_true.1 hall _ h

private theorem component?_eq_some_iff {whole name : Bytes} :
    component? whole digits name = some v ↔
      (∃ unit kept, (name, unit) ∈ unitTable ∧ Counted digits kept ∧
        v = whole.decimal * unit + fractionPart kept unit) ∧ v ≤ 2 ^ 63 := by
  have hread {kept : Bytes} (hkept : Counted digits kept) : component? whole digits name =
      if 2 ^ 63 < whole.decimal then none
      else (unit? name).bind fun unit =>
        if 2 ^ 63 / unit < whole.decimal then none
        else if 2 ^ 63 < whole.decimal * unit + fractionPart kept unit then none
        else some (whole.decimal * unit + fractionPart kept unit) := by
    simp only [component?, hkept.leadingFraction, digitsValue_eq_decimal]
    rfl
  constructor
  · intro h
    obtain ⟨kept, hkept⟩ := exists_counted digits
    rw [hread hkept] at h
    split_ifs at h with hwhole
    obtain ⟨unit, hunit, h⟩ := Option.bind_eq_some_iff.1 h
    split_ifs at h with hfits hrange
    obtain rfl := Option.some.inj h
    exact ⟨⟨unit, kept, unit?_eq_some_iff.1 hunit, hkept, rfl⟩, Nat.not_lt.1 hrange⟩
  · rintro ⟨⟨unit, kept, hunit, hkept, rfl⟩, hrange⟩
    have hpos := (unitTable_spec hunit).1
    have hwhole : whole.decimal * unit ≤ 2 ^ 63 := (Nat.le_add_right _ _).trans hrange
    have hfits : ¬2 ^ 63 / unit < whole.decimal :=
      Nat.not_lt.2 ((Nat.le_div_iff_mul_le hpos).2 hwhole)
    have hsmall : ¬2 ^ 63 < whole.decimal :=
      Nat.not_lt.2 ((Nat.le_mul_of_pos_right _ hpos).trans hwhole)
    rw [hread hkept, if_neg hsmall, unit?_eq_some_iff.2 hunit, Option.bind_some, if_neg hfits,
      if_neg (Nat.not_lt.2 hrange)]

private theorem exists_component (s : Bytes) : ∃ fraction : Option Bytes,
    s = Component.text ⟨(splitComponent s).1.1, fraction, (splitComponent s).1.2.2⟩ ++
      (splitComponent s).2 ∧
    fraction.getD [] = (splitComponent s).1.2.1 ∧
    (∀ b ∈ (splitComponent s).1.1, isDigit b = true) ∧
    ∀ b ∈ (splitComponent s).1.2.1, isDigit b = true := by
  have hall (p : UInt8 → Bool) (t : Bytes) := List.takeWhile_append_dropWhile (p := p) (l := t)
  have hdigits (t : Bytes) : ∀ b ∈ t.takeWhile isDigit, isDigit b = true :=
    fun b hb => List.mem_takeWhile_imp hb
  obtain ⟨fraction, hrest, hfraction, hmem⟩ : ∃ fraction : Option Bytes,
      s.dropWhile isDigit =
        (fraction.map (46 :: ·)).getD [] ++ (splitFraction (s.dropWhile isDigit)).2 ∧
      fraction.getD [] = (splitFraction (s.dropWhile isDigit)).1 ∧
      ∀ b ∈ (splitFraction (s.dropWhile isDigit)).1, isDigit b = true := by
    unfold splitFraction
    split
    next rest hrest =>
      exact ⟨some (rest.takeWhile isDigit), by simp [hrest], rfl, hdigits rest⟩
    next => exact ⟨none, rfl, rfl, nofun⟩
  refine ⟨fraction, ?_, hfraction, hdigits s, hmem⟩
  simp only [splitComponent, Component.text, List.append_assoc]
  rw [hall isUnitByte, ← hrest, hall isDigit]

namespace Component

variable {unit : Nat}

/-- A component ends where the next one starts. -/
private theorem splitComponent_text (hwhole : ∀ b ∈ c.whole, isDigit b = true)
    (hdigits : ∀ b ∈ c.digits, isDigit b = true) (hunit : (c.unit, unit) ∈ unitTable)
    (hrest : ∀ b ∈ rest.head?, isUnitByte b = false) :
    splitComponent (c.text ++ rest) = ((c.whole, c.digits, c.unit), rest) := by
  obtain ⟨whole, fraction, name⟩ := c
  dsimp only [digits] at hwhole hdigits hunit ⊢
  obtain ⟨-, hne, hname⟩ := unitTable_spec hunit
  obtain ⟨a, more, hcons⟩ := List.exists_cons_of_ne_nil hne
  have ha : a ≠ 46 ∧ isDigit a = false := by
    simpa [isUnitByte] using hname a (hcons ▸ List.mem_cons_self)
  have hbehind : ∀ b ∈ (name ++ rest).head?, isDigit b = false := by
    rw [hcons]
    intro b hb
    cases hb
    exact ha.2
  have hunits := Bytes.takeWhile_dropWhile_append hname rest hrest
  cases fraction with
  | none =>
    have hnumber := Bytes.takeWhile_dropWhile_append hwhole (name ++ rest) hbehind
    have hpoint : splitFraction (name ++ rest) = ([], name ++ rest) := by
      rw [hcons, List.cons_append, splitFraction]
      intro after hafter
      exact ha.1 (List.cons.inj hafter).1
    simp only [text, Option.map_none, Option.getD_none, List.nil_append, List.append_assoc,
      splitComponent, hnumber, hpoint, hunits]
  | some digits =>
    have hnumber := Bytes.takeWhile_dropWhile_append hwhole (46 :: (digits ++ (name ++ rest)))
      (by simp [isDigit])
    have hfraction := Bytes.takeWhile_dropWhile_append hdigits (name ++ rest) hbehind
    rw [Option.getD_some] at hfraction
    simp only [text, Option.map_some, Option.getD_some, List.append_assoc, List.cons_append,
      splitComponent, hnumber, splitFraction, hfraction, hunits]

private theorem head_text (hwhole : ∀ b ∈ c.whole, isDigit b = true)
    (hne : c.whole ≠ [] ∨ c.digits ≠ []) :
    ∃ b more, c.text = b :: more ∧ (isDigit b = true ∨ b = 46) := by
  obtain ⟨whole, fraction, name⟩ := c
  cases whole with
  | cons b whole => exact ⟨b, _, rfl, .inl (hwhole b List.mem_cons_self)⟩
  | nil =>
    cases fraction with
    | none => simp [digits] at hne
    | some digits => exact ⟨46, _, rfl, .inr rfl⟩

private theorem Denotes.component? (h : c.Denotes v) :
    component? c.whole c.digits c.unit = some v :=
  component?_eq_some_iff.2 ⟨h.value, h.range⟩

private theorem Denotes.components? (h : c.Denotes v)
    (hrest : ∀ b ∈ rest.head?, isUnitByte b = false) (fuel : Nat) (sum : UInt64) :
    components? (fuel + 1) sum (c.text ++ rest) =
      if 0x8000000000000000 < sum + UInt64.ofNat v then none
      else Duration.components? fuel (sum + UInt64.ofNat v) rest := by
  obtain ⟨unit, kept, hunit, -, -⟩ := h.value
  obtain ⟨b, more, htext, -⟩ := head_text h.whole h.ne_nil
  have hsplit := splitComponent_text h.whole h.digits hunit hrest
  have hnumber : (c.whole.isEmpty && c.digits.isEmpty) = false := by
    simpa [or_iff_not_imp_left] using h.ne_nil
  have hname : c.unit.isEmpty = false := by simpa using (unitTable_spec hunit).2.1
  rw [htext, List.cons_append] at hsplit ⊢
  rw [Duration.components?]
  simp only [hsplit, hnumber, hname, Bool.false_eq_true, if_false, h.component?, Option.bind_some]

end Component

/-! ## Rows -/

private theorem Row.head (h : Row n s m) : ∀ b ∈ s.head?, isUnitByte b = false := by
  cases h with
  | nil => nofun
  | cons hc hsum h =>
    obtain ⟨b, more, htext, hb⟩ := Component.head_text hc.whole hc.ne_nil
    rw [htext]
    rintro a ha
    cases ha
    rcases hb with hb | rfl <;> simp [isUnitByte, *]

private theorem Row.le (h : Row n s m) (hn : n ≤ 2 ^ 63) : m ≤ 2 ^ 63 := by
  induction h with
  | nil => exact hn
  | cons hc hsum h ih => exact ih hsum

private theorem toNat_add_ofNat (sum : UInt64) (v : Nat) :
    (sum + UInt64.ofNat v).toNat = (sum.toNat + v) % 2 ^ 64 := by
  rw [UInt64.toNat_add, UInt64.toNat_ofNat', Nat.add_mod_mod]

private theorem lt_add_ofNat_iff (sum : UInt64) (v : Nat) :
    0x8000000000000000 < sum + UInt64.ofNat v ↔ 2 ^ 63 < (sum.toNat + v) % 2 ^ 64 := by
  rw [UInt64.lt_iff_toNat_lt, toNat_add_ofNat]
  rfl

private theorem Row.components? (h : Row n s m) (fuel : Nat) (hfuel : s.length < fuel)
    (sum : UInt64) (hsum : sum.toNat = n) : ∃ t, components? fuel sum s = some t ∧ t.toNat = m := by
  induction h generalizing fuel sum with
  | nil =>
    obtain ⟨fuel, rfl⟩ : ∃ k, fuel = k + 1 := ⟨fuel - 1, by omega⟩
    exact ⟨sum, rfl, hsum⟩
  | @cons c v n m s hc hrange h ih =>
    obtain ⟨fuel, rfl⟩ : ∃ k, fuel = k + 1 := ⟨fuel - 1, by omega⟩
    obtain ⟨b, more, htext, -⟩ := Component.head_text hc.whole hc.ne_nil
    have hlength : 0 < c.text.length := by simp [htext]
    rw [List.length_append] at hfuel
    subst hsum
    have hless : ¬(0x8000000000000000 : UInt64) < sum + UInt64.ofNat v := by
      rw [lt_add_ofNat_iff]
      omega
    rw [hc.components? h.head, if_neg hless]
    exact ih fuel (by omega) _ (toNat_add_ofNat sum v)

private theorem row_of_components? {fuel : Nat} {sum t : UInt64}
    (h : components? fuel sum s = some t) : Row sum.toNat s t.toNat := by
  induction fuel generalizing sum s with
  | zero => cases h
  | succ fuel ih =>
    cases s with
    | nil =>
      cases h
      exact .nil
    | cons b s =>
      obtain ⟨fraction, htext, hfraction, hwhole, hdigits⟩ := exists_component (b :: s)
      rw [components?] at h
      simp only at h
      split_ifs at h with hnumber hname
      obtain ⟨v, hv, h⟩ := Option.bind_eq_some_iff.1 h
      split_ifs at h with hless
      rw [lt_add_ofNat_iff, Nat.not_lt] at hless
      have hrow := ih h
      rw [toNat_add_ofNat] at hrow
      rw [← hfraction] at hv hdigits hnumber
      obtain ⟨hvalue, hrange⟩ := component?_eq_some_iff.1 hv
      rw [htext]
      refine .cons ⟨hwhole, hdigits, ?_, hvalue, hrange⟩ hless hrow
      simpa [Component.digits, or_iff_not_imp_left] using hnumber

/-! ## The whole text -/

private theorem ofInt_eq_iff {z : Int} (hlow : -2 ^ 63 ≤ z) (hhigh : z < 2 ^ 63) :
    (⟨Int64.ofInt z⟩ : Duration) = d ↔ d.nanoseconds.toInt = z := by
  obtain ⟨ns⟩ := d
  rw [Duration.mk.injEq, ← Int64.toInt_inj, Int64.toInt_ofInt_of_le hlow hhigh, eq_comm]

private theorem signed_eq_some_iff (neg : Bool) {t : UInt64} (ht : t.toNat ≤ 2 ^ 63) :
    (if neg then some (⟨Int64.ofInt (-(t.toNat : Int))⟩ : Duration)
      else if 0x8000000000000000 ≤ t then none else some ⟨Int64.ofNat t.toNat⟩) = some d ↔
    d.nanoseconds.toInt = if neg then -(t.toNat : Int) else t.toNat := by
  cases neg with
  | true =>
    rw [if_pos rfl, if_pos rfl, Option.some.injEq, ofInt_eq_iff (by omega) (by omega)]
  | false =>
    have hle : (0x8000000000000000 : UInt64) ≤ t ↔ 2 ^ 63 ≤ t.toNat := UInt64.le_iff_toNat_le
    simp only [Bool.false_eq_true, if_false, Option.ite_none_left_eq_some, Option.some.injEq, hle]
    have hgreatest := Int64.toInt_lt d.nanoseconds
    constructor
    · rintro ⟨hlt, h⟩
      rw [← Int64.ofInt_eq_ofNat] at h
      exact (ofInt_eq_iff (by omega) (by omega)).1 h
    · intro h
      rw [← Int64.ofInt_eq_ofNat]
      exact ⟨by omega, (ofInt_eq_iff (by omega) (by omega)).2 h⟩

private theorem Row.ne_zero (h : Row 0 s n) : s ≠ "0" := by
  have hnone : Duration.components? 2 0 "0" = none := by decide
  rintro rfl
  obtain ⟨t, ht, -⟩ := h.components? 2 (by decide) 0 rfl
  rw [hnone] at ht
  cases ht

private theorem Row.splitSign {sign : Bytes} {neg : Bool} (hsign : Sign sign neg) (h : Row n s m) :
    Literal.splitSign (sign ++ s) = (neg, s) := by
  apply hsign.splitSign
  intro b hb
  have hunit := h.head b hb
  constructor <;> rintro rfl <;> cases hunit

/-- A text is read as a duration just if it stands for it. -/
theorem parse?_eq_some_iff : parse? s = some d ↔ Spelled s d := by
  constructor
  · intro h
    obtain ⟨sign, hs, hsign⟩ := Literal.exists_sign s
    rcases hsplit : Literal.splitSign s with ⟨neg, body⟩
    simp only [hsplit] at hs hsign
    simp only [parse?, hsplit] at h
    rw [hs]
    by_cases hzero : body = "0"
    · rw [if_pos hzero] at h
      cases h
      rw [hzero]
      exact .zero hsign
    · rw [if_neg hzero, Option.ite_none_left_eq_some] at h
      obtain ⟨hempty, h⟩ := h
      obtain ⟨t, ht, h⟩ := Option.bind_eq_some_iff.1 h
      have hrow : Row 0 body t.toNat := row_of_components? ht
      exact .row hsign (by simpa using hempty) hrow
        ((signed_eq_some_iff neg (hrow.le (by decide))).1 h)
  · intro h
    cases h with
    | @zero sign neg hsign =>
      have hzero : Bytes.ofString "0" = [48] := by decide
      have hsplit := hsign.splitSign (s := Bytes.ofString "0") (by simp [hzero])
      simp only [parse?, hsplit, if_true]
    | @row sign body neg n d hsign hne hrow hd =>
      obtain ⟨t, ht, rfl⟩ := hrow.components? (body.length + 1) (by omega) 0 rfl
      have hempty : body.isEmpty = false := by simpa using hne
      simp only [parse?, hrow.splitSign hsign, hrow.ne_zero, if_false, hempty, Bool.false_eq_true,
        ht, Option.bind_some]
      exact (signed_eq_some_iff neg (hrow.le (by decide))).2 hd

/-! ## The text of a duration -/

/-- The digits of `n / 10 ^ places` behind the point, without trailing zeros. -/
private def keptDigits (n places : Nat) : Bytes :=
  Bytes.dropTrailing (· == 48) (Bytes.padLeft places 48 (ofNat (n % 10 ^ places)))

private theorem exists_dropTrailing_append (s : Bytes) :
    ∃ k, s = Bytes.dropTrailing (· == 48) s ++ List.replicate k 48 := by
  have hzeros : s.reverse.takeWhile (· == 48) =
      List.replicate (s.reverse.takeWhile (· == 48)).length 48 :=
    List.eq_replicate_of_mem fun b hb => by simpa using List.mem_takeWhile_imp hb
  have hreverse : (s.reverse.takeWhile (· == 48)).reverse =
      List.replicate (s.reverse.takeWhile (· == 48)).length 48 := by
    rw [hzeros, List.reverse_replicate, List.length_replicate]
  refine ⟨(s.reverse.takeWhile (· == 48)).length, ?_⟩
  calc s = (s.reverse.takeWhile (· == 48) ++ s.reverse.dropWhile (· == 48)).reverse := by
        rw [List.takeWhile_append_dropWhile, List.reverse_reverse]
    _ = Bytes.dropTrailing (· == 48) s ++ (s.reverse.takeWhile (· == 48)).reverse :=
        List.reverse_append
    _ = _ := by rw [hreverse]

private theorem digits_padLeft {places m : Nat} (hm : m < 10 ^ places) (hplaces : 0 < places) :
    (Bytes.padLeft places 48 (ofNat m)).length = places ∧
      digitsValue (Bytes.padLeft places 48 (ofNat m)) = m ∧
      ∀ b ∈ Bytes.padLeft places 48 (ofNat m), isDigit b = true := by
  have hlength : (ofNat m).length ≤ places := by
    rw [ofNat, List.length_map]
    exact (Nat.length_toDigits_le_iff (by decide) hplaces).2 hm
  refine ⟨?_, ?_, ?_⟩
  · rw [Bytes.padLeft, List.length_append, List.length_replicate]
    omega
  · rw [Bytes.padLeft, digitsValue_append, digitsValue_replicate, Nat.zero_mul, Nat.zero_add,
      Bytes.digitsValue_ofNat]
  · intro b hb
    rcases List.mem_append.1 hb with hzero | hdigit
    · rw [List.eq_of_mem_replicate hzero]
      rfl
    · exact (Bytes.numeral_ofNat m).digits b hdigit

/-- The kept digits make up the fraction once the dropped zeros are put back. -/
private theorem keptDigits_spec (n places : Nat) : (∀ b ∈ keptDigits n places, isDigit b = true) ∧
    ∃ k, (keptDigits n places).length + k = places ∧
      digitsValue (keptDigits n places) * 10 ^ k = n % 10 ^ places := by
  rcases Nat.eq_zero_or_pos places with rfl | hplaces
  · have hnone : keptDigits n 0 = [] := by
      rw [keptDigits, Nat.pow_zero, Nat.mod_one]
      decide
    rw [hnone]
    exact ⟨by simp, 0, rfl, by simp [digitsValue, Nat.mod_one]⟩
  · obtain ⟨hlength, hvalue, hdigits⟩ :=
      digits_padLeft (Nat.mod_lt n (Nat.pow_pos (n := places) (by decide : 0 < 10))) hplaces
    obtain ⟨k, hk⟩ :=
      exists_dropTrailing_append (Bytes.padLeft places 48 (ofNat (n % 10 ^ places)))
    rw [← keptDigits] at hk
    rw [hk] at hlength hvalue hdigits
    rw [digitsValue_append, digitsValue_replicate, List.length_replicate, Nat.add_zero] at hvalue
    rw [List.length_append, List.length_replicate] at hlength
    exact ⟨fun b hb => hdigits b (List.mem_append_left _ hb), k, hlength, hvalue⟩

private theorem roundedPower_eq {k : Nat} (h : 10 ^ k ≤ 2 ^ 53) :
    roundedPower k = Binary64.ofNat (10 ^ k) := by
  induction k with
  | zero => rfl
  | succ k ih =>
    have hk : 10 ^ k ≤ 2 ^ 53 := (Nat.pow_le_pow_right (by decide) (Nat.le_succ k)).trans h
    rw [roundedPower, ih hk, (Binary64.counts_ofNat hk).mul (Binary64.counts_ofNat (by decide)),
      Nat.pow_succ]

/-- Where the digits behind the point end within the unit, nothing is rounded. -/
private theorem fractionPart_eq {k : Nat} (hdigits : ∀ b ∈ digits, isDigit b = true) (hk : 0 < k)
    (hexact : k * 10 ^ digits.length ≤ 2 ^ 53) :
    fractionPart digits (k * 10 ^ digits.length) = digits.decimal * k := by
  have hscale : 0 < 10 ^ digits.length := Nat.pow_pos (by decide)
  have hvalue := digitsValue_lt hdigits
  rw [digitsValue_eq_decimal] at hvalue
  have hkExact : k ≤ 2 ^ 53 := (Nat.le_mul_of_pos_right _ hscale).trans hexact
  have hscaleExact : 10 ^ digits.length ≤ 2 ^ 53 := (Nat.le_mul_of_pos_left _ hk).trans hexact
  have hquotient : (Binary64.ofNat (k * 10 ^ digits.length)).div
      (Binary64.ofNat (10 ^ digits.length)) = Binary64.ofNat k :=
    (Binary64.counts_ofNat hexact).div (Binary64.counts_ofNat hscaleExact) hscale
  have hproduct := (Binary64.counts_ofNat (hvalue.le.trans hscaleExact)).mul
    (Binary64.counts_ofNat hkExact)
  have hproductExact : digits.decimal * k ≤ 2 ^ 53 := by
    rw [Nat.mul_comm]
    exact (Nat.mul_le_mul_left k hvalue.le).trans hexact
  rw [fractionPart, roundedPower_eq hscaleExact, hquotient, hproduct,
    (Binary64.counts_ofNat hproductExact).truncate_eq, Int.toNat_natCast]
  split_ifs with hpos
  · rfl
  · rw [Nat.eq_zero_of_not_pos hpos, Nat.zero_mul]

namespace Component

/-- The value is the number without its point, in units that are smaller by so many places. -/
private theorem denotes_of_unit {k : Nat} (hwhole : c.whole.Numeral)
    (hdigits : ∀ b ∈ c.digits, isDigit b = true) (hk : 0 < k)
    (hunit : (c.unit, k * 10 ^ c.digits.length) ∈ unitTable)
    (hexact : k * 10 ^ c.digits.length ≤ 2 ^ 53)
    (hv : digitsValue (c.whole ++ c.digits) * k = v) (hrange : v ≤ 2 ^ 63) : c.Denotes v where
  whole := hwhole.digits
  digits := hdigits
  ne_nil := .inl hwhole.ne_nil
  range := hrange
  value := by
    have hlt := digitsValue_lt hdigits
    rw [digitsValue_eq_decimal] at hlt
    have hscale := (Nat.le_mul_of_pos_left (10 ^ c.digits.length) hk).trans hexact
    refine ⟨_, c.digits, hunit, ⟨by omega, [], by simp, nofun⟩, ?_⟩
    rw [fractionPart_eq hdigits hk hexact, ← hv, digitsValue_append, digitsValue_eq_decimal,
      digitsValue_eq_decimal]
    ring

/-- `n` nanoseconds in units of `10 ^ places` nanoseconds. -/
private def ofUnits (n places : Nat) (name : Bytes) : Component where
  whole := ofNat (n / 10 ^ places)
  fraction := if keptDigits n places = [] then none else some (keptDigits n places)
  unit := name

private theorem digits_ofUnits (n places : Nat) (name : Bytes) :
    (ofUnits n places name).digits = keptDigits n places := by
  unfold ofUnits digits
  split_ifs with hnone <;> simp [hnone]

private theorem text_ofUnits (n places : Nat) (name : Bytes) :
    (ofUnits n places name).text = units n places name := by
  have hpoint : Bytes.ofString "." = [46] := by decide
  have hfraction : Duration.fraction n places =
      if places = 0 ∨ (keptDigits n places).isEmpty = true then []
      else Bytes.ofString "." ++ keptDigits n places := rfl
  rw [units, text, hfraction, List.append_assoc, ofUnits]
  by_cases hnone : keptDigits n places = []
  · simp [hnone]
  · have hplaces : places ≠ 0 := by
      rintro rfl
      obtain ⟨k, hk, -⟩ := (keptDigits_spec n 0).2
      exact hnone (List.length_eq_zero_iff.1 (by omega))
    simp [hnone, hplaces, hpoint]

private theorem denotes_ofUnits {places : Nat} {name : Bytes}
    (hname : (name, 10 ^ places) ∈ unitTable) (hplaces : places ≤ 9) (hn : n ≤ 2 ^ 63) :
    (ofUnits n places name).Denotes n := by
  obtain ⟨hdigits, k, hlength, hvalue⟩ := keptDigits_spec n places
  have hpow : 10 ^ places = 10 ^ k * 10 ^ (keptDigits n places).length := by
    rw [← Nat.pow_add, Nat.add_comm, hlength]
  have htotal : digitsValue (ofNat (n / 10 ^ places) ++ keptDigits n places) * 10 ^ k = n := by
    rw [digitsValue_append, Bytes.digitsValue_ofNat, Nat.add_mul, hvalue, Nat.mul_assoc,
      Nat.mul_comm (10 ^ _) (10 ^ k), ← hpow, Nat.div_add_mod']
  have hexact : 10 ^ places ≤ 2 ^ 53 :=
    (Nat.pow_le_pow_right (by decide) hplaces).trans (by decide)
  apply denotes_of_unit (k := 10 ^ k) (Bytes.numeral_ofNat _)
  · rwa [digits_ofUnits]
  · exact Nat.pow_pos (by decide)
  · rwa [digits_ofUnits, ← hpow]
  · rwa [digits_ofUnits, ← hpow]
  · rwa [digits_ofUnits]
  · exact hn

private def ofWhole (n : Nat) (name : Bytes) : Component := ⟨ofNat n, none, name⟩

private theorem denotes_ofWhole {unit : Nat} {name : Bytes} (hname : (name, unit) ∈ unitTable)
    (hexact : unit ≤ 2 ^ 53) (hn : n * unit ≤ 2 ^ 63) : (ofWhole n name).Denotes (n * unit) := by
  apply denotes_of_unit (k := unit) (Bytes.numeral_ofNat n) (by simp [ofWhole, digits])
    (unitTable_spec hname).1
  · simpa [ofWhole, digits] using hname
  · simpa [ofWhole, digits] using hexact
  · simp [ofWhole, digits, Bytes.digitsValue_ofNat]
  · exact hn

end Component

open Component (ofUnits ofWhole text_ofUnits denotes_ofUnits denotes_ofWhole)

/-- A row that adds a number to every sum, as long as the range is kept. -/
private def Adds (s : Bytes) (n : Nat) : Prop := ∀ a, a + n ≤ 2 ^ 63 → Row a s (a + n)

private theorem Adds.cons (hc : c.Denotes v) (h : Adds s n) : Adds (c.text ++ s) (v + n) := by
  intro a ha
  have hsum : (a + v) % 2 ^ 64 = a + v := Nat.mod_eq_of_lt (by omega)
  have hrow := h (a + v) (by omega)
  rw [← Nat.add_assoc]
  exact .cons hc (by omega) (by rwa [hsum])

private theorem adds_units {places : Nat} {name : Bytes} (hname : (name, 10 ^ places) ∈ unitTable)
    (hplaces : places ≤ 9) (hn : n ≤ 2 ^ 63) : Adds (units n places name) n := by
  have hnil : Adds [] 0 := fun a _ => .nil
  have h := hnil.cons (denotes_ofUnits hname hplaces hn)
  rwa [text_ofUnits, List.append_nil] at h

private theorem Adds.whole (h : Adds s n) {unit : Nat} {name : Bytes}
    (hname : (name, unit) ∈ unitTable) (hexact : unit ≤ 2 ^ 53) (hm : m * unit ≤ 2 ^ 63) :
    Adds (ofNat m ++ name ++ s) (m * unit + n) :=
  h.cons (denotes_ofWhole hname hexact hm)

private theorem adds_seconds (n : Nat) :
    Adds (ofNat (n / 1000000000 % 60) ++ fraction n 9 ++ "s") (n % 60000000000) := by
  have hwhole : n % 60000000000 / 10 ^ 9 = n / 1000000000 % 60 := by omega
  have hdigits : n % 60000000000 % 10 ^ 9 = n % 10 ^ 9 := by omega
  have hunits : Adds (units (n % 60000000000) 9 "s") (n % 60000000000) :=
    adds_units (by decide) (by decide) (by omega)
  rwa [units, fraction, hwhole, hdigits, ← fraction] at hunits

private theorem adds_magnitudeText (hn : n ≤ 2 ^ 63) : Adds (magnitudeText n) n := by
  have hseconds := adds_seconds n
  have hminutes : Adds (ofNat (n / 1000000000 / 60 % 60) ++ "m" ++
      (ofNat (n / 1000000000 % 60) ++ fraction n 9 ++ "s")) (n % 3600000000000) := by
    have hsum : n / 1000000000 / 60 % 60 * 60000000000 + n % 60000000000 = n % 3600000000000 := by
      omega
    rw [← hsum]
    exact hseconds.whole (by decide) (by decide) (by omega)
  have hhours : Adds (ofNat (n / 1000000000 / 60 / 60) ++ "h" ++
      (ofNat (n / 1000000000 / 60 % 60) ++ "m" ++
        (ofNat (n / 1000000000 % 60) ++ fraction n 9 ++ "s"))) n := by
    have hsum : n / 1000000000 / 60 / 60 * 3600000000000 + n % 3600000000000 = n := by omega
    conv_rhs => rw [← hsum]
    exact hminutes.whole (by decide) (by decide) (by omega)
  have hzero : Adds "0s" 0 := by
    have htext : Bytes.ofString "0s" = units 0 9 "s" := by decide
    rw [htext]
    exact adds_units (by decide) (by decide) (by decide)
  unfold magnitudeText
  split_ifs with hnone hns hus hms
  · rwa [hnone]
  · exact adds_units (by decide) (by decide) hn
  · exact adds_units (by decide) (by decide) hn
  · exact adds_units (by decide) (by decide) hn
  dsimp only
  split_ifs with hminute hhour
  · have hall : n % 60000000000 = n := Nat.mod_eq_of_lt (by omega)
    rwa [hall] at hseconds
  · have hall : n % 3600000000000 = n := Nat.mod_eq_of_lt (by omega)
    rwa [hall] at hminutes
  · exact hhours

private theorem magnitudeText_ne_nil (n : Nat) : magnitudeText n ≠ [] := by
  have hname (s : Bytes) {name : Bytes} (hne : name ≠ []) : s ++ name ≠ [] :=
    List.append_ne_nil_of_right_ne_nil s hne
  have hseconds := hname (ofNat (n / 1000000000 % 60) ++ fraction n 9)
    (by decide : Bytes.ofString "s" ≠ [])
  unfold magnitudeText
  split_ifs
  · decide
  · exact hname _ (by decide)
  · exact hname _ (by decide)
  · exact hname _ (by decide)
  dsimp only
  split_ifs
  · exact hseconds
  · exact hname _ hseconds
  · exact hname _ (hname _ hseconds)

theorem spelled_text (d : Duration) : Spelled d.text d := by
  have hleast := Int64.le_toInt d.nanoseconds
  have hgreatest := Int64.toInt_lt d.nanoseconds
  have hrow := adds_magnitudeText (n := d.nanoseconds.toInt.natAbs) (by omega) 0 (by omega)
  rw [Nat.zero_add] at hrow
  have hne := magnitudeText_ne_nil d.nanoseconds.toInt.natAbs
  rw [text]
  split_ifs with hneg
  · have hvalue : d.nanoseconds.toInt = -(d.nanoseconds.toInt.natAbs : Int) := by omega
    exact .row .minus hne hrow hvalue
  · have hvalue : d.nanoseconds.toInt = d.nanoseconds.toInt.natAbs := by omega
    exact .row .none hne hrow hvalue

example : text ⟨3661001000000⟩ = "1h1m1.001s" ∧ parse? "61m1.001s" = some ⟨3661001000000⟩ := by
  decide +kernel

end EngineHost.Duration
