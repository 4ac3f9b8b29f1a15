import EngineHost.Proofs.NearestFloat
import EngineHost.Proofs.SignedNumeral

/-!
# The texts of floating-point numbers

A floating-point number is a decimal or a hexadecimal numeral with an exponent, or one of the words
for infinity and NaN. `Spells` gives the form of these texts and says which number each of them
stands for: the nearest one to the value of its digits. The reader accepts just these texts, with
just these numbers.
-/

namespace EngineHost.Literal

open Bytes (isDigit digitsValue)
open Binary64 (Nearest)

/-! ## The grammar -/

def isHexDigit (b : UInt8) : Bool := (Bytes.hexDigit? b).isSome

def hexadecimal (s : Bytes) : Nat :=
  Nat.ofDigits 16 (s.reverse.map fun b => (Bytes.hexDigit? b).getD 0)

def withoutUnderscores (s : Bytes) : Bytes := s.filter (· != 95)

/-- Digits and underscores with an optional point; what stands before the point and behind it. -/
inductive Mantissa (isOne : UInt8 → Bool) : Bytes → Bytes → Bytes → Prop
  | whole {s : Bytes} (h : ∀ b ∈ s, isOne b = true ∨ b = 95) : Mantissa isOne s s []
  | pointed {s t : Bytes} (hs : ∀ b ∈ s, isOne b = true ∨ b = 95)
    (ht : ∀ b ∈ t, isOne b = true ∨ b = 95) : Mantissa isOne (s ++ 46 :: t) s t

/-- The five leading digits, zeros in front not counted. An exponent with more of them is beyond
every range. -/
def leadingDigits (s : Bytes) : Bytes := ((withoutUnderscores s).dropWhile (· == 48)).take 5

/-- An exponent behind its mark, a letter in either case. -/
inductive Exponent (lower upper : UInt8) : Bytes → ℤ → Prop
  | mk {mark : UInt8} {sign digits : Bytes} {neg : Bool} (hmark : mark = lower ∨ mark = upper)
    (hsign : Sign sign neg) (hfirst : ∃ b ∈ digits.head?, isDigit b = true)
    (hdigits : ∀ b ∈ digits, isDigit b = true ∨ b = 95) :
    Exponent lower upper (mark :: (sign ++ digits))
      (if neg then -((leadingDigits digits).decimal : ℤ) else (leadingDigits digits).decimal)

/-- A decimal number without its sign: the exponent may be missing. -/
inductive Decimal (neg : Bool) : Bytes → Binary64 → Prop
  | mk {mantissa exponent whole fraction digits : Bytes} {e : ℤ} {x : Binary64}
    (hmantissa : Mantissa isDigit mantissa whole fraction)
    (hdigits : digits = withoutUnderscores (whole ++ fraction)) (hne : digits ≠ [])
    (hexponent : exponent = [] ∧ e = 0 ∨ Exponent 101 69 exponent e)
    (hx : Nearest neg (digits.decimal * 10 ^ (e - (withoutUnderscores fraction).length)) x) :
    Decimal neg (mantissa ++ exponent) x

/-- A hexadecimal number without its sign and base mark: the exponent, of two, is required. -/
inductive Hexadecimal (neg : Bool) : Bytes → Binary64 → Prop
  | mk {mantissa exponent whole fraction digits : Bytes} {e : ℤ} {x : Binary64}
    (hmantissa : Mantissa isHexDigit mantissa whole fraction)
    (hdigits : digits = withoutUnderscores (whole ++ fraction)) (hne : digits ≠ [])
    (hexponent : Exponent 112 80 exponent e)
    (hx : Nearest neg (hexadecimal digits * 2 ^ (e - 4 * (withoutUnderscores fraction).length)) x) :
    Hexadecimal neg (mantissa ++ exponent) x

/-- Every underscore stands between two digits. -/
def Separated (isOne : UInt8 → Bool) (s : Bytes) : Prop :=
  ∀ before after, s = before ++ 95 :: after →
    (∃ b ∈ before.getLast?, isOne b = true) ∧ ∃ b ∈ after.head?, isOne b = true

/-- The floating-point number that a text stands for. A numeral of an infinite one stands for
none. -/
inductive Spells : Bytes → Binary64 → Prop
  | infinity {sign word : Bytes} {neg : Bool} (hsign : Sign sign neg)
    (hword : word.toLower = "inf" ∨ word.toLower = "infinity") :
    Spells (sign ++ word) (.infinity neg)
  | nan {word : Bytes} (hword : word.toLower = "nan") : Spells word .nan
  | decimal {sign body : Bytes} {neg : Bool} {x : Binary64} (hsign : Sign sign neg)
    (hbody : Decimal neg body x) (hseparated : Separated isDigit body)
    (hfinite : x.isInfinite = false) : Spells (sign ++ body) x
  -- the base mark counts as a digit in front of an underscore
  | hexadecimal {sign body : Bytes} {mark : UInt8} {neg : Bool} {x : Binary64}
    (hsign : Sign sign neg) (hmark : mark = 120 ∨ mark = 88) (hbody : Hexadecimal neg body x)
    (hseparated : Separated isHexDigit (48 :: body)) (hfinite : x.isInfinite = false) :
    Spells (sign ++ 48 :: mark :: body) x

variable {isOne : UInt8 → Bool} {s t sign body mantissa whole fraction rest : Bytes} {neg : Bool}
  {x : Binary64}

/-! ## Mantissas -/

private theorem exists_mantissa (isOne : UInt8 → Bool) (s : Bytes) :
    ∃ mantissa, s = mantissa ++ (splitMantissa isOne s).2.2 ∧
      Mantissa isOne mantissa (splitMantissa isOne s).1 (splitMantissa isOne s).2.1 := by
  have hrun (t : Bytes) : ∀ b ∈ t.takeWhile fun b => isOne b || b == 95,
      isOne b = true ∨ b = 95 := by
    intro b hb
    simpa using List.mem_takeWhile_imp hb
  have hall (t : Bytes) :=
    List.takeWhile_append_dropWhile (p := fun b => isOne b || b == 95) (l := t)
  simp only [splitMantissa]
  split
  next rest' hrest =>
    refine ⟨_, ?_, .pointed (hrun s) (hrun rest')⟩
    rw [List.append_assoc, List.cons_append, hall rest', ← hrest, hall s]
  next => exact ⟨_, (hall s).symm, .whole (hrun s)⟩

private theorem Mantissa.split (h : Mantissa isOne mantissa whole fraction)
    (hpoint : isOne 46 = false) (hrest : ∀ b ∈ rest.head?, isOne b = false ∧ b ≠ 95 ∧ b ≠ 46) :
    splitMantissa isOne (mantissa ++ rest) = (whole, fraction, rest) := by
  have hbehind : ∀ b ∈ rest.head?, (isOne b || b == 95) = false := by
    intro b hb
    simp [hrest b hb]
  cases h with
  | whole h =>
    have hrun := Bytes.takeWhile_dropWhile_append (by simpa using h) rest hbehind
    simp only [splitMantissa, hrun]
    split
    next more => exact absurd rfl (hrest 46 rfl).2.2
    next => rfl
  | pointed hs ht =>
    have hrun := Bytes.takeWhile_dropWhile_append (p := fun b => isOne b || b == 95)
      (by simpa using hs) (46 :: (fraction ++ rest)) (by simp [hpoint])
    have hrun' := Bytes.takeWhile_dropWhile_append (p := fun b => isOne b || b == 95)
      (by simpa using ht) rest hbehind
    rw [List.append_assoc, List.cons_append]
    simp only [splitMantissa, hrun, hrun']

/-! ## Exponents -/

private theorem digitsValue_dropWhile (s : Bytes) :
    digitsValue (s.dropWhile (· == 48)) = digitsValue s := by
  induction s with
  | nil => rfl
  | cons b s ih =>
    by_cases hb : b = 48
    · subst hb
      rw [List.dropWhile_cons_of_pos rfl, ih]
      rfl
    · rw [List.dropWhile_cons_of_neg (by simpa using hb)]

/-- Digits that do not start with a zero fill their places. -/
private theorem pow_le_digitsValue (h : ∀ b ∈ s, isDigit b = true) (hne : s ≠ [])
    (hhead : ∀ b ∈ s.head?, b ≠ 48) : 10 ^ (s.length - 1) ≤ digitsValue s := by
  obtain ⟨b, t, rfl⟩ := List.exists_cons_of_ne_nil hne
  have hb : b ≠ 48 := hhead b rfl
  have hdigit := h b List.mem_cons_self
  simp only [isDigit, Bool.and_eq_true, decide_eq_true_eq, UInt8.le_iff_toNat_le] at hdigit
  have hleast : 48 ≤ b.toNat := hdigit.1
  have hzero : b.toNat ≠ 48 := fun heq => hb (UInt8.toNat_inj.1 heq)
  have hvalue : digitsValue [b] = b.toNat - 48 := by simp [digitsValue]
  rw [← List.singleton_append, Bytes.digitsValue_append, hvalue]
  calc 10 ^ (([b] ++ t).length - 1) = 1 * 10 ^ t.length := by simp
    _ ≤ (b.toNat - 48) * 10 ^ t.length := Nat.mul_le_mul_right _ (by omega)
    _ ≤ _ := Nat.le_add_right _ _

private def exponentStep (n : Nat) (b : UInt8) : Nat :=
  if n < 10000 then 10 * n + (b.toNat - 48) else n

private theorem foldl_exponentStep_of_head (h : ∀ b ∈ s, isDigit b = true)
    (hhead : ∀ b ∈ s.head?, b ≠ 48) : s.foldl exponentStep 0 = digitsValue (s.take 5) := by
  induction s using List.reverseRecOn with
  | nil => rfl
  | append_singleton s b ih =>
    have hs : ∀ c ∈ s, isDigit c = true := fun c hc => h c (List.mem_append_left _ hc)
    have hhead' : ∀ c ∈ s.head?, c ≠ 48 := by
      intro c hc
      exact hhead c (by rw [List.head?_append, hc]; rfl)
    rw [List.foldl_append, ih hs hhead', List.foldl_cons, List.foldl_nil, exponentStep]
    by_cases hlength : s.length < 5
    · have hlt := Bytes.digitsValue_lt hs
      have hbound : 10 ^ s.length ≤ 10 ^ 4 := Nat.pow_le_pow_right (by decide) (by omega)
      rw [List.take_of_length_le (by omega), List.take_of_length_le (by simp; omega),
        Bytes.digitsValue_concat, if_pos (by omega)]
    · have hfull := pow_le_digitsValue (fun c hc => hs c (List.mem_of_mem_take hc))
        (List.ne_nil_of_length_pos (by rw [List.length_take]; omega) : s.take 5 ≠ [])
        (by
          intro c hc
          rw [List.head?_take, if_neg (by decide)] at hc
          exact hhead' c hc)
      have hplaces : (s.take 5).length - 1 = 4 := by rw [List.length_take]; omega
      rw [hplaces] at hfull
      rw [List.take_append_of_le_length (by omega), if_neg (by omega)]

private theorem foldl_exponentStep (h : ∀ b ∈ s, isDigit b = true) :
    s.foldl exponentStep 0 = digitsValue ((s.dropWhile (· == 48)).take 5) := by
  induction s with
  | nil => rfl
  | cons b s ih =>
    by_cases hb : b = 48
    · subst hb
      rw [List.dropWhile_cons_of_pos rfl, ← ih fun c hc => h c (List.mem_cons_of_mem _ hc)]
      rfl
    · rw [List.dropWhile_cons_of_neg (by simpa using hb)]
      exact foldl_exponentStep_of_head h (by simpa using hb)

private theorem isDigit_of_mem_withoutUnderscores (h : ∀ b ∈ s, isOne b = true ∨ b = 95) :
    ∀ b ∈ withoutUnderscores s, isOne b = true := by
  intro b hb
  obtain ⟨hmem, hne⟩ := List.mem_filter.1 hb
  exact (h b hmem).resolve_right (by simpa using hne)

private theorem exponent_value (h : ∀ b ∈ s, isDigit b = true ∨ b = 95) :
    s.foldl (fun (n : Nat) c => if c == 95 then n
      else if n < 10000 then 10 * n + (c.toNat - 48) else n) 0 = (leadingDigits s).decimal := by
  rw [leadingDigits, ← Bytes.digitsValue_eq_decimal,
    ← foldl_exponentStep (isDigit_of_mem_withoutUnderscores h), withoutUnderscores,
    List.foldl_filter]
  congr 1
  funext n c
  by_cases hc : c = 95 <;> simp [hc, exponentStep]

private theorem exponent_iff {lower upper mark : UInt8} {e : ℤ} :
    Exponent lower upper (mark :: s) e ↔
      (mark = lower ∨ mark = upper) ∧ exponent? s = some e := by
  constructor
  · intro h
    generalize htext : mark :: s = text at h
    obtain ⟨hmark, hsign, ⟨b, hb, hfirst⟩, hdigits⟩ := h
    obtain ⟨rfl, rfl⟩ := List.cons.inj htext
    refine ⟨hmark, ?_⟩
    rename_i digits neg
    obtain ⟨t, rfl⟩ : ∃ t, digits = b :: t := List.head?_eq_some_iff.1 hb
    have hsplit := hsign.splitSign (s := b :: t) fun c hc => by
      cases hc
      exact ne_sign_of_isDigit hfirst
    have hall : ((b :: t).all fun c => isDigit c || c == 95) = true := by
      simpa using hdigits
    simp only [exponent?, hsplit, hfirst, hall, Bool.and_self, if_true, exponent_value hdigits]
  · rintro ⟨hmark, h⟩
    obtain ⟨sign, hs, hsign⟩ := exists_sign s
    simp only [exponent?] at h
    split at h
    next b t hdigits =>
      rw [Option.ite_none_right_eq_some] at h
      obtain ⟨hcond, h⟩ := h
      simp only [Bool.and_eq_true] at hcond
      have hall : ∀ c ∈ b :: t, isDigit c = true ∨ c = 95 := by
        rw [← hdigits]
        simpa using hcond.2
      rw [hdigits, exponent_value hall] at h
      rw [hs, hdigits, ← Option.some.inj h]
      exact .mk hmark hsign ⟨b, rfl, hcond.1⟩ hall
    next => cases h

/-! ## Numerals -/

private theorem Mantissa.digits (h : Mantissa isOne mantissa whole fraction) :
    ∀ b ∈ whole ++ fraction, isOne b = true ∨ b = 95 := by
  cases h with
  | whole h => simpa using h
  | pointed hs ht =>
    intro b hb
    exact (List.mem_append.1 hb).elim (hs b) (ht b)

private theorem nearest_decimal (neg : Bool) (h : ∀ b ∈ s, isDigit b = true) (scale : ℤ) :
    Nearest neg (s.decimal * 10 ^ scale)
      (scaled neg (digitsValue s) (s.dropWhile (· == 48)).length scale) := by
  have hdigits : ∀ b ∈ s.dropWhile (· == 48), isDigit b = true :=
    fun b hb => h b (List.dropWhile_subset _ hb)
  rw [← Bytes.digitsValue_eq_decimal, ← digitsValue_dropWhile]
  apply nearest_scaled
  · intro hvalue
    apply pow_le_digitsValue hdigits
    · intro hnil
      rw [hnil] at hvalue
      exact hvalue rfl
    · intro b hb
      have hnot := List.head?_dropWhile_not (· == 48) s
      rw [hb] at hnot
      simpa using hnot
  · exact Bytes.digitsValue_lt hdigits

private theorem decimalFloat?_eq_some_iff : decimalFloat? neg s = some x ↔ Decimal neg s x := by
  constructor
  · intro h
    obtain ⟨mantissa, hs, hmantissa⟩ := exists_mantissa isDigit s
    simp only [decimalFloat?] at h
    split_ifs at h with hempty
    obtain ⟨e, he, hx⟩ := Option.bind_eq_some_iff.1 h
    have hdigits := isDigit_of_mem_withoutUnderscores hmantissa.digits
    have hnearest := nearest_decimal neg hdigits
      (e - (withoutUnderscores (splitMantissa isDigit s).2.1).length)
    rw [hs]
    refine .mk hmantissa rfl (mt List.isEmpty_iff.2 hempty) ?_ (Option.some.inj hx ▸ hnearest)
    split at he
    next hafter => exact .inl ⟨hafter, (Option.some.inj he).symm⟩
    next mark rest hafter =>
      rw [Option.ite_none_right_eq_some] at he
      rw [hafter]
      exact .inr (exponent_iff.2 he)
  · rintro ⟨hmantissa, rfl, hne, hexponent, hx⟩
    rename_i mantissa exponent whole fraction e
    have hdigits := isDigit_of_mem_withoutUnderscores hmantissa.digits
    have hnearest := nearest_decimal neg hdigits (e - (withoutUnderscores fraction).length)
    have hscaled := hnearest.unique hx
    have hempty : ((whole ++ fraction).filter (· != 95)).isEmpty = false := by
      simpa [withoutUnderscores] using hne
    have hsplit : splitMantissa isDigit (mantissa ++ exponent) = (whole, fraction, exponent) := by
      apply hmantissa.split rfl
      intro b hb
      rcases hexponent with ⟨rfl, -⟩ | ⟨rfl | rfl, -⟩ <;> cases hb <;> decide
    simp only [decimalFloat?, hsplit, hempty, Bool.false_eq_true, if_false]
    rw [← hscaled]
    rcases hexponent with ⟨rfl, rfl⟩ | hexponent
    · rfl
    · cases exponent with
      | nil => cases hexponent
      | cons mark rest =>
        obtain ⟨hmark, he⟩ := exponent_iff.1 hexponent
        simp only [hmark, if_true, he, Option.bind_some]
        rfl

private theorem hexDigit?_lt {b : UInt8} {d : Nat} (h : Bytes.hexDigit? b = some d) : d < 16 := by
  unfold Bytes.hexDigit? at h
  simp only [UInt8.le_iff_toNat_le, UInt8.reduceToNat] at h
  split_ifs at h <;> cases h <;> omega

private theorem digitsIn?_eq (h : ∀ b ∈ s, isHexDigit b = true) (hne : s ≠ []) :
    digitsIn? 16 s = some (hexadecimal s) := by
  have hunderscore : isHexDigit 95 = false := rfl
  have hfilter : s.filter (· != 95) = s := by
    rw [List.filter_eq_self]
    intro b hb
    simp only [bne_iff_ne]
    rintro rfl
    simp [h 95 hb] at hunderscore
  simp only [digitsIn?, hfilter, List.isEmpty_iff, hne, if_false]
  clear hne hfilter
  induction s using List.reverseRecOn with
  | nil => rfl
  | append_singleton s b ih =>
    obtain ⟨d, hd⟩ := Option.isSome_iff_exists.1 (h b (by simp))
    have hvalue : hexadecimal (s ++ [b]) = 16 * hexadecimal s + d := by
      simp [hexadecimal, Nat.ofDigits_cons, hd, Nat.add_comm]
    rw [List.foldlM_append, ih fun c hc => h c (List.mem_append_left _ hc), hvalue]
    simp [hd, hexDigit?_lt hd]

private theorem hexFloat?_eq_some_iff : hexFloat? neg s = some x ↔ Hexadecimal neg s x := by
  constructor
  · intro h
    obtain ⟨mantissa, hs, hmantissa⟩ := exists_mantissa isHexDigit s
    have hdigits := isDigit_of_mem_withoutUnderscores hmantissa.digits
    simp only [hexFloat?] at h
    split_ifs at h with hempty
    have hne := mt List.isEmpty_iff.2 hempty
    split at h
    next mark rest hafter =>
      rw [Option.ite_none_right_eq_some] at h
      obtain ⟨hmark, h⟩ := h
      split at h
      next e m he hm =>
        obtain rfl := Option.some.inj ((digitsIn?_eq hdigits hne).symm.trans hm)
        have hafter' : (splitMantissa isHexDigit s).2.2 = mark :: rest := hafter
        rw [hs, hafter', ← Option.some.inj h]
        exact .mk hmantissa rfl hne (exponent_iff.2 ⟨hmark, he⟩) (nearest_scaledBinary neg _ _)
      next => cases h
    next => cases h
  · rintro ⟨hmantissa, rfl, hne, hexponent, hx⟩
    rename_i mantissa exponent whole fraction e
    have hdigits := isDigit_of_mem_withoutUnderscores hmantissa.digits
    have hscaled := (nearest_scaledBinary neg _ _).unique hx
    have hempty : (withoutUnderscores (whole ++ fraction)).isEmpty = false := by
      simpa using hne
    cases exponent with
    | nil => cases hexponent
    | cons mark rest =>
      obtain ⟨hmark, he⟩ := exponent_iff.1 hexponent
      have hsplit : splitMantissa isHexDigit (mantissa ++ mark :: rest) =
          (whole, fraction, mark :: rest) := by
        apply hmantissa.split rfl
        intro b hb
        cases hb
        rcases hmark with rfl | rfl <;> decide
      unfold isHexDigit at hsplit
      unfold withoutUnderscores at hempty
      have hvalue := digitsIn?_eq hdigits hne
      unfold withoutUnderscores at hvalue
      simp only [hexFloat?, hsplit, hempty, Bool.false_eq_true, if_false, hmark, if_true, he,
        hvalue]
      rw [← hscaled]
      rfl

/-! ## Underscores -/

/-- The underscores of a text stand between digits, behind another text. -/
private def SeparatedAfter (isOne : UInt8 → Bool) (p s : Bytes) : Prop :=
  ∀ before after, s = before ++ 95 :: after →
    (∃ b ∈ (p ++ before).getLast?, isOne b = true) ∧ ∃ b ∈ after.head?, isOne b = true

private theorem separatedAfter_cons {p s : Bytes} {b : UInt8} : SeparatedAfter isOne p (b :: s) ↔
    (b = 95 → (∃ c ∈ p.getLast?, isOne c = true) ∧ ∃ c ∈ s.head?, isOne c = true) ∧
      SeparatedAfter isOne (p ++ [b]) s := by
  constructor
  · intro h
    refine ⟨fun hb => ?_, fun before after hs => ?_⟩
    · have hfirst := h [] s (by rw [hb]; rfl)
      rwa [List.append_nil] at hfirst
    · rw [List.append_assoc]
      exact h (b :: before) after (by rw [hs]; rfl)
  · rintro ⟨hfirst, h⟩ before after hs
    cases before with
    | nil =>
      obtain ⟨rfl, rfl⟩ := List.cons.inj hs
      rw [List.append_nil]
      exact hfirst rfl
    | cons c before =>
      obtain ⟨rfl, hrest⟩ := List.cons.inj hs
      have hlater := h before after hrest
      rwa [List.append_assoc] at hlater

private def Before.last (isOne : UInt8 → Bool) (p : Bytes) : Before :=
  match p.getLast? with
  | none => .start
  | some b => if isOne b then .digit else if b = 95 then .underscore else .other

private theorem last_concat (p : Bytes) (b : UInt8) : Before.last isOne (p ++ [b]) =
    if isOne b then .digit else if b = 95 then .underscore else .other := by
  simp [Before.last]

private theorem last_eq_digit_iff {p : Bytes} :
    Before.last isOne p = .digit ↔ ∃ b ∈ p.getLast?, isOne b = true := by
  unfold Before.last
  split
  next h => simp [h]
  next b h => split_ifs <;> simp_all

private theorem last_eq_underscore_iff {p : Bytes} (hone : isOne 95 = false) :
    Before.last isOne p = .underscore ↔ p.getLast? = some 95 := by
  unfold Before.last
  split
  next h => simp [h]
  next b h => split_ifs <;> grind

private theorem underscoresOk_iff (hex : Bool) (p s : Bytes)
    (hone : ∀ b, isOne b = (isDigit b || (hex && (Bytes.hexDigit? b).isSome))) :
    underscoresOk hex (Before.last isOne p) s = true ↔
      (p.getLast? = some 95 → ∃ b ∈ s.head?, isOne b = true) ∧ SeparatedAfter isOne p s := by
  have hunderscore : isOne 95 = false := by rw [hone]; cases hex <;> rfl
  induction s generalizing p with
  | nil => simp [underscoresOk, SeparatedAfter, last_eq_underscore_iff hunderscore]
  | cons b s ih =>
    have hnext := ih (p ++ [b])
    rw [last_concat] at hnext
    rw [underscoresOk, separatedAfter_cons, ← hone]
    split_ifs at hnext ⊢ with hdigit hb
    · have hne : b ≠ 95 := by
        rintro rfl
        simp [hdigit] at hunderscore
      simp [hnext, hdigit, hne]
    · simp only [Bool.and_eq_true, beq_iff_eq, last_eq_digit_iff, hnext, hb,
        List.getLast?_concat, forall_const]
      rw [← and_assoc, iff_comm, and_iff_right_iff_imp]
      rintro ⟨⟨⟨c, hc, hdigit⟩, -⟩, -⟩ hlast
      rw [Option.mem_def, hlast] at hc
      cases hc
      simp [hdigit] at hunderscore
    · simp [hnext, hb, hdigit, last_eq_underscore_iff hunderscore]
private theorem separated_decimal_iff :
    Separated isDigit s ↔ underscoresOk false .start s = true := by
  have hone (b : UInt8) : isDigit b = (isDigit b || (false && (Bytes.hexDigit? b).isSome)) := by
    simp
  exact ((underscoresOk_iff false [] s hone).trans (and_iff_right nofun)).symm

private theorem separated_hexadecimal_iff :
    Separated isHexDigit (48 :: s) ↔ underscoresOk true .digit s = true := by
  have hone (b : UInt8) : isHexDigit b = (isDigit b || (true && (Bytes.hexDigit? b).isSome)) := by
    simp only [isHexDigit, isDigit, Bytes.hexDigit?]
    split_ifs <;> simp_all
  have hcons : Separated isHexDigit (48 :: s) ↔ SeparatedAfter isHexDigit [48] s :=
    (separatedAfter_cons (p := [])).trans (and_iff_right fun h => absurd h (by decide))
  exact hcons.trans ((underscoresOk_iff true [48] s hone).trans
    (and_iff_right fun h => absurd h (by decide))).symm

private theorem separated_of_none (h : (s.any (· == 95)) = false) : Separated isOne s := by
  rintro before after rfl
  simp at h

/-! ## Words -/

private theorem head?_toLower (s : Bytes) :
    s.toLower.head? = s.head?.map fun b => if 65 ≤ b ∧ b ≤ 90 then b + 32 else b := by
  rw [Bytes.toLower, List.head?_map]

private theorem ne_sign_of_toLower (h : s.toLower.head? ≠ some 43 ∧ s.toLower.head? ≠ some 45) :
    ∀ b ∈ s.head?, b ≠ 43 ∧ b ≠ 45 := by
  rintro b hb
  rw [head?_toLower, hb] at h
  constructor
  · rintro rfl
    exact h.1 rfl
  · rintro rfl
    exact h.2 rfl

private theorem named?_eq_some_iff : named? s = some x ↔
    (∃ sign word neg, s = sign ++ word ∧ Sign sign neg ∧
      (word.toLower = "inf" ∨ word.toLower = "infinity") ∧ x = .infinity neg) ∨
    (s.toLower = "nan" ∧ x = .nan) := by
  constructor
  · intro h
    obtain ⟨sign, hs, hsign⟩ := exists_sign s
    simp only [named?] at h
    split_ifs at h with hword hnan
    · exact .inl ⟨sign, _, _, hs, hsign, hword, (Option.some.inj h).symm⟩
    · exact .inr ⟨hnan, (Option.some.inj h).symm⟩
  · rintro (⟨sign, word, neg, rfl, hsign, hword, rfl⟩ | ⟨hnan, rfl⟩)
    · have hsplit := hsign.splitSign (s := word) (ne_sign_of_toLower (by
        rcases hword with hword | hword <;> rw [hword] <;> decide))
      simp only [named?, hsplit, hword, if_true]
    · have hsplit : splitSign s = (false, s) := Sign.none.splitSign (ne_sign_of_toLower (by
        rw [hnan]
        decide))
      have hword : ¬(Bytes.ofString "nan" = "inf" ∨ Bytes.ofString "nan" = "infinity") := by decide
      simp only [named?, hsplit, hnan, hword, if_false, if_true]

/-! ## Numerals and words -/

/-- Numerals start with a digit, an underscore or a point. -/
private def Opens (s : Bytes) : Prop := ∃ b ∈ s.head?, isDigit b = true ∨ b = 95 ∨ b = 46

private theorem Opens.head (h : Opens s) :
    (∀ b ∈ s.head?, b ≠ 43 ∧ b ≠ 45) ∧ s.toLower.head? ≠ some 105 ∧ s.toLower.head? ≠ some 110 := by
  obtain ⟨b, hb, hopens⟩ := h
  have hlower : s.toLower.head? = some b := by
    have hcase : ¬(65 ≤ b ∧ b ≤ 90) := by
      rcases hopens with hdigit | rfl | rfl
      · simp only [isDigit, Bool.and_eq_true, decide_eq_true_eq, UInt8.le_iff_toNat_le,
          UInt8.reduceToNat] at hdigit ⊢
        omega
      · decide
      · decide
    rw [head?_toLower, hb, Option.map_some, if_neg hcase]
  have hne : b ≠ 43 ∧ b ≠ 45 ∧ b ≠ 105 ∧ b ≠ 110 := by
    refine ⟨?_, ?_, ?_, ?_⟩ <;> rintro rfl <;> revert hopens <;> decide
  rw [hlower]
  refine ⟨?_, by simpa using hne.2.2.1, by simpa using hne.2.2.2⟩
  intro c hc
  obtain rfl : c = b := Option.some.inj (hc.symm.trans hb)
  exact ⟨hne.1, hne.2.1⟩

private theorem named?_eq_none (hsign : Sign sign neg) (hbody : Opens body) :
    named? (sign ++ body) = none := by
  obtain ⟨hne, hi, hn⟩ := hbody.head
  have hword : ¬(body.toLower = "inf" ∨ body.toLower = "infinity") := by
    rintro (h | h) <;> rw [h] at hi <;> exact hi (by decide)
  have hnan : ¬(sign ++ body).toLower = "nan" := by
    intro h
    cases hsign with
    | none => exact hn (by rw [← List.nil_append body, h]; decide)
    | plus =>
      have hhead : some (43 : UInt8) = some 110 := congrArg List.head? h
      cases hhead
    | minus =>
      have hhead : some (45 : UInt8) = some 110 := congrArg List.head? h
      cases hhead
  simp only [named?, hsign.splitSign hne, hword, if_false, hnan]

private theorem Mantissa.opens (h : Mantissa isDigit mantissa whole fraction)
    (hne : withoutUnderscores (whole ++ fraction) ≠ []) (rest : Bytes) :
    Opens (mantissa ++ rest) := by
  cases h with
  | whole h =>
    cases mantissa with
    | nil => exact absurd rfl hne
    | cons b t => exact ⟨b, rfl, (h b List.mem_cons_self).imp_right .inl⟩
  | pointed hs ht =>
    cases whole with
    | nil => exact ⟨46, rfl, .inr (.inr rfl)⟩
    | cons b t => exact ⟨b, rfl, (hs b List.mem_cons_self).imp_right .inl⟩

private theorem Decimal.opens (h : Decimal neg s x) : Opens s := by
  obtain ⟨hmantissa, rfl, hne, -, -⟩ := h
  exact hmantissa.opens hne _

private theorem Mantissa.mem (h : Mantissa isOne mantissa whole fraction) :
    ∀ b ∈ mantissa, isOne b = true ∨ b = 95 ∨ b = 46 := by
  intro b hb
  cases h with
  | whole h => exact (h b hb).imp_right .inl
  | pointed hs ht =>
    rcases List.mem_append.1 hb with hwhole | hrest
    · exact (hs b hwhole).imp_right .inl
    · rcases List.mem_cons.1 hrest with rfl | hfraction
      · exact .inr (.inr rfl)
      · exact (ht b hfraction).imp_right .inl

/-- What follows a leading zero is no base mark. -/
private theorem Decimal.baseMark? {m : UInt8} (h : Decimal neg (48 :: m :: s) x) :
    baseMark? m = none := by
  have hm : isDigit m = true ∨ m = 95 ∨ m = 46 ∨ m = 101 ∨ m = 69 := by
    generalize htext : 48 :: m :: s = text at h
    obtain ⟨hmantissa, rfl, hne, hexponent, -⟩ := h
    rename_i mantissa exponent whole fraction e
    match mantissa with
    | [] =>
      obtain ⟨b, hb, -⟩ := hmantissa.opens hne []
      cases hb
    | [_] =>
      obtain ⟨-, rfl⟩ := List.cons.inj htext
      rcases hexponent with ⟨hnil, -⟩ | hexponent
      · cases hnil
      · exact .inr (.inr (.inr (exponent_iff.1 hexponent).1))
    | _ :: b :: _ =>
      obtain ⟨-, htail⟩ := List.cons.inj htext
      obtain ⟨rfl, -⟩ := List.cons.inj htail
      exact (hmantissa.mem m (by simp)).imp_right fun h => h.imp_right .inl
  have hnot : m ≠ 120 ∧ m ≠ 88 ∧ m ≠ 111 ∧ m ≠ 79 ∧ m ≠ 98 ∧ m ≠ 66 := by
    refine ⟨?_, ?_, ?_, ?_, ?_, ?_⟩ <;> rintro rfl <;> revert hm <;> decide
  simp [Literal.baseMark?, hnot]

private theorem underscoresFit_decimal (h : Decimal neg body x) :
    underscoresFit body = true ↔ Separated isDigit body := by
  rw [separated_decimal_iff]
  unfold underscoresFit
  split
  next m rest => rw [h.baseMark?]
  next => rfl

private theorem underscoresFit_hexadecimal {mark : UInt8} (hmark : mark = 120 ∨ mark = 88) :
    underscoresFit (48 :: mark :: body) = true ↔ Separated isHexDigit (48 :: body) := by
  rw [separated_hexadecimal_iff]
  rcases hmark with rfl | rfl <;> rfl

private def numeral? (neg : Bool) (body : Bytes) : Option Binary64 :=
  match body with
  | 48 :: m :: rest => if m = 120 ∨ m = 88 then hexFloat? neg rest else decimalFloat? neg body
  | _ => decimalFloat? neg body

private theorem numeral?_decimal (h : Decimal neg body x) : numeral? neg body = some x := by
  have hread := decimalFloat?_eq_some_iff.2 h
  unfold numeral?
  split
  next m rest =>
    have hmark : ¬(m = 120 ∨ m = 88) := by
      rintro (rfl | rfl) <;> cases h.baseMark?
    rw [if_neg hmark, hread]
  next => exact hread

private theorem numeral?_cases (h : numeral? neg body = some x) : Decimal neg body x ∨
    ∃ mark rest, body = 48 :: mark :: rest ∧ (mark = 120 ∨ mark = 88) ∧ Hexadecimal neg rest x := by
  unfold numeral? at h
  split at h
  next m rest =>
    split_ifs at h with hmark
    · exact .inr ⟨m, rest, rfl, hmark, hexFloat?_eq_some_iff.1 h⟩
    · exact .inl (decimalFloat?_eq_some_iff.1 h)
  next => exact .inl (decimalFloat?_eq_some_iff.1 h)

private theorem float_eq_ok_iff_numeral? (hnamed : named? s = none)
    (hsplit : splitSign s = (neg, body)) : float s = .ok x ↔
      (body.any (· == 95) = true → underscoresFit body = true) ∧ numeral? neg body = some x ∧
        x.isInfinite = false := by
  have hfits : (body.any (· == 95) && !underscoresFit body) = true ↔
      ¬(body.any (· == 95) = true → underscoresFit body = true) := by
    simp
  simp only [float, hnamed, hsplit, hfits]
  constructor
  · intro h
    split at h
    next => cases h
    next hok =>
      split at h
      next => cases h
      next y hread =>
        split_ifs at h with hinfinite
        cases h
        exact ⟨not_not.1 hok, hread, by simpa using hinfinite⟩
  · rintro ⟨hok, hread, hfinite⟩
    rw [if_neg (not_not.2 hok)]
    split
    next hnone => cases hread.symm.trans hnone
    next y hsome =>
      obtain rfl : x = y := Option.some.inj (hread.symm.trans hsome)
      rw [if_neg (by simp [hfinite])]

/-- A text is read as a floating-point number just if it stands for it. -/
theorem float_eq_ok_iff : float s = .ok x ↔ Spells s x := by
  constructor
  · intro h
    cases hnamed : named? s with
    | some y =>
      rw [float, hnamed] at h
      obtain rfl : y = x := Except.ok.inj h
      rcases named?_eq_some_iff.1 hnamed with
        ⟨sign, word, neg, rfl, hsign, hword, rfl⟩ | ⟨hnan, rfl⟩
      · exact .infinity hsign hword
      · exact .nan hnan
    | none =>
      obtain ⟨sign, hs, hsign⟩ := exists_sign s
      rcases hsplit : splitSign s with ⟨neg, body⟩
      obtain ⟨hfits, hread, hfinite⟩ := (float_eq_ok_iff_numeral? hnamed hsplit).1 h
      rw [hsplit] at hs hsign
      rw [hs]
      rcases numeral?_cases hread with hdecimal | ⟨mark, rest, rfl, hmark, hhex⟩
      · refine .decimal hsign hdecimal ?_ hfinite
        cases hany : body.any (· == 95) with
        | false => exact separated_of_none hany
        | true => exact (underscoresFit_decimal hdecimal).1 (hfits hany)
      · refine .hexadecimal hsign hmark hhex ?_ hfinite
        cases hany : List.any (48 :: mark :: rest) (· == 95) with
        | false => exact separated_of_none (by simp_all)
        | true => exact (underscoresFit_hexadecimal hmark).1 (hfits hany)
  · intro h
    cases h with
    | infinity hsign hword =>
      rw [float, named?_eq_some_iff.2 (.inl ⟨_, _, _, rfl, hsign, hword, rfl⟩)]
    | nan hword => rw [float, named?_eq_some_iff.2 (.inr ⟨hword, rfl⟩)]
    | decimal hsign hbody hseparated hfinite =>
      rw [float_eq_ok_iff_numeral? (named?_eq_none hsign hbody.opens)
        (hsign.splitSign hbody.opens.head.1)]
      exact ⟨fun _ => (underscoresFit_decimal hbody).2 hseparated, numeral?_decimal hbody, hfinite⟩
    | @hexadecimal sign body mark neg x hsign hmark hbody hseparated hfinite =>
      have hopens : Opens (48 :: mark :: body) := ⟨48, rfl, .inl rfl⟩
      rw [float_eq_ok_iff_numeral? (named?_eq_none hsign hopens) (hsign.splitSign hopens.head.1)]
      refine ⟨fun _ => (underscoresFit_hexadecimal hmark).2 hseparated, ?_, hfinite⟩
      rw [numeral?, if_pos hmark, hexFloat?_eq_some_iff.2 hbody]

example : Spells "-.5e1" (Binary64.ofInt (-5)) := float_eq_ok_iff.1 (by decide +kernel)

end EngineHost.Literal
