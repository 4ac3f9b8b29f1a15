import EngineHost.Proofs.SignedNumeral
import EngineHost.Time.Instant

/-!
# Texts of instants

A date and a time of day with a zone, as a grammar. Reading accepts just the texts of the grammar
whose numbers are in their ranges, and gives the instant of the numbers. The grammar is wider than
the standard in three places: the hour may have one digit, a comma may stand for the point, and a
zone may be as far as 24 hours and 60 minutes.
-/

namespace EngineHost.Instant

open Bytes (isDigit)

structure Digits (width : Nat) (s : Bytes) (n : Nat) : Prop where
  length : s.length = width
  digits : ∀ b ∈ s, isDigit b = true
  value : s.decimal = n

/-- The nanoseconds of a fraction of a second: of its digits the first nine count. -/
inductive Fraction : Bytes → Nat → Prop
  | none : Fraction [] 0
  | digits {p : UInt8} {s : Bytes} (hp : p = 46 ∨ p = 44) (hs : s.Numeral) :
    Fraction (p :: s) (Bytes.padRight 9 48 (s.take 9)).decimal

/-- A zone, by its offset in seconds and whether the offset is written. -/
inductive Zone : Bytes → Int × Bool → Prop
  | zero : Zone "Z" (0, false)
  | east {h m : Bytes} {hours minutes : Nat} (hh : Digits 2 h hours) (hm : Digits 2 m minutes)
    (hhours : hours ≤ 24) (hminutes : minutes ≤ 60) :
    Zone (43 :: (h ++ 58 :: m)) ((hours * 60 + minutes) * 60, true)
  | west {h m : Bytes} {hours minutes : Nat} (hh : Digits 2 h hours) (hm : Digits 2 m minutes)
    (hhours : hours ≤ 24) (hminutes : minutes ≤ 60) :
    Zone (45 :: (h ++ 58 :: m)) (-((hours * 60 + minutes) * 60), true)

structure Fields where
  year : Nat
  month : Nat
  day : Nat
  hour : Nat
  minute : Nat
  second : Nat
  nanos : Nat
  zone : Int × Bool

/-- Every number is in its range, and the day exists. -/
structure Fields.Valid (f : Fields) : Prop where
  month : 1 ≤ f.month ∧ f.month ≤ 12
  day : 1 ≤ f.day ∧ f.day ≤ daysIn f.year f.month
  hour : f.hour < 24
  minute : f.minute < 60
  second : f.second < 60

def Fields.instant (f : Fields) : Instant where
  seconds := dayNumber f.year f.month f.day * 86400 +
    (f.hour * 3600 + f.minute * 60 + f.second : Nat) - f.zone.1
  nanos := f.nanos
  offset := f.zone.1
  numbered := f.zone.2

inductive Fields.Written (f : Fields) : Bytes → Prop
  | mk {year month day hour minute second fraction zone : Bytes} (hyear : Digits 4 year f.year)
    (hmonth : Digits 2 month f.month) (hday : Digits 2 day f.day)
    (hhour : Digits 2 hour f.hour ∨ Digits 1 hour f.hour) (hminute : Digits 2 minute f.minute)
    (hsecond : Digits 2 second f.second) (hfraction : Fraction fraction f.nanos)
    (hzone : Zone zone f.zone) :
    Written f (year ++ 45 :: (month ++ 45 :: (day ++ 84 :: (hour ++ 58 :: (minute ++ 58 ::
      (second ++ (fraction ++ zone)))))))

def Spelled (s : Bytes) (t : Instant) : Prop := ∃ f : Fields, f.Written s ∧ f.Valid ∧ f.instant = t

variable {s rest : Bytes} {n : Nat}

/-! ## The parts -/

private theorem digits_two_iff {a b : UInt8} : Digits 2 [a, b] n ↔
    isDigit a = true ∧ isDigit b = true ∧ n = 10 * (a.toNat - 48) + (b.toNat - 48) := by
  have hvalue : Bytes.decimal [a, b] = 10 * (a.toNat - 48) + (b.toNat - 48) := by
    rw [← Bytes.digitsValue_eq_decimal]
    simp [Bytes.digitsValue]
  constructor
  · rintro ⟨-, hdigits, rfl⟩
    exact ⟨hdigits a (by simp), hdigits b (by simp), hvalue⟩
  · rintro ⟨ha, hb, rfl⟩
    exact ⟨rfl, by simp [ha, hb], hvalue⟩

private theorem digits_one_iff {a : UInt8} :
    Digits 1 [a] n ↔ isDigit a = true ∧ n = a.toNat - 48 := by
  have hvalue : Bytes.decimal [a] = a.toNat - 48 := by
    rw [← Bytes.digitsValue_eq_decimal]
    simp [Bytes.digitsValue]
  constructor
  · rintro ⟨-, hdigits, rfl⟩
    exact ⟨hdigits a (by simp), hvalue⟩
  · rintro ⟨ha, rfl⟩
    exact ⟨rfl, by simp [ha], hvalue⟩

private theorem number?_true_iff :
    number? true s = some (n, rest) ↔ ∃ u, Digits 2 u n ∧ s = u ++ rest := by
  constructor
  · intro h
    rcases s with _ | ⟨a, _ | ⟨b, more⟩⟩
    · simp [number?] at h
    · simp [number?] at h
    · simp only [number?, Bool.not_eq_true', if_true] at h
      split_ifs at h with ha hb
      simp only [Option.some.injEq, Prod.mk.injEq] at h
      obtain ⟨rfl, rfl⟩ := h
      exact ⟨[a, b], digits_two_iff.2 ⟨by simpa using ha, hb, rfl⟩, rfl⟩
  · rintro ⟨u, hu, rfl⟩
    obtain ⟨a, b, rfl⟩ := List.length_eq_two.1 hu.length
    obtain ⟨ha, hb, rfl⟩ := digits_two_iff.1 hu
    simp [number?, ha, hb]

/-- One digit is a number of its own only where no other digit follows. -/
theorem number?_false_iff : number? false s = some (n, rest) ↔
    (∃ u, Digits 2 u n ∧ s = u ++ rest) ∨
      ∃ u, Digits 1 u n ∧ s = u ++ rest ∧ ∀ b ∈ rest.head?, isDigit b = false := by
  constructor
  · intro h
    rcases s with _ | ⟨a, _ | ⟨b, more⟩⟩
    · simp [number?] at h
    · simp only [number?, Bool.not_eq_true', Bool.false_eq_true, if_false] at h
      split_ifs at h with ha
      simp only [Option.some.injEq, Prod.mk.injEq] at h
      obtain ⟨rfl, rfl⟩ := h
      exact .inr ⟨[a], digits_one_iff.2 ⟨by simpa using ha, rfl⟩, rfl, by simp⟩
    · simp only [number?, Bool.not_eq_true', Bool.false_eq_true, if_false] at h
      split_ifs at h with ha hb
      · simp only [Option.some.injEq, Prod.mk.injEq] at h
        obtain ⟨rfl, rfl⟩ := h
        exact .inl ⟨[a, b], digits_two_iff.2 ⟨by simpa using ha, hb, rfl⟩, rfl⟩
      · simp only [Option.some.injEq, Prod.mk.injEq] at h
        obtain ⟨rfl, rfl⟩ := h
        exact .inr ⟨[a], digits_one_iff.2 ⟨by simpa using ha, rfl⟩, rfl, by simpa using hb⟩
  · rintro (⟨u, hu, rfl⟩ | ⟨u, hu, rfl, hrest⟩)
    · obtain ⟨a, b, rfl⟩ := List.length_eq_two.1 hu.length
      obtain ⟨ha, hb, rfl⟩ := digits_two_iff.1 hu
      simp [number?, ha, hb]
    · obtain ⟨a, rfl⟩ := List.length_eq_one_iff.1 hu.length
      obtain ⟨ha, rfl⟩ := digits_one_iff.1 hu
      cases rest with
      | nil => simp [number?, ha]
      | cons b more => simp [number?, ha, hrest b rfl]

private theorem year?_iff : year? s = some (n, rest) ↔ ∃ u, Digits 4 u n ∧ s = u ++ rest := by
  constructor
  · intro h
    unfold year? at h
    split at h
    · split_ifs at h with hdigits
      simp only [Option.some.injEq, Prod.mk.injEq] at h
      obtain ⟨rfl, rfl⟩ := h
      exact ⟨[_, _, _, _], ⟨rfl, List.all_eq_true.1 hdigits,
        (Bytes.digitsValue_eq_decimal _).symm⟩, rfl⟩
    · cases h
  · rintro ⟨u, ⟨hlength, hdigits, rfl⟩, rfl⟩
    obtain ⟨a, more, rfl⟩ := List.exists_cons_of_length_eq_add_one hlength
    obtain ⟨b, c, d, rfl⟩ := List.length_eq_three.1 (Nat.succ.inj hlength)
    simp [year?, List.all_eq_true.2 hdigits, Bytes.digitsValue_eq_decimal]

private theorem expect?_iff {b : UInt8} (hb : b ≠ 32) :
    expect? b s = some rest ↔ s = b :: rest := by
  cases s with
  | nil => simp [expect?, hb]
  | cons a more => simp [expect?, hb]

private theorem exists_fraction (s : Bytes) :
    ∃ u, Fraction u (leadingNanos s).1 ∧ s = u ++ (leadingNanos s).2 := by
  have hnone : ∃ u, Fraction u 0 ∧ s = u ++ s := ⟨[], .none, rfl⟩
  unfold leadingNanos
  split
  · split_ifs with h
    · rename_i p d more
      obtain ⟨hp, hd⟩ := h
      have hdigits : Bytes.Numeral (d :: more.takeWhile isDigit) := by
        refine ⟨List.cons_ne_nil _ _, ?_⟩
        intro b hb
        rcases List.mem_cons.1 hb with rfl | hmem
        · exact hd
        · exact List.mem_takeWhile_imp hmem
      dsimp only
      rw [Bytes.digitsValue_eq_decimal]
      refine ⟨_, .digits hp hdigits, ?_⟩
      rw [List.cons_append, List.cons_append, List.takeWhile_append_dropWhile]
    · exact hnone
  · exact hnone

theorem Fraction.leadingNanos {u : Bytes} (h : Fraction u n)
    (hrest : ∀ b ∈ rest.head?, b ≠ 46 ∧ b ≠ 44 ∧ isDigit b = false) :
    leadingNanos (u ++ rest) = (n, rest) := by
  cases h with
  | none =>
    rw [List.nil_append]
    unfold Instant.leadingNanos
    split
    · rename_i p d more
      have hp := hrest p rfl
      rw [if_neg (by simp [hp])]
    · rfl
  | @digits p s hp hs =>
    obtain ⟨d, ds, rfl⟩ := List.exists_cons_of_ne_nil hs.ne_nil
    have hd := hs.digits d List.mem_cons_self
    have hds := Bytes.takeWhile_dropWhile_append
      (fun b hb => hs.digits b (List.mem_cons_of_mem _ hb)) rest fun b hb => (hrest b hb).2.2
    rw [List.cons_append, List.cons_append, Instant.leadingNanos, if_pos ⟨hp, hd⟩]
    dsimp only
    rw [hds.1, hds.2, Bytes.digitsValue_eq_decimal]

private theorem number?_pair_iff {a b : UInt8} :
    number? true [a, b] = some (n, rest) ↔ Digits 2 [a, b] n ∧ rest = [] := by
  rw [number?_true_iff]
  constructor
  · rintro ⟨u, hu, hs⟩
    obtain ⟨c, d, rfl⟩ := List.length_eq_two.1 hu.length
    simp only [List.cons_append, List.nil_append, List.cons.injEq, List.nil_eq] at hs
    obtain ⟨rfl, rfl, rfl⟩ := hs
    exact ⟨hu, rfl⟩
  · rintro ⟨hu, rfl⟩
    exact ⟨_, hu, rfl⟩

private theorem zone?_iff {z : Int × Bool} :
    zone? s = some (z, rest) ↔ ∃ u, Zone u z ∧ s = u ++ rest := by
  have hzero : Bytes.ofString "Z" = [90] := by decide
  constructor
  · intro h
    unfold zone? at h
    split at h
    · simp only [Option.some.injEq, Prod.mk.injEq] at h
      obtain ⟨rfl, rfl⟩ := h
      exact ⟨_, .zero, by rw [hzero]; rfl⟩
    · rename_i sign a b c d more hsign
      simp only [Option.bind_eq_bind, Option.bind_eq_some_iff] at h
      obtain ⟨⟨hours, r⟩, hhours, ⟨minutes, r'⟩, hminutes, h⟩ := h
      obtain ⟨hh, -⟩ := number?_pair_iff.1 hhours
      obtain ⟨hm, -⟩ := number?_pair_iff.1 hminutes
      dsimp only at h
      split_ifs at h with hrange heast hwest
      · simp only [Option.some.injEq, Prod.mk.injEq] at h
        obtain ⟨rfl, rfl⟩ := h
        exact ⟨_, .east hh hm (by omega) (by omega), by rw [heast]; rfl⟩
      · simp only [Option.some.injEq, Prod.mk.injEq] at h
        obtain ⟨rfl, rfl⟩ := h
        exact ⟨_, .west hh hm (by omega) (by omega), by rw [hwest]; rfl⟩
    · cases h
  · rintro ⟨u, hu, rfl⟩
    cases hu with
    | zero => rw [hzero]; rfl
    | @east h m hours minutes hh hm hhours hminutes =>
      obtain ⟨a, b, rfl⟩ := List.length_eq_two.1 hh.length
      obtain ⟨c, d, rfl⟩ := List.length_eq_two.1 hm.length
      have hrange : ¬(24 < hours ∨ 60 < minutes) := by omega
      simp [zone?, number?_pair_iff.2 ⟨hh, rfl⟩, number?_pair_iff.2 ⟨hm, rfl⟩, hrange]
    | @west h m hours minutes hh hm hhours hminutes =>
      obtain ⟨a, b, rfl⟩ := List.length_eq_two.1 hh.length
      obtain ⟨c, d, rfl⟩ := List.length_eq_two.1 hm.length
      have hrange : ¬(24 < hours ∨ 60 < minutes) := by omega
      simp [zone?, number?_pair_iff.2 ⟨hh, rfl⟩, number?_pair_iff.2 ⟨hm, rfl⟩, hrange]

/-- A zone starts with a letter or a sign, so it cannot be taken for more of a fraction. -/
theorem Zone.head {u : Bytes} {z : Int × Bool} (h : Zone u z) :
    ∀ b ∈ u.head?, b ≠ 46 ∧ b ≠ 44 ∧ isDigit b = false := by
  intro b hb
  cases h with
  | zero =>
    have hzero : Bytes.ofString "Z" = [90] := by decide
    rw [hzero] at hb
    rw [← Option.some.inj hb]
    decide
  | east => rw [← Option.some.inj hb]; decide
  | west => rw [← Option.some.inj hb]; decide

/-! ## Whole texts -/

private theorem numberWithin?_iff {twoDigits : Bool} {least greatest : Nat} :
    numberWithin? twoDigits least greatest s = some (n, rest) ↔
      number? twoDigits s = some (n, rest) ∧ least ≤ n ∧ n ≤ greatest := by
  simp [numberWithin?, Option.filter_eq_some_iff]

private theorem date?_iff {year month day : Nat} : date? true s = some ((year, month, day), rest) ↔
    ∃ y m d, Digits 4 y year ∧ Digits 2 m month ∧ Digits 2 d day ∧ (1 ≤ month ∧ month ≤ 12) ∧
      s = y ++ 45 :: (m ++ 45 :: (d ++ rest)) := by
  simp only [date?, Option.bind_eq_bind, Option.bind_eq_some_iff, Prod.exists, year?_iff,
    expect?_iff (b := 45) (by decide), numberWithin?_iff, number?_true_iff, Option.pure_def,
    Option.some.injEq, Prod.mk.injEq]
  constructor
  · rintro ⟨_, _, ⟨y, hy, rfl⟩, _, rfl, _, _, ⟨⟨m, hm, rfl⟩, hmonth⟩, _, rfl, _, _, ⟨d, hd, rfl⟩,
      ⟨rfl, rfl, rfl⟩, rfl⟩
    exact ⟨y, m, d, hy, hm, hd, hmonth, rfl⟩
  · rintro ⟨y, m, d, hy, hm, hd, hmonth, rfl⟩
    exact ⟨_, _, ⟨y, hy, rfl⟩, _, rfl, _, _, ⟨⟨m, hm, rfl⟩, hmonth⟩, _, rfl, _, _, ⟨d, hd, rfl⟩,
      ⟨rfl, rfl, rfl⟩, rfl⟩

/-- The colon behind the hour ends it, after one digit or two. -/
theorem hour?_iff : number? false s = some (n, 58 :: rest) ↔
    ∃ u, (Digits 2 u n ∨ Digits 1 u n) ∧ s = u ++ 58 :: rest := by
  rw [number?_false_iff]
  constructor
  · rintro (⟨u, hu, hs⟩ | ⟨u, hu, hs, -⟩)
    · exact ⟨u, .inl hu, hs⟩
    · exact ⟨u, .inr hu, hs⟩
  · rintro ⟨u, hu | hu, hs⟩
    · exact .inl ⟨u, hu, hs⟩
    · refine .inr ⟨u, hu, hs, ?_⟩
      intro b hb
      rw [← Option.some.inj hb]
      rfl

private theorem clock?_iff : clock? true s = some (n, rest) ↔ ∃ h m c hour minute second,
    (Digits 2 h hour ∨ Digits 1 h hour) ∧ Digits 2 m minute ∧ Digits 2 c second ∧ hour ≤ 23 ∧
      minute ≤ 59 ∧ second ≤ 59 ∧ n = hour * 3600 + minute * 60 + second ∧
      s = h ++ 58 :: (m ++ 58 :: (c ++ rest)) := by
  simp only [clock?, Option.bind_eq_bind, Option.bind_eq_some_iff, Prod.exists,
    expect?_iff (b := 58) (by decide), numberWithin?_iff, number?_true_iff, Option.pure_def,
    Option.some.injEq, Prod.mk.injEq, Nat.zero_le, true_and]
  constructor
  · rintro ⟨hour, _, ⟨hhour, hhours⟩, _, rfl, minute, _, ⟨⟨m, hm, rfl⟩, hminutes⟩, _, rfl, second,
      _, ⟨⟨c, hc, rfl⟩, hseconds⟩, rfl, rfl⟩
    obtain ⟨h, hh, rfl⟩ := hour?_iff.1 hhour
    exact ⟨h, m, c, hour, minute, second, hh, hm, hc, hhours, hminutes, hseconds, rfl, rfl⟩
  · rintro ⟨h, m, c, hour, minute, second, hh, hm, hc, hhours, hminutes, hseconds, rfl, rfl⟩
    exact ⟨hour, _, ⟨hour?_iff.2 ⟨h, hh, rfl⟩, hhours⟩, _, rfl, minute, _, ⟨⟨m, hm, rfl⟩, hminutes⟩,
      _, rfl, second, _, ⟨⟨c, hc, rfl⟩, hseconds⟩, rfl, rfl⟩

private theorem ofFields?_iff {f : Fields} {t : Instant} :
    ofFields? (f.year, f.month, f.day) (f.hour * 3600 + f.minute * 60 + f.second) f.nanos f.zone =
      some t ↔ (1 ≤ f.day ∧ f.day ≤ daysIn f.year f.month) ∧ f.instant = t := by
  unfold ofFields?
  dsimp only
  split_ifs with h
  · have hday : ¬(1 ≤ f.day ∧ f.day ≤ daysIn f.year f.month) := by omega
    simp [hday]
  · have hday : 1 ≤ f.day ∧ f.day ≤ daysIn f.year f.month := by omega
    simp only [hday, and_self, true_and, Option.some.injEq]
    rfl

theorem parse?_standard_iff {t : Instant} : parse? standard s = some t ↔ Spelled s t := by
  simp only [parse?, standard, writtenZone?, if_true, Option.bind_eq_bind, Option.bind_eq_some_iff,
    Prod.exists, date?_iff, expect?_iff (b := 84) (by decide), clock?_iff, zone?_iff]
  constructor
  · rintro ⟨year, month, day, _, ⟨y, m, d, hy, hm, hd, hmonth, rfl⟩, _, rfl, _, u,
      ⟨h, i, c, hour, minute, second, hh, hi, hc, hhour, hminute, hsecond, rfl, rfl⟩, offset,
      numbered, more, ⟨z, hz, hzone⟩, hinstant⟩
    obtain ⟨v, hv, hu⟩ := exists_fraction u
    split_ifs at hinstant with hmore
    rw [List.isEmpty_iff] at hmore
    subst hmore
    rw [List.append_nil] at hzone
    rw [hzone] at hu
    generalize (leadingNanos u).1 = nanos at hv hinstant
    subst hu
    obtain ⟨hday, rfl⟩ := (ofFields?_iff (f := ⟨year, month, day, hour, minute, second, nanos,
      (offset, numbered)⟩)).1 hinstant
    exact ⟨_, .mk hy hm hd hh hi hc hv hz, ⟨hmonth, hday, Nat.lt_succ_of_le hhour,
      Nat.lt_succ_of_le hminute, Nat.lt_succ_of_le hsecond⟩, rfl⟩
  · rintro ⟨f, hwritten, hvalid, hinstant⟩
    obtain ⟨hmonths, hdays, hhours, hminutes, hseconds⟩ := hvalid
    obtain @⟨y, m, d, h, i, c, v, z, hy, hm, hd, hh, hi, hc, hv, hz⟩ := hwritten
    have hnanos : leadingNanos (v ++ z) = (f.nanos, z) := hv.leadingNanos hz.head
    refine ⟨_, _, _, _, ⟨y, m, d, hy, hm, hd, hmonths, rfl⟩, _, rfl, _, _,
      ⟨h, i, c, _, _, _, hh, hi, hc, by omega, by omega, by omega, rfl, rfl⟩, f.zone.1, f.zone.2,
      [], ?_, ?_⟩
    · rw [hnanos]
      exact ⟨z, hz, (List.append_nil z).symm⟩
    · rw [hnanos]
      exact ofFields?_iff.2 ⟨hdays, hinstant⟩

end EngineHost.Instant
