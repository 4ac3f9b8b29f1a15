import EngineHost.Engine.NativeText
import EngineHost.Guest.Instance
import EngineHost.Proofs.WellFormedText

/-!
# Repaired text

Decoding a native text keeps its characters and replaces every maximal subpart of what is no
character: the longest part at its place that starts some character, or a single byte. These rules
leave one result for every byte string, and it is the one that the host shows.
-/

namespace EngineHost

namespace Utf8

/-- A byte string that starts the encoding of a character, or a single byte. -/
def Starts (u : Bytes) : Prop := u.length = 1 ∨ ∃ c, u <+: encode c

/-- The maximal subpart at the front of a byte string: the longest part that starts a character,
or one byte if none does. -/
structure IsSubpart (u s : Bytes) : Prop where
  front : u <+: s
  starts : Starts u
  longest : ∀ v, v <+: s → Starts v → v.length ≤ u.length

/-- What is left of a byte string when its characters are kept and every maximal subpart of what
is no character becomes one replacement character. -/
inductive Repaired : Bytes → Bytes → Prop
  | nil : Repaired [] []
  | char (c : Char) {s t : Bytes} (h : Repaired s t) : Repaired (encode c ++ s) (encode c ++ t)
  | subpart {u s t : Bytes} (hne : u ≠ []) (hstuck : ∀ c, ¬encode c <+: u ++ s)
      (hsub : IsSubpart u (u ++ s)) (h : Repaired s t) :
      Repaired (u ++ s) (encode replacement ++ t)

private theorem front?_eq_none_iff {s : Bytes} : front? s = none ↔ ∀ c, ¬encode c <+: s := by
  constructor
  · rintro hfront c ⟨rest, rfl⟩
    rw [front?_encode] at hfront
    cases hfront
  · intro hstuck
    cases hfront : front? s with
    | none => rfl
    | some piece =>
      obtain ⟨n, w⟩ := piece
      have hfound : encode (Char.ofNat n) <+: s := by
        rw [encode_of_front? hfront]
        exact List.take_prefix w s
      exact absurd hfound (hstuck _)

private theorem front?_cons_cons {a b : UInt8} {x : Bytes} {n w : Nat}
    (h : front? (a :: b :: x) = some (n, w)) (hw : w ≠ 1) :
    (width a = 2 ∧ isTail b = true ∧ w = 2) ∨
      (width a = 3 ∧ fits a b = true ∧ w = 3) ∨
      (width a = 4 ∧ fits a b = true ∧ w = 4 ∧ ∃ c y, x = c :: y ∧ isTail c = true) := by
  simp only [front?] at h
  split at h
  · simp only [Option.some.injEq, Prod.mk.injEq] at h
    exact absurd h.2.symm hw
  · rename_i hwidth hrest
    obtain ⟨rfl, rfl⟩ := List.cons.inj hrest
    split_ifs at h with htail
    simp only [Option.some.injEq, Prod.mk.injEq] at h
    exact .inl ⟨hwidth, htail, h.2.symm⟩
  · rename_i hwidth hrest
    obtain ⟨rfl, rfl⟩ := List.cons.inj hrest
    split_ifs at h with htail
    simp only [Option.some.injEq, Prod.mk.injEq] at h
    rw [Bool.and_eq_true] at htail
    exact .inr (.inl ⟨hwidth, htail.1, h.2.symm⟩)
  · rename_i hwidth hrest
    obtain ⟨rfl, rfl⟩ := List.cons.inj hrest
    split_ifs at h with htail
    simp only [Option.some.injEq, Prod.mk.injEq] at h
    simp only [Bool.and_eq_true] at htail
    exact .inr (.inr ⟨hwidth, htail.1.1, h.2.symm, _, _, rfl, htail.1.2⟩)
  · cases h

private theorem subpartLength_cons (a : UInt8) (rest : Bytes) :
    subpartLength (a :: rest) = 1 ∨
      (∃ b x, rest = b :: x ∧ subpartLength (a :: rest) = 2 ∧ (width a = 3 ∨ width a = 4) ∧
        fits a b = true) ∨
      ∃ b c x, rest = b :: c :: x ∧ subpartLength (a :: rest) = 3 ∧ width a = 4 ∧
        fits a b = true ∧ isTail c = true := by
  simp only [subpartLength]
  split
  · rename_i b x hwidth
    split_ifs with hfits
    · exact .inr (.inl ⟨b, x, rfl, rfl, .inl hwidth, hfits⟩)
    · exact .inl rfl
  · rename_i b x hwidth
    split_ifs with hfits
    · split
      · rename_i c x
        split_ifs with htail
        · exact .inr (.inr ⟨b, c, x, rfl, rfl, hwidth, hfits, htail⟩)
        · exact .inr (.inl ⟨b, c :: x, rfl, rfl, .inr hwidth, hfits⟩)
      · exact .inr (.inl ⟨b, [], rfl, rfl, .inr hwidth, hfits⟩)
    · exact .inl rfl
  · exact .inl rfl

private theorem subpartLength_bounds {s : Bytes} (hne : s ≠ []) :
    1 ≤ subpartLength s ∧ subpartLength s ≤ s.length := by
  cases s with
  | nil => exact absurd rfl hne
  | cons a rest =>
    obtain h | ⟨b, x, rfl, h, -⟩ | ⟨b, c, x, rfl, h, -⟩ := subpartLength_cons a rest
    all_goals
      rw [h]
      simp

private theorem length_le_subpartLength {s v : Bytes} (hfront : front? s = none) (hv : v <+: s)
    (hstarts : Starts v) : v.length ≤ subpartLength s := by
  obtain ⟨r, rfl⟩ := hv
  match v, hstarts with
  | [], _ => exact Nat.zero_le _
  | [a], _ => exact (subpartLength_bounds (by simp)).1
  | a :: b :: v, hstarts =>
    obtain hone | ⟨c, t, ht⟩ := hstarts
    · simp at hone
    -- the character itself does not stand there, so something is missing of it
    have hmissing : t ≠ [] := by
      rintro rfl
      rw [List.append_nil] at ht
      exact front?_eq_none_iff.1 hfront c ⟨r, by rw [ht]⟩
    have hchar := front?_encode c []
    rw [List.append_nil, ← ht] at hchar
    have hlength : (a :: b :: v ++ t).length = 2 + v.length + t.length := by simp; omega
    have htpos : 0 < t.length := List.length_pos_iff.2 hmissing
    obtain ⟨-, -, hw⟩ | ⟨hwidth, hfits, hw⟩ | ⟨hwidth, hfits, hw, d, y, hd, htail⟩ :=
      front?_cons_cons hchar (by omega)
    · omega
    · simp only [List.cons_append, subpartLength, hwidth, hfits, if_true, List.length_cons]
      omega
    · cases v with
      | nil =>
        simp only [List.cons_append, subpartLength, hwidth, hfits, if_true, List.length_cons]
        split
        · split_ifs <;> simp
        · simp
      | cons d' v =>
        obtain ⟨rfl, -⟩ := List.cons.inj hd
        rw [hlength, List.length_cons] at hw
        simp only [List.cons_append, subpartLength, hwidth, hfits, htail, if_true, List.length_cons]
        omega

private theorem starts_take {u : Bytes} (h : (front? u).map Prod.snd = some u.length) (k : Nat) :
    Starts (u.take k) := by
  obtain ⟨⟨n, w⟩, hfront, hw⟩ := Option.map_eq_some_iff.1 h
  refine .inr ⟨Char.ofNat n, ?_⟩
  rw [encode_of_front? hfront, show w = u.length from hw, List.take_length]
  exact List.take_prefix k u

private theorem starts_take_subpartLength {s : Bytes} (hne : s ≠ []) :
    Starts (s.take (subpartLength s)) := by
  have htail : isTail 0x80 = true := by decide
  cases s with
  | nil => exact absurd rfl hne
  | cons a rest =>
    obtain h | ⟨b, x, rfl, h, hwidth | hwidth, hfits⟩ | ⟨b, c, x, rfl, h, hwidth, hfits, hc⟩ :=
      subpartLength_cons a rest
    all_goals rw [h]
    · exact .inl rfl
    -- continuation bytes complete what is there to a character
    · exact starts_take (u := [a, b, 0x80]) (by simp [front?, hwidth, hfits, htail]) 2
    · exact starts_take (u := [a, b, 0x80, 0x80]) (by simp [front?, hwidth, hfits, htail]) 2
    · exact starts_take (u := [a, b, c, 0x80]) (by simp [front?, hwidth, hfits, hc, htail]) 3

private theorem isSubpart_take {s : Bytes} (hne : s ≠ []) (hfront : front? s = none) :
    IsSubpart (s.take (subpartLength s)) s where
  front := List.take_prefix _ s
  starts := starts_take_subpartLength hne
  longest v hv hstarts := by
    rw [List.length_take_of_le (subpartLength_bounds hne).2]
    exact length_le_subpartLength hfront hv hstarts

theorem IsSubpart.unique {u v s : Bytes} (hu : IsSubpart u s) (hv : IsSubpart v s) : u = v := by
  have hlength : u.length = v.length :=
    Nat.le_antisymm (hv.longest u hu.front hu.starts) (hu.longest v hv.front hv.starts)
  rw [List.prefix_iff_eq_take.1 hu.front, List.prefix_iff_eq_take.1 hv.front, hlength]

private theorem repairAfter_eq (skip : Nat) (s : Bytes) :
    repairAfter skip s = repair (s.drop skip) := by
  induction s generalizing skip with
  | nil => simp [repair, repairAfter]
  | cons b s ih =>
    cases skip with
    | zero => rfl
    | succ skip => exact ih skip

private theorem repair_of_front?_eq_none {s : Bytes} (hne : s ≠ []) (hfront : front? s = none) :
    repair s = encode replacement ++ repair (s.drop (subpartLength s)) := by
  cases s with
  | nil => exact absurd rfl hne
  | cons a rest =>
    obtain ⟨k, hk⟩ := Nat.exists_eq_add_of_le' (subpartLength_bounds hne).1
    rw [hk, List.drop_succ_cons, repair, repairAfter, hfront]
    simp only [hk, Nat.add_sub_cancel, repairAfter_eq]

theorem Repaired.repair_eq {s t : Bytes} (h : Repaired s t) : repair s = t := by
  induction h with
  | nil => rfl
  | char c _ ih => rw [repair_encode_append, ih]
  | @subpart u s t hne hstuck hsub _ ih =>
    have hfront : front? (u ++ s) = none := front?_eq_none_iff.2 hstuck
    have hall : u ++ s ≠ [] := by simp [hne]
    have hu : (u ++ s).take (subpartLength (u ++ s)) = u :=
      (isSubpart_take hall hfront).unique hsub
    have hrest : (u ++ s).drop (subpartLength (u ++ s)) = s := by
      have hparts := List.take_append_drop (subpartLength (u ++ s)) (u ++ s)
      rw [hu] at hparts
      exact List.append_cancel_left hparts
    rw [repair_of_front?_eq_none hall hfront, hrest, ih]

private theorem repaired_repair (s : Bytes) : Repaired s (repair s) := by
  induction hn : s.length using Nat.strongRecOn generalizing s with
  | ind n ih =>
    cases hfront : front? s with
    | some piece =>
      obtain ⟨k, w⟩ := piece
      obtain ⟨-, hpos, hle⟩ := length_encode_front hfront
      have hs : s = encode (Char.ofNat k) ++ s.drop w := by
        rw [encode_of_front? hfront, List.take_append_drop]
      have hrest := ih (s.drop w).length (by rw [List.length_drop]; omega) (s.drop w) rfl
      rw [hs, repair_encode_append]
      exact .char _ hrest
    | none =>
      by_cases hne : s = []
      · subst hne
        exact .nil
      obtain ⟨hpos, hle⟩ := subpartLength_bounds hne
      have hs : s.take (subpartLength s) ++ s.drop (subpartLength s) = s :=
        List.take_append_drop _ _
      have hrest := ih (s.drop (subpartLength s)).length (by rw [List.length_drop]; omega)
        (s.drop (subpartLength s)) rfl
      have hall := Repaired.subpart (u := s.take (subpartLength s)) (s := s.drop (subpartLength s))
        (by rw [← List.length_pos_iff, List.length_take_of_le hle]; omega)
        (by rw [hs]; exact front?_eq_none_iff.1 hfront)
        (by rw [hs]; exact isSubpart_take hne hfront) hrest
      rwa [hs, ← repair_of_front?_eq_none hne hfront] at hall

private theorem Repaired.wellFormed {s t : Bytes} (h : Repaired s t) : WellFormed t := by
  induction h with
  | nil => exact ⟨[], rfl⟩
  | char c _ ih =>
    obtain ⟨cs, rfl⟩ := ih
    exact ⟨c :: cs, List.flatMap_cons.symm⟩
  | subpart _ _ _ _ ih =>
    obtain ⟨cs, rfl⟩ := ih
    exact ⟨replacement :: cs, List.flatMap_cons.symm⟩

end Utf8

namespace Boundary

variable {σ : Type} {b : Boundary σ} {p : Ptr} {w : World σ} {data : Bytes}

/-- A read of the text at an address is answered with some bytes. -/
def Reads (b : Boundary σ) (p : Ptr) (w : World σ) (data : Bytes) : Prop :=
  p ≠ 0 ∧ (b.readText p w.backend).value = some data

private theorem Reads.decodeText_eq (h : b.Reads p w data) :
    (b.decodeText p w).1 = Utf8.repair data := by
  obtain ⟨hp, hread⟩ := h
  simp only [decodeText, hp, if_false, readTextM, bind, StateT.bind, World.call, hread]
  rfl

/-- The text that is shown is well-formed, it is the one text that the rules of repair allow, and a
well-formed text is shown as it is, also in front of one that is not. -/
theorem decodeText_repairs (h : b.Reads p w data) :
    Utf8.WellFormed (b.decodeText p w).1 ∧
    (∀ t, Utf8.Repaired data t ↔ t = (b.decodeText p w).1) ∧
    (Utf8.WellFormed data → (b.decodeText p w).1 = data) ∧
    (∀ {τ : Type} (b' : Boundary τ) (p' : Ptr) (w' : World τ),
      b'.Reads p' w' (b.decodeText p w).1 → (b'.decodeText p' w').1 = (b.decodeText p w).1) ∧
    ∀ {τ : Type} (b' : Boundary τ) (p' : Ptr) (w' : World τ) (x y : Bytes),
      data = x ++ y → Utf8.WellFormed x → b'.Reads p' w' y →
        (b.decodeText p w).1 = x ++ (b'.decodeText p' w').1 := by
  rw [h.decodeText_eq]
  have hrepaired := Utf8.repaired_repair data
  have hformed := hrepaired.wellFormed
  refine ⟨hformed, ?_, ?_, ?_, ?_⟩
  · intro t
    constructor
    · intro ht
      exact ht.repair_eq.symm
    · rintro rfl
      exact hrepaired
  · exact Utf8.WellFormed.repair_eq
  · intro τ b' p' w' hread
    rw [hread.decodeText_eq, hformed.repair_eq]
  · rintro τ b' p' w' x y rfl hx hread
    rw [hread.decodeText_eq, hx.repair_append]

/-- A module whose memory holds a torn text: a euro sign without its last byte, an encoded
surrogate and the start of a character beyond the first plane. -/
def torn : World (Guest.Instance Unit) where
  backend :=
    { guest := ()
      memory := .ofBytes [0, 0x61, 0xe2, 0x82, 0x28, 0xed, 0xa0, 0x80, 0xf0, 0x9f, 0x98, 0]
      stderr := { limit := 0 } }

theorem decodeText_repairs_torn :
    let b : Boundary (Guest.Instance Unit) :=
      Guest.boundary { run := fun _ _ _ _ => { outcome := .ok [], state := () } }
    let text := (b.decodeText 1 torn).1
    b.Reads 1 torn [0x61, 0xe2, 0x82, 0x28, 0xed, 0xa0, 0x80, 0xf0, 0x9f, 0x98] ∧
      text = Bytes.ofString "a\ufffd(\ufffd\ufffd\ufffd\ufffd" ∧ Utf8.WellFormed text := by
  intro b text
  have hreads : b.Reads 1 torn [0x61, 0xe2, 0x82, 0x28, 0xed, 0xa0, 0x80, 0xf0, 0x9f, 0x98] :=
    ⟨by decide, by decide⟩
  exact ⟨hreads, by decide, (decodeText_repairs hreads).1⟩

end Boundary

end EngineHost
