import EngineHost.Proofs.RestoredAttribute
import EngineHost.Proofs.WellFormedText

/-!
# Forwarded log lines

A guest's line is carried by one record, with every attribute in its place. A line that cannot be
decoded is carried whole. The level of a record is the one that the line names, and what a level's
name is, is said here without the reader: a known word in any case, with an optional distance.
-/

namespace EngineHost.Log

open Bytes (SignedNumeral)

namespace Level

variable {s name : Bytes} {l : Level}

/-! ## Names in any case -/

/-- A word of capital letters in any case. The dotless i counts as a small letter of `I`. -/
inductive AnyCase : Bytes → Bytes → Prop
  | nil : AnyCase [] []
  | capital {b : UInt8} {name s : Bytes} (h : AnyCase name s) : AnyCase (b :: name) (b :: s)
  | small {b : UInt8} {name s : Bytes} (h : AnyCase name s) : AnyCase (b :: name) ((b + 32) :: s)
  | dotless {name s : Bytes} (h : AnyCase name s) : AnyCase (73 :: name) (Utf8.encode 'ı' ++ s)

theorem AnyCase.append_left (u : Bytes) (h : AnyCase name s) : AnyCase (u ++ name) (u ++ s) := by
  induction u with
  | nil => exact h
  | cons b u ih => exact .capital ih

private theorem encode_of_small {c : Char} (hc : 'a' ≤ c ∧ c ≤ 'z') :
    Utf8.encode c = [Bytes.ofAscii c - 32 + 32] := by
  have hlast : c.toNat ≤ 122 := UInt32.le_iff_toNat_le.1 hc.2
  have hbyte : (Bytes.ofAscii c).toNat = c.toNat := Nat.mod_eq_of_lt (by omega)
  have hascii : Bytes.ofAscii c < 128 := by
    rw [UInt8.lt_iff_toNat_lt, hbyte]
    exact Nat.lt_of_le_of_lt hlast (by decide)
  have hone := Bytes.encode_of_ascii hascii
  rwa [hbyte, Char.ofNat_toNat, ← UInt8.sub_add_cancel (Bytes.ofAscii c) 32] at hone

/-- What a piece contributes to the upper case is in some case what it was. -/
theorem AnyCase.piece (p : Utf8.Piece) (h : AnyCase name s) :
    AnyCase (upperPiece p ++ name) (p.bytes ++ s) := by
  cases p with
  | stray b => exact .capital h
  | char c =>
    rw [upperPiece]
    split_ifs with hdotless hsmall
    · subst hdotless
      exact .dotless h
    · rw [Utf8.Piece.bytes, encode_of_small hsmall]
      exact .small h
    · exact h.append_left (Utf8.encode c)

private theorem anyCase_upper (s : Bytes) : AnyCase (upper s) s := by
  have hpieces (ps : List Utf8.Piece) :
      AnyCase (ps.flatMap upperPiece) (ps.flatMap Utf8.Piece.bytes) := by
    induction ps with
    | nil => exact .nil
    | cons p ps ih => exact ih.piece p
  have hbytes : (Utf8.pieces s).flatMap Utf8.Piece.bytes = s := Utf8.flatMap_bytes_piecesAfter 0 s
  have hall := hpieces (Utf8.pieces s)
  rwa [hbytes] at hall

private theorem upper_encode_append (c : Char) (s : Bytes) :
    upper (Utf8.encode c ++ s) = upperPiece (.char c) ++ upper s := by
  rw [upper, Utf8.pieces_encode_append, List.flatMap_cons, upper]

private theorem upper_cons {b : UInt8} (hb : b < 128) (s : Bytes) :
    upper (b :: s) = upperPiece (.char (Char.ofNat b.toNat)) ++ upper s := by
  have hone := upper_encode_append (Char.ofNat b.toNat) s
  rwa [Bytes.encode_of_ascii hb] at hone

def isCapital (b : UInt8) : Bool := 65 ≤ b && b ≤ 90

private theorem upper_capital {b : UInt8} (hb : isCapital b = true) (s : Bytes) :
    upper (b :: s) = b :: upper s := by
  have hletter : b < 128 ∧ upperPiece (.char (Char.ofNat b.toNat)) = [b] :=
    Bytes.forall_byte (P := fun b => isCapital b = true →
      b < 128 ∧ upperPiece (.char (Char.ofNat b.toNat)) = [b]) (by decide +kernel) b hb
  rw [upper_cons hletter.1, hletter.2, List.singleton_append]

private theorem upper_small {b : UInt8} (hb : isCapital b = true) (s : Bytes) :
    upper ((b + 32) :: s) = b :: upper s := by
  have hletter : b + 32 < 128 ∧ upperPiece (.char (Char.ofNat (b + 32).toNat)) = [b] :=
    Bytes.forall_byte (P := fun b => isCapital b = true →
      b + 32 < 128 ∧ upperPiece (.char (Char.ofNat (b + 32).toNat)) = [b]) (by decide +kernel) b hb
  rw [upper_cons hletter.1, hletter.2, List.singleton_append]

private theorem AnyCase.upper_eq (h : AnyCase name s) (hname : ∀ b ∈ name, isCapital b = true) :
    upper s = name := by
  induction h with
  | nil => rfl
  | capital h ih =>
    obtain ⟨hb, hname⟩ := List.forall_mem_cons.1 hname
    rw [upper_capital hb, ih hname]
  | small h ih =>
    obtain ⟨hb, hname⟩ := List.forall_mem_cons.1 hname
    rw [upper_small hb, ih hname]
  | dotless h ih =>
    obtain ⟨-, hname⟩ := List.forall_mem_cons.1 hname
    rw [upper_encode_append, ih hname]
    rfl

/-- No letter is a sign, so a name ends where a sign stands. -/
theorem AnyCase.isSign_eq_false (h : AnyCase name s) (hname : ∀ b ∈ name, isCapital b = true) :
    ∀ b ∈ s, isSign b = false := by
  induction h with
  | nil => simp
  | @capital b name s h ih =>
    obtain ⟨hb, hname⟩ := List.forall_mem_cons.1 hname
    have hletter : isSign b = false :=
      Bytes.forall_byte (P := fun b => isCapital b = true → isSign b = false)
        (by decide +kernel) b hb
    exact List.forall_mem_cons.2 ⟨hletter, ih hname⟩
  | @small b name s h ih =>
    obtain ⟨hb, hname⟩ := List.forall_mem_cons.1 hname
    have hletter : isSign (b + 32) = false :=
      Bytes.forall_byte (P := fun b => isCapital b = true → isSign (b + 32) = false)
        (by decide +kernel) b hb
    exact List.forall_mem_cons.2 ⟨hletter, ih hname⟩
  | dotless h ih =>
    obtain ⟨-, hname⟩ := List.forall_mem_cons.1 hname
    have hletter : (Utf8.encode 'ı').all (fun b => !isSign b) = true := by decide
    intro b hb
    rcases List.mem_append.1 hb with hb | hb
    · simpa using List.all_eq_true.1 hletter b hb
    · exact ih hname b hb

/-! ## The levels that a text names -/

def names : List (Bytes × Level) :=
  [("DEBUG", debug), ("INFO", info), ("WARN", warn), ("ERROR", error)]

private theorem isCapital_of_mem_names (h : (name, l) ∈ names) :
    ∀ b ∈ name, isCapital b = true := by
  have hall : names.all (fun p => p.1.all isCapital) = true := by decide
  exact List.all_eq_true.1 (List.all_eq_true.1 hall (name, l) h)

def IsName (s : Bytes) (l : Level) : Prop := ∃ name, (name, l) ∈ names ∧ AnyCase name s

theorem named?_eq_some_iff : named? s = some l ↔ IsName s l := by
  constructor
  · intro h
    refine ⟨upper s, ?_, anyCase_upper s⟩
    rw [named?] at h
    simp only [names, List.mem_cons, Prod.mk.injEq]
    split_ifs at h with hdebug hinfo hwarn herror <;> cases h <;> simp [*]
  · rintro ⟨name, hmem, hcase⟩
    have hupper := hcase.upper_eq (isCapital_of_mem_names hmem)
    simp only [names, List.mem_cons, Prod.mk.injEq, List.not_mem_nil, or_false] at hmem
    rw [named?, hupper]
    rcases hmem with ⟨rfl, rfl⟩ | ⟨rfl, rfl⟩ | ⟨rfl, rfl⟩ | ⟨rfl, rfl⟩ <;> rfl

/-- The level that a text names: a name in any case, or one with a signed distance from it. Levels
are 64-bit integers, and so is the sum. -/
inductive Named : Bytes → Level → Prop
  | point {s : Bytes} {l : Level} (h : IsName s l) : Named s l
  | distant {s tail : Bytes} {l : Level} {n : Int64} (h : IsName s l)
    (hsign : ∃ b ∈ tail.head?, isSign b = true) (hn : SignedNumeral tail n.toInt) :
    Named (s ++ tail) ⟨l.value + n⟩

theorem IsName.split_append (h : IsName s l) (tail : Bytes)
    (htail : ∀ b ∈ tail.head?, isSign b = true) :
    (s ++ tail).takeWhile (fun b => !isSign b) = s ∧
      (s ++ tail).dropWhile (fun b => !isSign b) = tail := by
  obtain ⟨name, hmem, hcase⟩ := h
  have hletters := hcase.isSign_eq_false (isCapital_of_mem_names hmem)
  exact Bytes.takeWhile_dropWhile_append (fun b hb => by rw [hletters b hb, Bool.not_false]) tail
    (fun b hb => by rw [htail b hb, Bool.not_true])

private theorem named_of_parse? (h : parse? s = some l) : Named s l := by
  rw [parse?] at h
  have hsplit := List.takeWhile_append_dropWhile (p := fun b => !isSign b) (l := s)
  have hhead := List.head?_dropWhile_not (fun b => !isSign b) s
  generalize s.takeWhile (fun b => !isSign b) = name at h hsplit
  generalize s.dropWhile (fun b => !isSign b) = tail at h hsplit hhead
  obtain ⟨n, hn, hname⟩ := Option.bind_eq_some_iff.1 h
  obtain ⟨l, hl, rfl⟩ := Option.map_eq_some_iff.1 hname
  rw [named?_eq_some_iff] at hl
  subst hsplit
  cases tail with
  | nil =>
    cases hn
    rw [List.append_nil, Int64.add_zero]
    exact .point hl
  | cons b tail =>
    have hsign : isSign b = true := by simpa using hhead
    exact .distant hl ⟨b, rfl, hsign⟩ (Literal.int64?_eq_some_iff_toInt.1 hn)

theorem Named.parse? (h : Named s l) : parse? s = some l := by
  cases h with
  | point h =>
    obtain ⟨hname, htail⟩ := h.split_append [] (by simp)
    rw [List.append_nil] at hname htail
    rw [Level.parse?, hname, htail, named?_eq_some_iff.2 h]
    simp
  | @distant s tail l n h hsign hn =>
    obtain ⟨b, hb, hsign⟩ := hsign
    have hhead : ∀ c ∈ tail.head?, isSign c = true := by
      intro c hc
      rwa [Option.mem_unique hc hb]
    have hfilled : tail.isEmpty = false := by
      cases tail with
      | nil => cases hb
      | cons => rfl
    obtain ⟨hname, htail⟩ := h.split_append tail hhead
    rw [Level.parse?, hname, htail, named?_eq_some_iff.2 h, hfilled,
      Literal.int64?_eq_some_iff_toInt.2 hn]
    rfl

theorem parse?_eq_some_iff : Level.parse? s = some l ↔ Named s l :=
  ⟨named_of_parse?, Named.parse?⟩

private theorem parse?_eq_none_iff : Level.parse? s = none ↔ ∀ l, ¬Named s l := by
  simp only [Option.eq_none_iff_forall_ne_some, ne_eq, parse?_eq_some_iff]

end Level

/-! ## Records of lines -/

/-- The level of a line: the one that its text names, or else the information level. -/
inductive LineLevel (s : Bytes) : Level → Prop
  | named {l : Level} (h : Level.Named s l) : LineLevel s l
  | unnamed (h : ∀ l, ¬Level.Named s l) : LineLevel s .info

/-- The record that carries a guest's line: the raw payload when it is no log line, and otherwise
its message with its level and with every attribute restored, behind the mark of their origin. -/
inductive Carries (payload : Bytes) : Record → Prop
  | raw (h : WireMessage.decode? payload = none) :
    Carries payload ⟨.info, "hvm guest log (raw)", [⟨"payload", .string payload⟩]⟩
  | line {w : WireMessage} {l : Level} {attrs : List Attr}
    (h : WireMessage.decode? payload = some w) (hlevel : LineLevel w.level l)
    (hattrs : List.Forall₂ Restores w.attrs attrs) :
    Carries payload ⟨l, w.message, ⟨"origin", .string "guest"⟩ :: attrs⟩

private theorem lineLevel_iff {s : Bytes} {l : Level} : LineLevel s l ↔ l = wireLevel s := by
  rw [wireLevel]
  constructor
  · intro h
    cases h with
    | named h => rw [h.parse?, Option.getD_some]
    | unnamed h => rw [Level.parse?_eq_none_iff.2 h, Option.getD_none]
  · rintro rfl
    cases hread : Level.parse? s with
    | none => exact .unnamed (Level.parse?_eq_none_iff.1 hread)
    | some l => exact .named (Level.named_of_parse? hread)

private theorem forall₂_restores_iff {as : List WireAttr} {bs : List Attr} :
    List.Forall₂ Restores as bs ↔ bs = as.map attrOfWire := by
  constructor
  · intro h
    induction h with
    | nil => rfl
    | cons h _ ih => rw [restores_iff.1 h, ih, List.map_cons]
  · rintro rfl
    induction as with
    | nil => exact .nil
    | cons a as ih => exact .cons (restores_iff.2 rfl) ih

private theorem carries_iff {payload : Bytes} {r : Record} :
    Carries payload r ↔ r = forward payload := by
  rw [forward]
  constructor
  · intro h
    cases h with
    | raw h => rw [h]
    | line h hlevel hattrs => rw [h, lineLevel_iff.1 hlevel, forall₂_restores_iff.1 hattrs]
  · rintro rfl
    cases hread : WireMessage.decode? payload with
    | none => exact .raw hread
    | some w => exact .line hread (lineLevel_iff.2 rfl) (forall₂_restores_iff.2 rfl)

/-- Every line of a guest becomes one record, the one that carries it, and a handler shows that
record just if its level is high enough. -/
theorem line_forwarded (payload : Bytes) :
    (∀ r, Carries payload r ↔ r = forward payload) ∧
    ∀ least, visible least [forward payload] =
      if least.value ≤ (forward payload).level.value then [forward payload] else [] := by
  refine ⟨fun r => carries_iff, fun least => ?_⟩
  rw [visible, List.filter_singleton]
  simp

end EngineHost.Log
