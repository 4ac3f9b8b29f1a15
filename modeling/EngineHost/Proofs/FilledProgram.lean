import EngineHost.Proofs.FlatTemplate
import EngineHost.Simulator.Program
import Mathlib.Data.List.Chain
import Mathlib.Data.List.TakeWhile
import Mathlib.Data.List.Forall2

/-!
# Programs from flat templates

Which numerals stand for the parameters of a flat template makes no difference to the definitions
of its program, as long as no reference stands in a line that starts a definition: brackets open
and close where they did, and every line starts as it did.
-/

namespace EngineHost

namespace Bytes

structure Numeral (s : Bytes) : Prop where
  ne_nil : s ≠ []
  digits : ∀ b ∈ s, isDigit b = true

/-- Whether a byte is white space as an ASCII character. -/
def blank (b : UInt8) : Bool := isBlank (Char.ofNat b.toNat)

def ascii (s : Bytes) : Bool := s.all (· < 128)

/-- The first byte of a text that is not white space. -/
def lead? (s : Bytes) : Option UInt8 := s.find? fun b => !blank b

variable {s : Bytes} {b c : UInt8}

theorem forall_byte {P : UInt8 → Prop} (h : ∀ n < 256, P (UInt8.ofNat n)) (b : UInt8) : P b := by
  have hb := h b.toNat b.toNat_lt
  rwa [UInt8.ofNat_toNat] at hb

theorem toNat_ofAscii_of_mem_toDigits {n : Nat} {d : Char} (h : d ∈ Nat.toDigits 10 n) :
    (ofAscii d).toNat = d.toNat ∧ 48 ≤ d.toNat ∧ d.toNat ≤ 57 := by
  have hdigit := Nat.isDigit_of_mem_toDigits (by decide) (by decide) h
  simp only [Char.isDigit, Bool.and_eq_true, decide_eq_true_eq, UInt32.le_iff_toNat_le] at hdigit
  have hrange : 48 ≤ d.toNat ∧ d.toNat ≤ 57 := hdigit
  exact ⟨Nat.mod_eq_of_lt (by omega), hrange⟩

theorem numeral_ofNat (n : Nat) : (ofNat n).Numeral where
  ne_nil := by simp [ofNat, Nat.toDigits_ne_nil]
  digits b hb := by
    obtain ⟨d, hd, rfl⟩ := List.mem_map.1 hb
    obtain ⟨hbyte, hleast, hgreatest⟩ := toNat_ofAscii_of_mem_toDigits hd
    simp [isDigit, UInt8.le_iff_toNat_le, hbyte, hleast, hgreatest]

private theorem blank_of_isDigit : isDigit b = true → blank b = false :=
  forall_byte (P := fun b => isDigit b = true → blank b = false) (by decide +kernel) b

private theorem lt_of_isDigit : isDigit b = true → b < 128 :=
  forall_byte (P := fun b => isDigit b = true → b < 128) (by decide +kernel) b

theorem encode_of_ascii : b < 128 → Utf8.encode (Char.ofNat b.toNat) = [b] :=
  forall_byte (P := fun b => b < 128 → Utf8.encode (Char.ofNat b.toNat) = [b]) (by decide +kernel) b

/-! ## Trimming -/

private theorem pieces_of_ascii (hs : s.ascii = true) :
    Utf8.pieces s = s.map fun b => .char (Char.ofNat b.toNat) := by
  induction s with
  | nil => rfl
  | cons b s ih =>
    simp only [ascii, List.all_cons, Bool.and_eq_true, decide_eq_true_eq] at hs
    have hwidth : Utf8.width b = 1 := if_pos hs.1
    have hfront : Utf8.front? (b :: s) = some (b.toNat, 1) := by simp [Utf8.front?, hwidth]
    rw [Utf8.pieces, Utf8.piecesAfter, hfront]
    exact congrArg _ (ih hs.2)

private theorem trim_of_ascii (hs : s.ascii = true) :
    trim s = ((s.dropWhile blank).reverse.dropWhile blank).reverse := by
  have hblank : Utf8.Piece.isBlank ∘ (fun b : UInt8 => .char (Char.ofNat b.toNat)) = blank := rfl
  have hbytes : ∀ t : Bytes, (∀ b ∈ t, b ∈ s) →
      t.flatMap (fun b => Utf8.Piece.bytes (.char (Char.ofNat b.toNat))) = t := by
    intro t ht
    have hsingle : ∀ b ∈ t, Utf8.Piece.bytes (.char (Char.ofNat b.toNat)) = [b] := fun b hb =>
      encode_of_ascii (by simpa using List.all_eq_true.1 hs b (ht b hb))
    rw [List.flatMap_congr hsingle, List.flatMap_singleton']
  simp only [trim, pieces_of_ascii hs, List.dropWhile_map, ← List.map_reverse, hblank,
    List.flatMap_map]
  refine hbytes _ fun b hb => ?_
  rw [List.mem_reverse] at hb
  have hinner := (List.dropWhile_sublist _).mem hb
  rw [List.mem_reverse] at hinner
  exact (List.dropWhile_sublist _).mem hinner

private theorem trim_eq_cons (hs : s.ascii = true) (hlead : s.lead? = some b) :
    ∃ rest, trim s = b :: rest := by
  rw [trim_of_ascii hs]
  have hhead : (s.dropWhile blank).head? = some b := by
    rw [← List.find?_not_eq_head?_dropWhile]
    exact hlead
  have hb : blank b = false := by simpa using List.find?_some hlead
  obtain ⟨rest, hrest⟩ := List.head?_eq_some_iff.1 hhead
  rw [hrest, List.reverse_cons, List.dropWhile_append]
  split
  · exact ⟨[], by simp [hb]⟩
  · exact ⟨_, List.reverse_append⟩

private theorem filter_dropWhile {p q : UInt8 → Bool} (h : ∀ b, p b = true → q b = false)
    (s : Bytes) :
    (s.dropWhile p).filter q = s.filter q := by
  induction s with
  | nil => rfl
  | cons b s ih =>
    by_cases hb : p b = true
    · simp [hb, h b hb, ih]
    · simp [hb]

/-! ## Lines -/

/-- The lines of two texts one behind the other: the last line of the first goes on with the first
line of the second. -/
def joinLines : (ls ms : List (List α)) → List (List α)
  | [], ms => ms
  | [l], [] => [l]
  | [l], m :: ms => (l ++ m) :: ms
  | l :: l' :: ls, ms => l :: joinLines (l' :: ls) ms

theorem split_ne_nil (sep : UInt8) (s : Bytes) : split sep s ≠ [] := by
  fun_cases split sep s <;> simp_all

theorem split_append (sep : UInt8) (s t : Bytes) :
    split sep (s ++ t) = joinLines (split sep s) (split sep t) := by
  obtain ⟨m, ms, hm⟩ := List.exists_cons_of_ne_nil (split_ne_nil sep t)
  induction s with
  | nil => simp [split, joinLines, hm]
  | cons b s ih =>
    obtain ⟨l, ls, hl⟩ := List.exists_cons_of_ne_nil (split_ne_nil sep s)
    rw [List.cons_append, split, split, ih, hl, hm]
    by_cases hb : b = sep
    · simp [hb, joinLines]
    · cases ls <;> simp [hb, joinLines]

private theorem split_of_not_mem {sep : UInt8} (h : sep ∉ s) : split sep s = [s] := by
  induction s with
  | nil => rfl
  | cons b s ih =>
    simp only [List.mem_cons, not_or] at h
    simp [split, ih h.2, Ne.symm h.1]

private theorem flatten_joinLines (ls ms : List (List α)) :
    (joinLines ls ms).flatten = ls.flatten ++ ms.flatten := by
  fun_induction joinLines ls ms with simp_all

private theorem Numeral.lines_eq (h : s.Numeral) : lines s = [s] :=
  split_of_not_mem fun hmem => absurd (h.digits 10 hmem) (by decide)

/-! ## Doubled bytes -/

private theorem contains_pair_eq_false_iff :
    Bytes.contains s [c, c] = false ↔ s.IsChain fun x y => ¬(x = c ∧ y = c) := by
  induction s with
  | nil => simp [Bytes.contains]
  | cons b s ih =>
    rw [Bytes.contains, Bool.or_eq_false_iff, ih]
    cases s with
    | nil =>
      by_cases hb : c = b <;> simp [startsWith, dropLeading?, hb]
    | cons b' s =>
      have hstarts : startsWith (b :: b' :: s) [c, c] = false ↔ ¬(b = c ∧ b' = c) := by
        simp only [startsWith, dropLeading?]
        grind
      rw [List.isChain_cons_cons, hstarts]

end Bytes

namespace Template

open Bytes

/-- Parameters are written as numerals wherever parts refer to them. -/
def Numerals (written : Bytes → Bytes) (parts : List Part) : Prop :=
  ∀ name, .param name ∈ parts → (written name).Numeral

def Part.isText : Part → Bool
  | text _ => true
  | param _ => false

def Part.ascii : Part → Bool
  | text s => s.ascii
  | param _ => true

def Part.lines : Part → List (List Part)
  | text s => (Bytes.lines s).map fun l => [.text l]
  | param name => [[.param name]]

/-- The lines of parts; no line ends inside a reference. -/
def lines : List Part → List (List Part)
  | [] => [[]]
  | p :: parts => joinLines p.lines (lines parts)

/-- Whether the numerals in a line leave alone how it is read: it has none, or it does not start a
definition. -/
def steady (line : List Part) : Bool :=
  line.all Part.isText || line.all Part.ascii && lead? (fillIn (fun _ => "0") line) != some 64

variable {f g : Bytes → Bytes} {p : Part} {parts line : List Part}

private theorem numerals_cons :
    Numerals f (p :: parts) ↔ Numerals f [p] ∧ Numerals f parts := by
  simp only [Numerals, List.mem_cons, List.not_mem_nil, or_false]
  exact ⟨fun h => ⟨fun name hp => h name (.inl hp), fun name hp => h name (.inr hp)⟩,
    fun h name hp => hp.elim (h.1 name) (h.2 name)⟩

private theorem numerals_param {name : Bytes} : Numerals f [.param name] ↔ (f name).Numeral := by
  simp [Numerals]

theorem numerals_zero (parts : List Part) : Numerals (fun _ => "0") parts := by
  have hzero : Numeral "0" := ⟨by decide +kernel, by decide +kernel⟩
  exact fun _ _ => hzero

private theorem map_fillIn_joinLines (ls ms : List (List Part)) :
    (joinLines ls ms).map (fillIn f) = joinLines (ls.map (fillIn f)) (ms.map (fillIn f)) := by
  fun_induction joinLines ls ms with simp_all [joinLines]

private theorem lines_fillIn (h : Numerals f parts) :
    Bytes.lines (fillIn f parts) = (lines parts).map (fillIn f) := by
  induction parts with
  | nil => rfl
  | cons p parts ih =>
    obtain ⟨hp, hparts⟩ := numerals_cons.1 h
    have hfirst : Bytes.lines (p.filled f) = p.lines.map (fillIn f) := by
      cases p with
      | text s => simp [Part.lines, Part.filled, Function.comp_def]
      | param name => simpa [Part.lines, Part.filled] using (numerals_param.1 hp).lines_eq
    rw [fillIn_cons, lines, map_fillIn_joinLines, ← ih hparts, ← hfirst]
    exact split_append _ _ _

private theorem param_mem_of_mem_lines {name : Bytes} (hline : line ∈ lines parts)
    (hname : .param name ∈ line) : .param name ∈ parts := by
  have hmem : .param name ∈ (lines parts).flatten := List.mem_flatten.2 ⟨line, hline, hname⟩
  clear hline hname
  induction parts with
  | nil => simp [lines] at hmem
  | cons p parts ih =>
    rw [lines, flatten_joinLines, List.mem_append] at hmem
    rcases hmem with hmem | hmem
    · cases p with
      | text s => simp [Part.lines] at hmem
      | param name' =>
        have hname : name = name' := by simpa [Part.lines] using hmem
        simp [hname]
    · exact List.mem_cons_of_mem _ (ih hmem)

private theorem Numerals.of_mem_lines (h : Numerals f parts) (hline : line ∈ lines parts) :
    Numerals f line :=
  fun name hname => h name (param_mem_of_mem_lines hline hname)

/-- What is found in a text and is no digit is found whatever the numerals are, as long as digits
are not passed over. -/
theorem find?_fillIn {q : UInt8 → Bool} {c : UInt8} (hq : ∀ b, isDigit b = true → q b = true)
    (hc : isDigit c = false) (hf : Numerals f parts) (hg : Numerals g parts)
    (h : (fillIn f parts).find? q = some c) : (fillIn g parts).find? q = some c := by
  induction parts with
  | nil => exact h
  | cons p parts ih =>
    rw [numerals_cons] at hf hg
    rw [fillIn_cons, List.find?_append] at h ⊢
    cases p with
    | text s =>
      simp only [Part.filled] at h ⊢
      cases hs : s.find? q with
      | some b => rwa [hs] at h
      | none =>
        rw [hs] at h
        exact ih hf.2 hg.2 h
    | param name =>
      -- The first digit of the numeral would be found before anything behind it.
      obtain ⟨b, rest, hb⟩ := List.exists_cons_of_ne_nil (numerals_param.1 hf.1).ne_nil
      have hdigit : isDigit b = true := (numerals_param.1 hf.1).digits b (by simp [hb])
      simp only [Part.filled, hb, List.find?_cons, hq b hdigit, Option.some_or,
        Option.some.injEq] at h
      rw [h, hc] at hdigit
      exact absurd hdigit Bool.false_ne_true

private theorem ascii_fillIn (hascii : parts.all Part.ascii = true) (hf : Numerals f parts) :
    (fillIn f parts).ascii = true := by
  simp only [Bytes.ascii, List.all_eq_true, decide_eq_true_eq] at hascii ⊢
  intro b hb
  obtain ⟨p, hp, hbp⟩ := List.mem_flatMap.1 hb
  cases p with
  | text s => simpa using List.all_eq_true.1 (hascii _ hp) b hbp
  | param name => exact lt_of_isDigit ((hf name hp).digits b hbp)

/-- A filled text has a doubled brace only if the same parts filled otherwise have one. -/
theorem contains_fillIn (hf : Numerals f parts) (hg : Numerals g parts)
    (h : Bytes.contains (fillIn f parts) "\x7b\x7b" = false) :
    Bytes.contains (fillIn g parts) "\x7b\x7b" = false := by
  have hpair : Bytes.ofString "\x7b\x7b" = [123, 123] := by decide
  have hfind : ∀ s : Bytes, s.find? (fun _ => true) = s.head? := fun s => by cases s <;> rfl
  rw [hpair, contains_pair_eq_false_iff] at h ⊢
  induction parts with
  | nil => exact h
  | cons p parts ih =>
    rw [numerals_cons] at hf hg
    rw [fillIn_cons, List.isChain_append] at h ⊢
    obtain ⟨hfirst, hrest, hbetween⟩ := h
    cases p with
    | text s =>
      refine ⟨hfirst, ih hf.2 hg.2 hrest, fun x hx y hy => ?_⟩
      -- A brace at the end of the text could only be doubled by a brace that stands there anyway.
      rintro ⟨rfl, rfl⟩
      have hhead := find?_fillIn (fun _ _ => rfl) (by decide) hg.2 hf.2 ((hfind _).trans hy)
      exact hbetween _ hx _ ((hfind _).symm.trans hhead) ⟨rfl, rfl⟩
    | param name =>
      have hdigits := (numerals_param.1 hg.1).digits
      have hne : ∀ x ∈ g name, x ≠ 123 := fun x hx heq =>
        absurd (hdigits x hx) (by rw [heq]; decide)
      refine ⟨?_, ih hf.2 hg.2 hrest, fun x hx y _ hxy => ?_⟩
      · refine List.Pairwise.isChain (List.pairwise_of_forall_mem_list fun x hx y _ => ?_)
        exact fun hxy => hne x hx hxy.1
      · exact hne x (List.mem_of_getLast? hx) hxy.1

end Template

namespace Simulator.Program

open Bytes Template

variable {s t : Bytes} {f g : Bytes → Bytes} {parts line : List Part}

def bracket (b : UInt8) : Bool := opens b || closes b

private theorem bracket_of_blank {b : UInt8} : blank b = true → bracket b = false :=
  forall_byte (P := fun b => blank b = true → bracket b = false) (by decide +kernel) b

private theorem bracket_of_isDigit {b : UInt8} : isDigit b = true → bracket b = false :=
  forall_byte (P := fun b => isDigit b = true → bracket b = false) (by decide +kernel) b

private theorem depthAfter_filter (depth : Nat) (s : Bytes) :
    depthAfter depth (s.filter bracket) = depthAfter depth s := by
  induction s generalizing depth with
  | nil => rfl
  | cons b s ih =>
    by_cases ho : opens b = true
    · simp [bracket, depthAfter, ho, ih]
    · by_cases hc : closes b = true
      · cases depth <;> simp [bracket, depthAfter, ho, hc, ih]
      · simp [bracket, depthAfter, ho, hc, ih]

private theorem filter_trim (hs : s.ascii = true) : (trim s).filter bracket = s.filter bracket := by
  rw [trim_of_ascii hs, List.filter_reverse, filter_dropWhile fun _ => bracket_of_blank,
    List.filter_reverse, List.reverse_reverse, filter_dropWhile fun _ => bracket_of_blank]

private theorem filter_fillIn (hf : Numerals f parts) (hg : Numerals g parts) :
    (fillIn f parts).filter bracket = (fillIn g parts).filter bracket := by
  induction parts with
  | nil => rfl
  | cons p parts ih =>
    rw [numerals_cons] at hf hg
    rw [fillIn_cons, fillIn_cons, List.filter_append, List.filter_append, ih hf.2 hg.2]
    cases p with
    | text s => rfl
    | param name =>
      have hnone : ∀ {s : Bytes}, s.Numeral → s.filter bracket = [] := fun h => by
        simpa using fun b hb => bracket_of_isDigit (h.digits b hb)
      simp [Part.filled, hnone (numerals_param.1 hf.1), hnone (numerals_param.1 hg.1)]

/-- Lines that go on with a definition and have the same brackets. -/
structure Alike (s t : Bytes) : Prop where
  starts : ∃ b rest, trim s = b :: rest ∧ b ≠ 64
  starts' : ∃ b rest, trim t = b :: rest ∧ b ≠ 64
  depth : ∀ d, depthAfter d (trim s) = depthAfter d (trim t)

private theorem define_of_ne {b : UInt8} (hb : b ≠ 64) (line depth : Nat) (defs : List Bytes)
    (rest : Bytes) : define line depth defs (b :: rest) =
      if defs.isEmpty then .error (.stray line (b :: rest)) else .ok defs := by
  unfold define
  split
  · rename_i heq
    exact absurd (List.cons.inj heq).1 hb
  · rfl

/-- What a line does: nothing if it is blank, and otherwise it may add a definition and changes the
depth. -/
theorem scan_cons_eq_ok_iff {line depth : Nat} {defs names : List Bytes} {rest : List Bytes} :
    scan line depth defs (s :: rest) = .ok names ↔
      trim s = [] ∧ scan (line + 1) depth defs rest = .ok names ∨
      trim s ≠ [] ∧ ∃ defs' depth', define line depth defs (trim s) = .ok defs' ∧
        depthAfter depth (trim s) = some depth' ∧
        scan (line + 1) depth' defs' rest = .ok names := by
  rw [scan]
  by_cases hblank : trim s = []
  · simp [hblank]
  · cases define line depth defs (trim s) with
    | error e => simp [hblank]
    | ok defs' => cases depthAfter depth (trim s) <;> simp [hblank]

/-- Texts have the same definitions if each line of one is that of the other or alike to it. -/
theorem scan_of_alike {ls ms : List Bytes} (h : List.Forall₂ (fun s t => s = t ∨ Alike s t) ls ms)
    {line depth : Nat} {defs names : List Bytes} (hscan : scan line depth defs ls = .ok names) :
    scan line depth defs ms = .ok names := by
  induction h generalizing line depth defs with
  | nil => exact hscan
  | @cons s t ls ms hline _ ih =>
    rw [scan_cons_eq_ok_iff] at hscan ⊢
    rcases hline with rfl | halike
    · rcases hscan with ⟨hblank, hrest⟩ | ⟨hblank, defs', depth', hdefine, hdepth, hrest⟩
      · exact .inl ⟨hblank, ih hrest⟩
      · exact .inr ⟨hblank, defs', depth', hdefine, hdepth, ih hrest⟩
    · -- Neither line starts a definition, so both keep the ones before, and there are some.
      obtain ⟨b, rest, hs, hb⟩ := halike.starts
      obtain ⟨b', rest', ht, hb'⟩ := halike.starts'
      have hsame := halike.depth depth
      rw [hs, ht] at hsame
      simp only [hs, reduceCtorEq, false_and, false_or, ne_eq, not_false_eq_true, true_and,
        define_of_ne hb] at hscan
      obtain ⟨defs', depth', hdefine, hdepth, hrest⟩ := hscan
      refine .inr ⟨by simp [ht], defs', depth', ?_, by rw [ht, ← hsame, hdepth], ih hrest⟩
      rw [ht, define_of_ne hb']
      split at hdefine
      · simp at hdefine
      · rwa [if_neg ‹_›]

private theorem starts_fillIn {name : Bytes} (hname : .param name ∈ line)
    (hascii : line.all Part.ascii = true) (hlead : lead? (fillIn g line) ≠ some 64)
    (hf : Numerals f line) (hg : Numerals g line) :
    ∃ b rest, trim (fillIn f line) = b :: rest ∧ b ≠ 64 := by
  have hsome : (lead? (fillIn f line)).isSome = true := by
    obtain ⟨b, rest, hb⟩ := List.exists_cons_of_ne_nil (hf name hname).ne_nil
    have hmem : b ∈ f name := by simp [hb]
    refine List.find?_isSome.2 ⟨b, List.mem_flatMap.2 ⟨_, hname, hmem⟩, ?_⟩
    simp [blank_of_isDigit ((hf name hname).digits b hmem)]
  obtain ⟨b, hb⟩ := Option.isSome_iff_exists.1 hsome
  obtain ⟨rest, hrest⟩ := trim_eq_cons (ascii_fillIn hascii hf) hb
  refine ⟨b, rest, hrest, ?_⟩
  rintro rfl
  refine hlead (find?_fillIn (fun c hc => ?_) (by decide) hf hg hb)
  simp [blank_of_isDigit hc]

private theorem alike_of_steady (hsteady : steady line = true) (hf : Numerals f line)
    (hg : Numerals g line) :
    fillIn f line = fillIn g line ∨ Alike (fillIn f line) (fillIn g line) := by
  by_cases htext : line.all Part.isText = true
  · left
    refine List.flatMap_congr fun p hp => ?_
    cases p with
    | text s => rfl
    | param name => exact absurd (List.all_eq_true.1 htext _ hp) (by simp [Part.isText])
  · right
    obtain ⟨p, hp, hparam⟩ : ∃ p ∈ line, ¬p.isText = true := by
      simpa only [List.all_eq_true, not_forall, exists_prop] using htext
    cases p with
    | text s => exact absurd rfl hparam
    | param name =>
      simp only [steady, htext, Bool.false_or, Bool.and_eq_true, bne_iff_ne] at hsteady
      obtain ⟨hascii, hlead⟩ := hsteady
      refine ⟨starts_fillIn hp hascii hlead hf (numerals_zero line),
        starts_fillIn hp hascii hlead hg (numerals_zero line), fun d => ?_⟩
      rw [← depthAfter_filter, ← depthAfter_filter d (trim (fillIn g line)),
        filter_trim (ascii_fillIn hascii hf), filter_trim (ascii_fillIn hascii hg),
        filter_fillIn hf hg]

theorem parse_eq_ok_iff {source : Bytes} {names : List Bytes} :
    parse source = .ok ⟨source, names⟩ ↔ scan 1 0 [] (Bytes.lines source) = .ok names := by
  rw [parse]
  cases scan 1 0 [] (Bytes.lines source) <;> simp [Except.map]

theorem source_of_parse {source : Bytes} {program : Program} (h : parse source = .ok program) :
    program.source = source := by
  rw [parse] at h
  cases hscan : scan 1 0 [] (Bytes.lines source) with
  | error e => simp [hscan, Except.map] at h
  | ok names =>
    rw [hscan] at h
    rw [← Except.ok.inj h]

/-- Filling in other numerals keeps the definitions of a program, if every line is steady. -/
theorem parse_fillIn {names : List Bytes} (hsteady : (lines parts).all steady = true)
    (hf : Numerals f parts) (hg : Numerals g parts)
    (h : parse (fillIn f parts) = .ok ⟨fillIn f parts, names⟩) :
    parse (fillIn g parts) = .ok ⟨fillIn g parts, names⟩ := by
  rw [parse_eq_ok_iff, lines_fillIn hf] at h
  rw [parse_eq_ok_iff, lines_fillIn hg]
  refine scan_of_alike ?_ h
  rw [List.forall₂_map_left_iff, List.forall₂_map_right_iff, List.forall₂_same]
  intro line hline
  exact alike_of_steady (List.all_eq_true.1 hsteady line hline) (hf.of_mem_lines hline)
    (hg.of_mem_lines hline)

end Simulator.Program

end EngineHost
