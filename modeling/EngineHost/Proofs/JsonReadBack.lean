import EngineHost.Json.Tree
import EngineHost.Proofs.WellFormedText
import Mathlib.Data.List.Forall2

/-!
# Reading back what was written

A text is written character by character, each in one of three spellings, and every spelling is
read back on its own, whatever follows it. So the texts, arrays and objects that are written are
read back, at any place in a larger document.
-/

namespace EngineHost.Json

open Utf8 Json.Tree

inductive Spelling (c : Char) : Bytes → Prop
  | short (b : UInt8) (hb : isShortEscape b = true) (hc : encode c = [shortEscape b]) :
    Spelling c [92, b]
  | unit (digits : Bytes) (hlength : digits.length = 4) (hhex : digits.all isHex = true)
    (hc : unit? digits = some c.toNat) : Spelling c (92 :: 117 :: digits)
  | itself (hc : ∀ b ∈ encode c, 32 ≤ b ∧ b ≠ 34 ∧ b ≠ 92) : Spelling c (encode c)

private theorem spelling_hexDigits {c : Char}
    (hc : c.toNat < 0x20 ∨ c.toNat ∈ [0x3c, 0x3e, 0x26, 0x2028,
    0x2029]) : Spelling c ("\\u" ++ Quoted.hexDigits 4 c.toNat) := by
  have hdigits : ∀ n ∈ List.range 0x20 ++ [0x3c, 0x3e, 0x26, 0x2028, 0x2029],
      (Quoted.hexDigits 4 n).length = 4 ∧ (Quoted.hexDigits 4 n).all isHex = true ∧
        unit? (Quoted.hexDigits 4 n) = some n := by
    decide +kernel
  have hmem : c.toNat ∈ List.range 0x20 ++ [0x3c, 0x3e, 0x26, 0x2028, 0x2029] := by
    rwa [List.mem_append, List.mem_range]
  obtain ⟨hlength, hhex, hunit⟩ := hdigits c.toNat hmem
  exact .unit _ hlength hhex hunit

private theorem spelling_escapeChar (c : Char) : Spelling c (escapeChar c) := by
  have hself : Char.ofNat c.toNat = c := Char.ofNat_toNat c
  simp only [escapeChar]
  split_ifs with hquote hb hf hn hr ht hunit
  · rcases hquote with rfl | rfl
    · exact .short 34 rfl rfl
    · exact .short 92 rfl rfl
  · rw [hb] at hself
    exact .short 98 rfl (hself ▸ rfl)
  · rw [hf] at hself
    exact .short 102 rfl (hself ▸ rfl)
  · rw [hn] at hself
    exact .short 110 rfl (hself ▸ rfl)
  · rw [hr] at hself
    exact .short 114 rfl (hself ▸ rfl)
  · rw [ht] at hself
    exact .short 116 rfl (hself ▸ rfl)
  · apply spelling_hexDigits
    rcases hunit with hcontrol | rfl | rfl | rfl | hline | hparagraph
    · exact .inl hcontrol
    · exact .inr (by decide)
    · exact .inr (by decide)
    · exact .inr (by decide)
    · exact .inr (by simp [hline])
    · exact .inr (by simp [hparagraph])
  · apply Spelling.itself
    intro b hmem
    have hne : c.toNat ≠ 34 ∧ c.toNat ≠ 92 := by
      constructor <;> intro h <;> rw [h] at hself <;> simp [← hself] at hquote
    have hbyte := mem_encode hmem
    simp only [UInt8.le_iff_toNat_le, ne_eq, ← UInt8.toNat_inj, UInt8.reduceToNat]
    omega

/-! ## Texts -/

/-- What stands between the quotes of a written text. -/
def spelled (s : Bytes) : Bytes := (chars s).flatMap escapeChar

/-- A result of the scanner with bytes in front of the literal. -/
def after (u : Bytes) (r : Option (Bytes × Bytes)) : Option (Bytes × Bytes) :=
  r.map fun (l, rest) => (u ++ l, rest)

private theorem literal?_plain {u : Bytes} (hu : ∀ b ∈ u, 32 ≤ b ∧ b ≠ 34 ∧ b ≠ 92) (t : Bytes) :
    literal? .plain (u ++ t) = after u (literal? .plain t) := by
  induction u with
  | nil => simp [after]
  | cons b u ih =>
    rw [List.forall_mem_cons] at hu
    obtain ⟨⟨hlow, hquote, hslash⟩, hu⟩ := hu
    rw [List.cons_append, literal?]
    simp only [beq_iff_eq, hquote, hslash, UInt8.not_lt.2 hlow, if_false, ih hu, after,
      Option.map_map]
    rfl

private theorem literal?_hex {digits : Bytes} (hlength : digits.length = 4)
    (hhex : digits.all isHex = true) (t : Bytes) :
    literal? (.hex 4) (digits ++ t) = after digits (literal? .plain t) := by
  match digits, hlength with
  | [w, x, y, z], _ =>
    simp only [List.all_cons, List.all_nil, Bool.and_true, Bool.and_eq_true] at hhex
    obtain ⟨hw, hx, hy, hz⟩ := hhex
    simp [literal?, hw, hx, hy, hz, after, Option.map_map, Function.comp_def]

theorem Spelling.literal? {c : Char} {u : Bytes} (h : Spelling c u) (t : Bytes) :
    Tree.literal? .plain (u ++ t) = after u (Tree.literal? .plain t) := by
  cases h with
  | short b hb hc =>
    simp [Tree.literal?, hb, after, Option.map_map, Function.comp_def]
  | unit digits hlength hhex hc =>
    have hu : isShortEscape 117 = false := rfl
    simp [Tree.literal?, hu, literal?_hex hlength hhex, after, Option.map_map, Function.comp_def]
  | itself hc => exact literal?_plain hc t

private theorem literal?_spelled (s rest : Bytes) :
    literal? .plain (spelled s ++ 34 :: rest) = some (spelled s, rest) := by
  have hchars : ∀ cs : List Char,
      literal? .plain (cs.flatMap escapeChar ++ 34 :: rest) =
        some (cs.flatMap escapeChar, rest) := by
    intro cs
    induction cs with
    | nil => rfl
    | cons c cs ih =>
      rw [List.flatMap_cons, List.append_assoc, (spelling_escapeChar c).literal?, ih]
      rfl
  exact hchars (chars s)

private theorem unescapeAfter_append (u t : Bytes) :
    unescapeAfter u.length (u ++ t) = unescapeAfter 0 t := by
  induction u with
  | nil => rfl
  | cons b u ih => exact ih

theorem Spelling.unescape {c : Char} {u : Bytes} (h : Spelling c u) (t : Bytes) :
    Tree.unescape (u ++ t) = encode c ++ Tree.unescape t := by
  cases h with
  | short b hb hc =>
    have hne : b ≠ 117 := by
      rintro rfl
      exact absurd hb (by decide)
    simp [hc, Tree.unescape, unescapeAfter]
  | unit digits hlength hhex hc =>
    have hvalid : c.toNat < 0xd800 ∨ 0xdfff < c.toNat ∧ c.toNat < 0x110000 := c.valid
    match digits, hlength with
    | [w, x, y, z], _ =>
      have hunit : unit? (w :: x :: y :: z :: t) = some c.toNat := hc
      have hhigh : ¬(0xd800 ≤ c.toNat ∧ c.toNat < 0xdc00) := by omega
      have hlow : ¬(0xdc00 ≤ c.toNat ∧ c.toNat < 0xe000) := by omega
      simp [Tree.unescape, unescapeAfter, hunit, hhigh, hlow]
  | itself hc =>
    have hfront := front?_encode c t
    cases hbytes : encode c with
    | nil => exact absurd hbytes String.utf8EncodeChar_ne_nil
    | cons b v =>
      rw [hbytes, List.cons_append] at hfront
      have hslash : b ≠ 92 := (hc b (by simp [hbytes])).2.2
      rw [List.cons_append, Tree.unescape, unescapeAfter, hfront]
      · simp [unescapeAfter_append, Tree.unescape]
      · exact fun h => absurd h hslash

/-- A written text denotes the text that was written, up to its stray bytes. -/
theorem unescape_spelled (s : Bytes) : unescape (spelled s) = scrub s := by
  have hchars : ∀ cs : List Char, unescape (cs.flatMap escapeChar) = cs.flatMap encode := by
    intro cs
    induction cs with
    | nil => rfl
    | cons c cs ih =>
      rw [List.flatMap_cons, (spelling_escapeChar c).unescape, ih, List.flatMap_cons]
  exact hchars (chars s)

/-! ## Documents -/

/-- A written value starts with a mark of its own, and from there on it is read back as the tree,
whatever follows. -/
structure Reads (depth : Nat) (text : Bytes) (t : Tree) : Prop where
  head : ∃ b u, text = b :: u ∧ isSpace b = false ∧ b ≠ 93
  value : ∀ fuel rest, text.length ≤ fuel → value? fuel depth (text ++ rest) = some (t, rest)

private theorem skip_cons {b : UInt8} (hb : isSpace b = false) (s : Bytes) :
    skip (b :: s) = b :: s := by
  simp [skip, hb]

theorem quote_eq (s : Bytes) : quote s = 34 :: (spelled s ++ [34]) := by
  have hmark : Bytes.ofString "\"" = [34] := by decide
  rw [quote, hmark, spelled]
  rfl

theorem reads_string (depth : Nat) (s : Bytes) :
    Reads depth (render (.string s)) (.string (spelled s)) := by
  rw [render, quote_eq]
  constructor
  · exact ⟨34, spelled s ++ [34], rfl, rfl, by decide⟩
  · intro fuel rest hfuel
    cases fuel with
    | zero => simp at hfuel
    | succ fuel =>
      rw [List.cons_append, value?, skip_cons rfl, List.append_assoc]
      simp only [List.cons_append, List.nil_append, literal?_spelled, Option.map_some]

theorem join_cons_cons (sep s s' : Bytes) (texts : List Bytes) :
    Bytes.join sep (s :: s' :: texts) = s ++ sep ++ Bytes.join sep (s' :: texts) := rfl

private theorem items?_join {depth : Nat} {texts : List Bytes} {trees : List Tree}
    (h : List.Forall₂ (Reads depth) texts trees) (hsome : texts ≠ []) (fuel : Nat) (rest : Bytes)
    (hfuel : (Bytes.join [44] texts).length < fuel) :
    items? fuel depth (Bytes.join [44] texts ++ 93 :: rest) = some (trees, rest) := by
  induction h generalizing fuel with
  | nil => exact absurd rfl hsome
  | @cons text t texts trees hread hreads ih =>
    obtain ⟨fuel, rfl⟩ : ∃ n, fuel = n + 1 := ⟨fuel - 1, by omega⟩
    cases hreads with
    | nil =>
      rw [Bytes.join] at hfuel ⊢
      rw [items?, hread.value fuel _ (by omega)]
      simp only [Option.bind_some, skip_cons (b := 93) rfl]
    | cons hread' hreads' =>
      rw [join_cons_cons] at hfuel ⊢
      simp only [List.length_append, List.length_cons, List.length_nil] at hfuel
      have hmore := ih (List.cons_ne_nil _ _) fuel (by omega)
      rw [items?, List.append_assoc, List.append_assoc, hread.value fuel _ (by omega)]
      simp only [Option.bind_some, List.cons_append, List.nil_append, skip_cons (b := 44) rfl,
        hmore, Option.map_some]

/-- A member of an object is a key, a colon and a value that is read back. -/
def ReadsMember (depth : Nat) (text : Bytes) (m : Bytes × Tree) : Prop :=
  ∃ key value t, text = quote key ++ 58 :: value ∧ m = (spelled key, t) ∧ Reads depth value t

private theorem members?_join {depth : Nat} {texts : List Bytes} {members : List (Bytes × Tree)}
    (h : List.Forall₂ (ReadsMember depth) texts members) (hsome : texts ≠ []) (fuel : Nat)
    (rest : Bytes) (hfuel : (Bytes.join [44] texts).length < fuel) :
    members? fuel depth (Bytes.join [44] texts ++ 125 :: rest) = some (members, rest) := by
  induction h generalizing fuel with
  | nil => exact absurd rfl hsome
  | @cons text m texts members hread hreads ih =>
    obtain ⟨fuel, rfl⟩ : ∃ n, fuel = n + 1 := ⟨fuel - 1, by omega⟩
    obtain ⟨key, value, t, rfl, rfl, hvalue⟩ := hread
    rw [quote_eq] at hfuel ⊢
    cases hreads with
    | nil =>
      rw [Bytes.join] at hfuel ⊢
      simp only [List.length_append, List.length_cons, List.length_nil] at hfuel
      rw [members?]
      simp only [List.cons_append, List.append_assoc, List.nil_append, skip_cons (b := 34) rfl,
        literal?_spelled, Option.bind_some, skip_cons (b := 58) rfl,
        hvalue.value fuel _ (by omega), skip_cons (b := 125) rfl]
    | cons hread' hreads' =>
      rw [join_cons_cons] at hfuel ⊢
      simp only [List.length_append, List.length_cons, List.length_nil] at hfuel
      have hmore := ih (List.cons_ne_nil _ _) fuel (by omega)
      rw [members?]
      simp only [List.cons_append, List.append_assoc, List.nil_append, skip_cons (b := 34) rfl,
        literal?_spelled, Option.bind_some, skip_cons (b := 58) rfl,
        hvalue.value fuel _ (by omega), skip_cons (b := 44) rfl, hmore, Option.map_some]

theorem join_cons (sep s : Bytes) (texts : List Bytes) :
    ∃ more, Bytes.join sep (s :: texts) = s ++ more := by
  cases texts with
  | nil => exact ⟨[], (List.append_nil s).symm⟩
  | cons s' texts => exact ⟨_, List.append_assoc _ _ _⟩

private theorem reads_brackets {depth : Nat} (hdepth : depth < maxDepth) {texts : List Bytes}
    {trees : List Tree} (h : List.Forall₂ (Reads (depth + 1)) texts trees) :
    Reads depth (91 :: (Bytes.join [44] texts ++ [93])) (.array trees) := by
  constructor
  · exact ⟨91, _, rfl, rfl, by decide⟩
  · intro fuel rest hfuel
    simp only [List.length_cons, List.length_append, List.length_nil] at hfuel
    obtain ⟨fuel, rfl⟩ : ∃ n, fuel = n + 1 := ⟨fuel - 1, by omega⟩
    rw [List.cons_append, value?, skip_cons rfl, List.append_assoc]
    simp only [if_neg (Nat.not_le.2 hdepth), List.cons_append, List.nil_append]
    cases h with
    | nil => simp only [Bytes.join, List.nil_append, skip_cons (b := 93) rfl]
    | @cons text t texts trees hread hreads =>
      have hitems := items?_join (hreads.cons hread) (List.cons_ne_nil _ _) fuel rest (by omega)
      -- the first item starts with a byte of its own, so the array is not taken for an empty one
      obtain ⟨more, hjoin⟩ := join_cons [44] text texts
      obtain ⟨b, u, rfl, hspace, hclose⟩ := hread.head
      rw [hjoin] at hitems ⊢
      simp only [List.cons_append, skip_cons hspace] at hitems ⊢
      split
      · rename_i heq
        exact absurd (List.cons.inj heq).1 hclose
      · rw [hitems]
        rfl

private theorem reads_braces {depth : Nat} (hdepth : depth < maxDepth) {texts : List Bytes}
    {members : List (Bytes × Tree)} (h : List.Forall₂ (ReadsMember (depth + 1)) texts members) :
    Reads depth (123 :: (Bytes.join [44] texts ++ [125])) (.object members) := by
  constructor
  · exact ⟨123, _, rfl, rfl, by decide⟩
  · intro fuel rest hfuel
    simp only [List.length_cons, List.length_append, List.length_nil] at hfuel
    obtain ⟨fuel, rfl⟩ : ∃ n, fuel = n + 1 := ⟨fuel - 1, by omega⟩
    rw [List.cons_append, value?, skip_cons rfl, List.append_assoc]
    simp only [if_neg (Nat.not_le.2 hdepth), List.cons_append, List.nil_append]
    cases h with
    | nil => simp only [Bytes.join, List.nil_append, skip_cons (b := 125) rfl]
    | @cons text m texts members hread hreads =>
      have hmembers := members?_join (hreads.cons hread) (List.cons_ne_nil _ _) fuel rest (by omega)
      obtain ⟨more, hjoin⟩ := join_cons [44] text texts
      obtain ⟨key, value, t, rfl, -, -⟩ := hread
      rw [hjoin, quote_eq] at hmembers ⊢
      simp only [List.cons_append, skip_cons (b := 34) rfl] at hmembers ⊢
      split
      · rename_i heq
        exact absurd (List.cons.inj heq).1 (by decide)
      · rw [hmembers]
        rfl

private theorem renderItems_eq_map (items : List Json) : renderItems items = items.map render := by
  induction items with
  | nil => rfl
  | cons j items ih => rw [renderItems, ih, List.map_cons]

private theorem renderMembers_eq_map (members : List (Bytes × Json)) :
    renderMembers members = members.map fun m => quote m.1 ++ 58 :: render m.2 := by
  have hcolon : Bytes.ofString ":" = [58] := by decide
  induction members with
  | nil => rfl
  | cons m members ih =>
    rw [renderMembers, ih, List.map_cons, hcolon, List.append_assoc]
    rfl

theorem reads_array {depth : Nat} (hdepth : depth < maxDepth) {items : List Json}
    {trees : List Tree} (h : List.Forall₂ (fun j t => Reads (depth + 1) (render j) t) items trees) :
    Reads depth (render (.array items)) (.array trees) := by
  have htexts : render (.array items) = 91 :: (Bytes.join [44] (items.map render) ++ [93]) := by
    have hmarks : Bytes.ofString "[" = [91] ∧ Bytes.ofString "," = [44] ∧
        Bytes.ofString "]" = [93] := by decide
    rw [render, renderItems_eq_map, hmarks.1, hmarks.2.1, hmarks.2.2]
    rfl
  rw [htexts]
  exact reads_brackets hdepth (List.forall₂_map_left_iff.2 h)

theorem render_object (members : List (Bytes × Json)) : render (.object members) =
    123 :: (Bytes.join [44] (members.map fun m => quote m.1 ++ 58 :: render m.2) ++ [125]) := by
  have hmarks : Bytes.ofString "\x7b" = [123] ∧ Bytes.ofString "," = [44] ∧
      Bytes.ofString "\x7d" = [125] := by decide
  rw [render, renderMembers_eq_map, hmarks.1, hmarks.2.1, hmarks.2.2]
  rfl

theorem reads_object {depth : Nat} (hdepth : depth < maxDepth) {members : List (Bytes × Json)}
    {trees : List (Bytes × Tree)}
    (h : List.Forall₂ (fun m t => t.1 = spelled m.1 ∧ Reads (depth + 1) (render m.2) t.2)
      members trees) :
    Reads depth (render (.object members)) (.object trees) := by
  rw [render_object]
  apply reads_braces hdepth
  rw [List.forall₂_map_left_iff]
  apply h.imp
  intro m t ht
  exact ⟨m.1, render m.2, t.2, rfl, Prod.ext ht.1 rfl, ht.2⟩

theorem Reads.parse? {text : Bytes} {t : Tree} (h : Reads 0 text t) : parse? text = some t := by
  have hvalue := h.value (2 * text.length + 2) [] (by omega)
  rw [List.append_nil] at hvalue
  rw [Tree.parse?, hvalue]
  rfl

end EngineHost.Json
