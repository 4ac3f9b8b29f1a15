import EngineHost.Proofs.RunnableSamples
import EngineHost.Proofs.TemplateSubstitution
import Mathlib.Data.List.Nodup

/-!
# The parameters of samples

A sample takes its own parameters as integers in their ranges. The check is made on 64-bit words,
where great unsigned integers come out negative; since no range reaches below zero, it comes to the
same as a check of the integers themselves.
-/

namespace EngineHost

def Value.wholeNumber? : Value → Option Int
  | .int n => some n.toInt
  | .int64 n => some n.toInt
  | .uint64 n => some n.toNat
  | _ => none

namespace Dict

variable {α : Type u} {d d' : Dict α}

private theorem get?_eq_some_iff_mem (h : (keys d).Nodup) {key : Bytes} {v : α} :
    get? d key = some v ↔ (key, v) ∈ d := by
  refine ⟨mem_of_get?, fun hmem => ?_⟩
  induction d with
  | nil => simp at hmem
  | cons e d ih =>
    obtain ⟨hfirst, hrest⟩ := List.nodup_cons.1 h
    rw [get?_cons]
    rcases List.mem_cons.1 hmem with rfl | htail
    · simp
    · have hne : e.1 ≠ key := by
        rintro rfl
        exact hfirst (List.mem_map.2 ⟨_, htail, rfl⟩)
      rw [if_neg hne, ih hrest htail]

private theorem get?_of_perm (h : (keys d).Nodup) (hperm : d.Perm d') (key : Bytes) :
    get? d' key = get? d key := by
  have h' : (keys d').Nodup := (hperm.map Prod.fst).nodup h
  apply Option.ext
  intro v
  rw [get?_eq_some_iff_mem h, get?_eq_some_iff_mem h']
  exact hperm.symm.mem_iff

end Dict

namespace Params

private theorem toInt64_eq_iff {m : UInt64} {n : Int64} (hn : 0 ≤ n.toInt) :
    m.toInt64 = n ↔ (m.toNat : Int) = n.toInt := by
  have hwrap : m.toInt64.toInt =
      if 2 * m.toNat < 2 ^ 64 then (m.toNat : Int) else m.toNat - 2 ^ 64 :=
    BitVec.toInt_eq_toNat_cond m.toBitVec
  have hm := m.toNat_lt
  have hgreatest := n.toInt_lt
  rw [← Int64.toInt_inj, hwrap]
  split <;> omega

private theorem integerOf?_eq_some_iff {v : Value} {n : Int64} (hfloat : ∀ x, v ≠ .float x)
    (hn : 0 ≤ n.toInt) : integerOf? v = some n ↔ v.wholeNumber? = some n.toInt := by
  cases v with
  | int m => simp [integerOf?, Value.wholeNumber?, Int64.toInt_inj]
  | int64 m => simp [integerOf?, Value.wholeNumber?, Int64.toInt_inj]
  | uint64 m => simp [integerOf?, Value.wholeNumber?, toInt64_eq_iff hn]
  | float x => exact absurd rfl (hfloat x)
  | _ => simp [integerOf?, Value.wholeNumber?]

end Params

namespace Template

open Utf8 (encode)

/-- Whether a name is a letter or an underscore with letters, digits and underscores behind it, all
of them ASCII. -/
def asciiIdentifier : Bytes → Bool
  | [] => false
  | b :: s => letter b && s.all fun b => letter b || Bytes.isDigit b
where
  /-- A letter or an underscore. -/
  letter (b : UInt8) : Bool := (65 ≤ b && b ≤ 90) || (97 ≤ b && b ≤ 122) || b == 95

/-- Whether text alternates with references and can be told from them. -/
def alternates : List Part → Bool
  | [.text s] => !Bytes.contains s opening
  | .text s :: .param name :: parts =>
    !Bytes.contains s opening && s.getLast? != some 0x7b && asciiIdentifier name && alternates parts
  | _ => false

private theorem identifier_of_ascii {name : Bytes} (h : asciiIdentifier name = true) :
    Identifier name := by
  have hbyte (b : UInt8) : (asciiIdentifier.letter b || Bytes.isDigit b) = true →
      encode (Char.ofNat b.toNat) = [b] ∧ isNameChar (Char.ofNat b.toNat) = true ∧
        (asciiIdentifier.letter b = true →
          isLetter (Char.ofNat b.toNat) = true ∨ Char.ofNat b.toNat = '_') :=
    Bytes.forall_byte (P := fun b => (asciiIdentifier.letter b || Bytes.isDigit b) = true →
      encode (Char.ofNat b.toNat) = [b] ∧ isNameChar (Char.ofNat b.toNat) = true ∧
        (asciiIdentifier.letter b = true →
          isLetter (Char.ofNat b.toNat) = true ∨ Char.ofNat b.toNat = '_')) (by decide +kernel) b
  cases name with
  | nil => simp [asciiIdentifier] at h
  | cons b s =>
    simp only [asciiIdentifier, Bool.and_eq_true, List.all_eq_true] at h
    obtain ⟨hfirst, hrest⟩ := h
    obtain ⟨hencode, -, hletter⟩ := hbyte b (by simp [hfirst])
    have hchars : (s.map fun b => Char.ofNat b.toNat).flatMap encode = s := by
      rw [List.flatMap_map]
      refine (List.flatMap_congr fun b hb => (hbyte b (hrest b hb)).1).trans ?_
      exact List.flatMap_singleton' s
    refine ⟨Char.ofNat b.toNat, s.map fun b => Char.ofNat b.toNat, ?_, hletter hfirst, ?_⟩
    · rw [List.flatMap_cons, hencode, hchars]
      rfl
    · intro c hc
      obtain ⟨b', hb', rfl⟩ := List.mem_map.1 hc
      exact (hbyte b' (hrest b' hb')).2.1

private theorem not_infix_of_contains {s part : Bytes} (h : Bytes.contains s part = false) :
    ¬part <:+: s := by
  induction s with
  | nil =>
    rintro hinfix
    obtain rfl := List.eq_nil_of_infix_nil hinfix
    simp [Bytes.contains] at h
  | cons b s ih =>
    rw [Bytes.contains, Bool.or_eq_false_iff] at h
    rw [List.infix_cons_iff]
    rintro (⟨after, hafter⟩ | hlater)
    · have hleads : Bytes.dropLeading? part (b :: s) = some after :=
        Bytes.dropLeading?_eq_some_iff.2 hafter.symm
      simp [Bytes.startsWith, hleads] at h
    · exact ih h.2 hlater

private theorem alternation_of_alternates {parts : List Part} (h : alternates parts = true) :
    Alternation parts := by
  fun_induction alternates parts with
  | case1 s => exact .last (not_infix_of_contains (by simpa using h))
  | case2 s name parts ih =>
    simp only [Bool.and_eq_true, Bool.not_eq_true', bne_iff_ne] at h
    obtain ⟨⟨⟨hs, hend⟩, hname⟩, hparts⟩ := h
    exact .next (not_infix_of_contains hs) hend (identifier_of_ascii hname) (ih hparts)
  | case3 => simp at h

end Template

namespace Sample

open Template

variable {s : Sample} {params params' resolved : Params} {parts : List Part}

/-- A parameter that a sample takes: one of its own, with an integer in the range. -/
def Takes (s : Sample) (e : Bytes × Value) : Prop :=
  ∃ p ∈ s.params, p.name = e.1 ∧
    ∃ n, e.2.wholeNumber? = some n ∧ p.least.toInt ≤ n ∧ n ≤ p.greatest.toInt

/-- What stands for a reference: the given integer, or else the default, in decimal. -/
def numeral (s : Sample) (params : Params) (name : Bytes) : Bytes :=
  match Dict.get? params name with
  | some v => (v.wholeNumber?.map Bytes.ofInt).getD []
  | none =>
    ((s.params.find? fun p => p.name == name).map fun p => Bytes.ofInt p.default.toInt).getD []

/-- Whether parts spell the template of a sample and refer to nothing but its parameters. -/
def spelledBy (s : Sample) (parts : List Part) : Bool :=
  parts.all (wellMade.refers s) && alternates parts && fillIn reference parts == s.source

private theorem spelledBy_of_mem_all :
    ∀ s ∈ all, s.parts?.any s.spelledBy = true := by decide +kernel

private theorem parameter_unique (hs : s ∈ all) {p q : Parameter} (hp : p ∈ s.params)
    (hq : q ∈ s.params) (hname : p.name = q.name) : p = q := by
  have hnodup : ∀ s ∈ all, (s.params.map (·.name)).Nodup := by decide +kernel
  exact List.inj_on_of_nodup_map (hnodup s hs) hp hq hname

private theorem admits_iff (hs : s ∈ all) (hkeys : (Dict.keys params).Nodup)
    (hfloat : ∀ e ∈ params, ∀ x, e.2 ≠ .float x) : s.Admits params ↔ ∀ e ∈ params, s.Takes e := by
  have hranges := ranges_of_mem_all s hs
  constructor
  · intro h e he
    obtain ⟨p, hp, hname⟩ : ∃ p ∈ s.params, p.name = e.1 := by
      simpa [hasParameter] using h.known e.1 (List.mem_map_of_mem he)
    have hget : Dict.get? params p.name = some e.2 := by
      rw [hname]
      exact (Dict.get?_eq_some_iff_mem hkeys).2 he
    obtain ⟨n, hn, hleast, hgreatest⟩ := h.inRange p hp e.2 hget
    rw [Int64.le_iff_toInt_le] at hleast hgreatest
    have hnonneg : 0 ≤ n.toInt := Int.le_trans (Int64.le_iff_toInt_le.1 (hranges p hp).1) hleast
    exact ⟨p, hp, hname, n.toInt, (Params.integerOf?_eq_some_iff (hfloat e he) hnonneg).1 hn,
      hleast, hgreatest⟩
  · intro h
    refine ⟨fun k hk => ?_, fun p hp v hv => ?_⟩
    · obtain ⟨e, he, rfl⟩ := List.mem_map.1 hk
      obtain ⟨p, hp, hname, -⟩ := h e he
      exact List.any_eq_true.2 ⟨p, hp, by simp [hname]⟩
    · have he := Dict.mem_of_get? hv
      obtain ⟨p', hp', hname, n, hn, hleast, hgreatest⟩ := h _ he
      obtain rfl := parameter_unique hs hp' hp hname
      have hword : (Int64.ofInt n).toInt = n := by
        apply Int64.toInt_ofInt_of_le
        · exact Int.le_trans p'.least.le_toInt hleast
        · exact Int.lt_of_le_of_lt hgreatest p'.greatest.toInt_lt
      have hnonneg : 0 ≤ (Int64.ofInt n).toInt := by
        rw [hword]
        exact Int.le_trans (Int64.le_iff_toInt_le.1 (hranges p' hp).1) hleast
      refine ⟨Int64.ofInt n, ?_, ?_, ?_⟩
      · exact (Params.integerOf?_eq_some_iff (hfloat _ he) hnonneg).2 (by rw [hword]; exact hn)
      · exact Int64.le_iff_toInt_le.2 (by rwa [hword])
      · exact Int64.le_iff_toInt_le.2 (by rwa [hword])

/-- What a parameter is resolved to is written as the integer that was given, or as the default. -/
theorem written_eq_numeral (hs : s ∈ all) (hfloat : ∀ e ∈ params, ∀ x, e.2 ≠ .float x)
    (hresolve : s.resolve params = .ok resolved) {name : Bytes}
    (hname : s.hasParameter name = true) :
    written resolved name = s.numeral params name := by
  obtain ⟨p, hp, rfl, n, hn, hget⟩ := exists_resolved hresolve hname
  obtain ⟨hsetting, hleast, -⟩ := value_eq_ok_iff.1 hn
  have hnonneg : 0 ≤ n.toInt :=
    Int64.le_iff_toInt_le.1 (Int64.le_trans (ranges_of_mem_all s hs p hp).1 hleast)
  have hwritten : written resolved p.name = Bytes.ofInt n.toInt := by
    rw [written, hget, Option.map_some, Option.getD_some, display_int]
  rw [hwritten, numeral]
  unfold setting? at hsetting
  cases hgiven : Dict.get? params p.name with
  | some v =>
    rw [hgiven] at hsetting
    have hexact := (Params.integerOf?_eq_some_iff (hfloat _ (Dict.mem_of_get? hgiven)) hnonneg).1
      hsetting
    simp [hexact]
  | none =>
    rw [hgiven] at hsetting
    obtain rfl := Option.some.inj hsetting
    have hfind : s.params.find? (fun q => q.name == p.name) = some p := by
      cases hfind : s.params.find? (fun q => q.name == p.name) with
      | none => simpa using List.find?_eq_none.1 hfind p hp
      | some q =>
        have hname : q.name = p.name := by simpa using List.find?_some hfind
        rw [parameter_unique hs (List.mem_of_find?_eq_some hfind) hp hname]
    simp [hfind]

/-- A sample is filled with the parameters that it takes, one numeral for each reference. -/
theorem render_eq_ok_iff (hs : s ∈ all) (hparts : s.parts? = some parts)
    (hspelled : s.spelledBy parts = true) (hkeys : (Dict.keys params).Nodup)
    (hfloat : ∀ e ∈ params, ∀ x, e.2 ≠ .float x) {text : Bytes} :
    render s.name params = .ok text ↔
      (∀ e ∈ params, s.Takes e) ∧ text = fillIn (s.numeral params) parts := by
  simp only [spelledBy, Bool.and_eq_true] at hspelled
  have hrefers : ∀ name, .param name ∈ parts → s.hasParameter name = true :=
    fun name h => List.all_eq_true.1 hspelled.1.1 _ h
  rw [render_eq hs, instantiate_eq_ok_iff hparts hrefers, ← admits_iff hs hkeys hfloat,
    ← exists_resolve_iff fun p hp => (ranges_of_mem_all s hs p hp).2]
  have hfilled (resolved : Params) (hresolve : s.resolve params = .ok resolved) :
      fillIn (written resolved) parts = fillIn (s.numeral params) parts :=
    fillIn_congr fun name hname => written_eq_numeral hs hfloat hresolve (hrefers name hname)
  constructor
  · rintro ⟨resolved, hresolve, rfl⟩
    exact ⟨⟨resolved, hresolve⟩, hfilled resolved hresolve⟩
  · rintro ⟨⟨resolved, hresolve⟩, rfl⟩
    exact ⟨resolved, hresolve, (hfilled resolved hresolve).symm⟩

private theorem numeral_of_perm (hkeys : (Dict.keys params).Nodup) (hperm : params.Perm params') :
    s.numeral params' = s.numeral params := by
  funext name
  rw [numeral, numeral, Dict.get?_of_perm hkeys hperm]

/-- A sample checks its parameters by the integers that they are, and puts these integers in the
place of its references, in whatever order the parameters are listed. -/
theorem render_takes_integers (hs : s ∈ all) :
    ∃ parts, Alternation parts ∧ fillIn reference parts = s.source ∧
      ∀ params : Params, (Dict.keys params).Nodup → (∀ e ∈ params, ∀ x, e.2 ≠ .float x) →
        ((∃ text, render s.name params = .ok text) ↔ ∀ e ∈ params, s.Takes e) ∧
        (∀ text, render s.name params = .ok text → text = fillIn (s.numeral params) parts) ∧
        (∀ params', params.Perm params' →
          (render s.name params').toOption = (render s.name params).toOption) ∧
        ∀ name n, (name, Value.uint64 n) ∈ params → 2 ^ 63 ≤ n.toNat →
          ∃ fault, render s.name params = .error fault := by
  obtain ⟨parts, hparts, hspelled⟩ := (Option.any_eq_true _ _).1 (spelledBy_of_mem_all s hs)
  have hchecked := hspelled
  simp only [spelledBy, Bool.and_eq_true, beq_iff_eq] at hchecked
  refine ⟨parts, alternation_of_alternates hchecked.1.2, hchecked.2, fun params hkeys hfloat => ?_⟩
  have hrender {text : Bytes} : render s.name params = .ok text ↔
      (∀ e ∈ params, s.Takes e) ∧ text = fillIn (s.numeral params) parts :=
    render_eq_ok_iff hs hparts hspelled hkeys hfloat
  refine ⟨?_, fun text htext => (hrender.1 htext).2, fun params' hperm => ?_, ?_⟩
  · simp only [hrender, exists_and_left, exists_eq, and_true]
  · have hkeys' : (Dict.keys params').Nodup := (hperm.map Prod.fst).nodup hkeys
    have hfloat' : ∀ e ∈ params', ∀ x, e.2 ≠ .float x :=
      fun e he => hfloat e (hperm.mem_iff.2 he)
    have hrender' (text : Bytes) :
        render s.name params' = .ok text ↔ render s.name params = .ok text := by
      rw [render_eq_ok_iff hs hparts hspelled hkeys' hfloat', hrender, numeral_of_perm hkeys hperm]
      simp only [hperm.mem_iff]
    have hoption (text : Bytes) (x : Except Fault Bytes) :
        x.toOption = some text ↔ x = .ok text := by
      cases x <;> simp [Except.toOption]
    apply Option.ext
    intro text
    rw [hoption, hoption]
    exact hrender' text
  · intro name n hmem hgreat
    cases htext : render s.name params with
    | error fault => exact ⟨fault, rfl⟩
    | ok text =>
      obtain ⟨p, -, -, m, hm, -, hgreatest⟩ := (hrender.1 htext).1 _ hmem
      obtain rfl : (n.toNat : Int) = m := Option.some.inj hm
      have hlimit := p.greatest.toInt_lt
      omega

/-- The stress sample at the ends of its ranges, with the parameters out of order and of two widths,
and with an unsigned integer beyond the signed range. -/
theorem render_takes_integers_stress :
    let params : Params := [("Loop", .uint64 0x40000000), ("Depth", .int64 24)]
    ∃ s ∈ all, s.name = "stress" ∧ (∀ e ∈ params, s.Takes e) ∧
      (∃ parts, Alternation parts ∧ fillIn reference parts = s.source ∧
        render "stress" params = .ok (fillIn (s.numeral params) parts)) ∧
      (render "stress" params.reverse).toOption = (render "stress" params).toOption ∧
      ∃ fault, render "stress" [("Loop", .uint64 0xffffffffffffffff)] = .error fault := by
  intro params
  obtain ⟨s, hs, hname, hranges⟩ : ∃ s ∈ all, s.name = "stress" ∧
      s.params = [⟨"Depth", 8, 0, 24⟩, ⟨"Loop", 65536, 0, 1073741824⟩] := by
    decide +kernel
  obtain ⟨parts, hparts, hsource, hrender⟩ := render_takes_integers hs
  rw [hname] at hrender
  have hfloat : ∀ e ∈ params, ∀ x, e.2 ≠ .float x := by simp [params]
  have htakes : ∀ e ∈ params, s.Takes e := by
    simp only [params, List.mem_cons, List.not_mem_nil, or_false, forall_eq_or_imp, forall_eq]
    constructor
    · exact ⟨⟨"Loop", 65536, 0, 1073741824⟩, by simp [hranges], rfl, 0x40000000, rfl, by decide,
        by decide⟩
    · exact ⟨⟨"Depth", 8, 0, 24⟩, by simp [hranges], rfl, 24, rfl, by decide, by decide⟩
  obtain ⟨hsucceeds, htext, hperm, -⟩ := hrender params (by decide) hfloat
  obtain ⟨text, hok⟩ := hsucceeds.2 htakes
  refine ⟨s, hs, hname, htakes, ⟨parts, hparts, hsource, ?_⟩, ?_, ?_⟩
  · rw [hok, htext text hok]
  · exact hperm _ (List.reverse_perm params).symm
  · exact (hrender [("Loop", .uint64 0xffffffffffffffff)] (by decide) (by simp)).2.2.2 "Loop"
      0xffffffffffffffff (by simp) (by decide)

end Sample

end EngineHost
