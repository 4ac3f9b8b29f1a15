import EngineHost.Proofs.FilledProgram
import EngineHost.Proofs.WellFormedText

/-!
# The tokens of a template

A template whose text alternates with references to parameters falls apart into its pieces, as long
as no text holds an opening delimiter or runs into the one behind it. Braces that stand alone are
text wherever they stand.
-/

namespace EngineHost

open Utf8 (encode)

/-- A name that starts with a letter or an underscore. -/
def Identifier (name : Bytes) : Prop :=
  ∃ c cs, name = (c :: cs).flatMap encode ∧ (isLetter c = true ∨ c = '_') ∧
    ∀ c' ∈ cs, isNameChar c' = true

namespace Bytes

variable {mark lead s after : Bytes}

theorem dropLeading?_eq_some_iff : dropLeading? lead s = some after ↔ s = lead ++ after := by
  fun_induction dropLeading? lead s with
  | case1 s => simp
  | case2 a lead => simp
  | case3 lead b s ih => simp [ih]
  | case4 a lead b s hab => simp [Ne.symm hab]

private theorem dropLeading?_eq_none_of_not_infix (h : ¬mark <:+: s) :
    dropLeading? mark s = none := by
  cases hdrop : dropLeading? mark s with
  | none => rfl
  | some after =>
    obtain rfl := dropLeading?_eq_some_iff.1 hdrop
    exact absurd (List.prefix_append mark after).isInfix h

private theorem cutAt_of_not_infix (h : ¬mark <:+: s) : cutAt mark s = none := by
  induction s with
  | nil => rw [cutAt, dropLeading?_eq_none_of_not_infix h, Option.map_none]
  | cons b s ih =>
    have htail : ¬mark <:+: s := by
      intro hin
      exact h (hin.trans (List.suffix_cons b s).isInfix)
    rw [cutAt, dropLeading?_eq_none_of_not_infix h]
    simp only [ih htail, Option.map_none]

end Bytes

namespace Template

def opening : Bytes := "\x7b\x7b"

def reference (name : Bytes) : Bytes := "\x7b\x7b.params." ++ name ++ "\x7d\x7d"

/-- Text that alternates with references and can be told from them. -/
inductive Alternation : List Part → Prop
  | last {s : Bytes} (hs : ¬opening <:+: s) : Alternation [.text s]
  | next {s name : Bytes} {parts : List Part} (hs : ¬opening <:+: s)
      (hend : s.getLast? ≠ some 0x7b) (hname : Identifier name) (h : Alternation parts) :
      Alternation (.text s :: .param name :: parts)

def spelling : List Part → List (Token.Kind × Bytes)
  | [] => [(.eof, [])]
  | .text s :: parts => (if s = [] then [] else [(.text, s)]) ++ spelling parts
  | .param name :: parts =>
    (.leftDelim, opening) :: (.field, ".params") :: (.field, "." ++ name) ::
      (.rightDelim, "\x7d\x7d") :: spelling parts

private theorem opening_eq : opening = [0x7b, 0x7b] := by decide

private theorem reference_eq (name rest : Bytes) :
    reference name ++ rest =
      opening ++ 0x2e :: (Bytes.ofString "params" ++ 0x2e :: (name ++ 0x7d :: 0x7d :: rest)) := by
  have hfront : Bytes.ofString "\x7b\x7b.params." =
      opening ++ 0x2e :: (Bytes.ofString "params" ++ [0x2e]) := by
    decide
  have hback : Bytes.ofString "\x7d\x7d" = [0x7d, 0x7d] := by decide
  rw [reference, hfront, hback]
  simp only [List.append_assoc, List.cons_append, List.nil_append]

/-- A delimiter is found behind text that does not run into it. -/
theorem cutAt_opening {s : Bytes} (hs : ¬opening <:+: s) (hend : s.getLast? ≠ some 0x7b)
    (rest : Bytes) : Bytes.cutAt opening (s ++ opening ++ rest) = some (s, rest) := by
  induction s with
  | nil => simp [opening_eq, Bytes.cutAt, Bytes.dropLeading?]
  | cons b s ih =>
    have htail : ¬opening <:+: s := by
      intro hin
      exact hs (hin.trans (List.suffix_cons b s).isInfix)
    have hnone : Bytes.dropLeading? opening (b :: (s ++ opening ++ rest)) = none := by
      rw [opening_eq] at hs ⊢
      cases s with
      | nil =>
        have hb : 0x7b ≠ b := by
          rintro rfl
          exact hend rfl
        simp [Bytes.dropLeading?, hb]
      | cons b' s =>
        by_cases hb : 0x7b = b
        · subst hb
          have hb' : 0x7b ≠ b' := by
            rintro rfl
            exact hs (List.prefix_append [0x7b, 0x7b] s).isInfix
          simp [Bytes.dropLeading?, hb']
        · simp [Bytes.dropLeading?, hb]
    have hend' : s.getLast? ≠ some 0x7b := by
      intro hlast
      apply hend
      rw [List.getLast?_cons, hlast]
      rfl
    rw [List.cons_append, List.cons_append, Bytes.cutAt, hnone]
    simp only [ih htail hend', Option.map_some]

namespace Token

variable {c : Cursor} {s name rest : Bytes} {parts : List Part}

/-- What a token is, wherever it stands. -/
def shape (t : Token) : Kind × Bytes := (t.kind, t.text)

private theorem nameLength_append (u rest : Bytes) :
    nameLength u.length (u ++ rest) = u.length + nameLength 0 rest := by
  induction u with
  | nil => simp
  | cons b u ih =>
    rw [List.length_cons, List.cons_append, nameLength, ih]
    omega

private theorem nameLength_encode {c : Char} (hc : isNameChar c = true) (rest : Bytes) :
    nameLength 0 (encode c ++ rest) = (encode c).length + nameLength 0 rest := by
  have hfront := Utf8.front?_encode c rest
  cases hbytes : encode c with
  | nil => exact absurd hbytes String.utf8EncodeChar_ne_nil
  | cons b u =>
    rw [hbytes, List.cons_append] at hfront
    rw [List.cons_append, nameLength, hfront]
    simp only [Char.ofNat_toNat, hc, if_true, List.length_cons, Nat.add_sub_cancel,
      nameLength_append]
    omega

private theorem nameLength_flatMap {cs : List Char} (hcs : ∀ c ∈ cs, isNameChar c = true)
    (rest : Bytes) :
    nameLength 0 (cs.flatMap encode ++ rest) =
      (cs.flatMap encode).length + nameLength 0 rest := by
  induction cs with
  | nil => simp
  | cons c cs ih =>
    simp only [List.mem_cons, forall_eq_or_imp] at hcs
    rw [List.flatMap_cons, List.append_assoc, nameLength_encode hcs.1, ih hcs.2, List.length_append]
    omega

/-- A byte that starts a name: it ends no other and starts no numeral. -/
structure Lead (b : UInt8) : Prop where
  not_digit : Bytes.isDigit b = false
  not_end : ∀ rest, ends (b :: rest) = false

private theorem lead_of_range {b : UInt8} (h : 0x80 ≤ b.toNat ∨ (65 ≤ b.toNat ∧ b.toNat ≤ 90) ∨
    (97 ≤ b.toNat ∧ b.toNat ≤ 122) ∨ b.toNat = 95) : Lead b := by
  obtain ⟨hdigit, hend, hbrace⟩ : Bytes.isDigit b = false ∧
      (isSpace b || [46, 44, 124, 58, 41, 40].contains b) = false ∧ b ≠ 125 := by
    revert h
    exact Bytes.forall_byte (P := fun b => (0x80 ≤ b.toNat ∨ (65 ≤ b.toNat ∧ b.toNat ≤ 90) ∨
      (97 ≤ b.toNat ∧ b.toNat ≤ 122) ∨ b.toNat = 95) → Bytes.isDigit b = false ∧
      (isSpace b || [46, 44, 124, 58, 41, 40].contains b) = false ∧ b ≠ 125)
      (by decide +kernel) b
  refine ⟨hdigit, ?_⟩
  intro rest
  rw [ends]
  · exact hend
  · intro _ heq
    exact absurd heq hbrace

private theorem lead_of_identifier (h : Identifier name) : ∃ b u, name = b :: u ∧ Lead b := by
  obtain ⟨c, cs, rfl, hc, -⟩ := h
  cases hbytes : encode c with
  | nil => exact absurd hbytes String.utf8EncodeChar_ne_nil
  | cons b u =>
    refine ⟨b, u ++ cs.flatMap encode, by rw [List.flatMap_cons, hbytes]; rfl, ?_⟩
    have hb : b ∈ encode c := by
      rw [hbytes]
      exact List.mem_cons_self
    have hbyte := Utf8.mem_encode hb
    apply lead_of_range
    obtain hletter | rfl := hc
    · simp only [isLetter] at hletter
      split at hletter
      · simp only [Bool.or_eq_true, Bool.and_eq_true, decide_eq_true_eq] at hletter
        omega
      · omega
    · have hunderscore : '_'.toNat = 95 := rfl
      omega

private theorem nameLength_of_identifier (h : Identifier name) (hrest : nameLength 0 rest = 0) :
    nameLength 0 (name ++ rest) = name.length := by
  obtain ⟨c, cs, rfl, hc, hcs⟩ := h
  have hnames : ∀ c' ∈ c :: cs, isNameChar c' = true := by
    intro c' hc'
    obtain rfl | hmem := List.mem_cons.1 hc'
    · obtain hletter | rfl := hc
      · simp [isNameChar, hletter]
      · decide
    · exact hcs c' hmem
  rw [nameLength_flatMap hnames, hrest, Nat.add_zero]

/-! ## Steps -/

/-- A step reads tokens of some shapes and goes on in front of a text. -/
def Steps (mode : Mode) (c : Cursor) (shapes : List (Kind × Bytes)) (mode' : Mode)
    (rest : Bytes) : Prop :=
  (step c mode).tokens.map shape = shapes ∧
    ∃ c', (step c mode).next = some (mode', c') ∧ c'.rest = rest

theorem Steps.scan {mode mode' : Mode} {shapes shapes' : List (Kind × Bytes)} {fuel : Nat}
    (h : Steps mode c shapes mode' rest)
    (hrest : ∀ c', c'.rest = rest → (scan fuel mode' c').map shape = shapes') :
    (scan (fuel + 1) mode c).map shape = shapes ++ shapes' := by
  obtain ⟨htokens, c', hnext, hc'⟩ := h
  rw [Token.scan]
  simp only [hnext, List.map_append, htokens, hrest c' hc']

private theorem scan_last (hs : ¬opening <:+: c.rest) (fuel : Nat) :
    (scan (fuel + 1) .text c).map shape = spelling [.text c.rest] := by
  have hcut : Bytes.cutAt "\x7b\x7b" c.rest = none := Bytes.cutAt_of_not_infix hs
  simp only [scan, step, textStep, hcut, spelling]
  cases hrest : c.rest with
  | nil => rfl
  | cons b u => simp [shape, Cursor.token, hrest]

private theorem textStep_of_cutAt (hcut : Bytes.cutAt "\x7b\x7b" c.rest = some (s, 0x2e :: rest))
    (hinner : ((c.drop s.length).drop 2).rest = 0x2e :: rest) :
    textStep c = ⟨(if s.length = 0 then [] else [c.token .text s.length]) ++
      [(c.drop s.length).token .leftDelim 2], some (.action 0, (c.drop s.length).drop 2)⟩ := by
  have hcomment : Bytes.startsWith (0x2e :: rest) "/*" = false := by
    simp [Bytes.startsWith, Bytes.dropLeading?, show Bytes.ofString "/*" = [47, 42] by decide]
  simp [textStep, hcut, trimsLeft, hinner, hcomment]

/-- Text ends where the next delimiter opens an action. -/
theorem steps_text (hs : ¬opening <:+: s) (hend : s.getLast? ≠ some 0x7b)
    (hc : c.rest = s ++ opening ++ 0x2e :: rest) :
    Steps .text c ((if s = [] then [] else [(.text, s)]) ++ [(.leftDelim, opening)])
      (.action 0) (0x2e :: rest) := by
  have hcut : Bytes.cutAt "\x7b\x7b" c.rest = some (s, 0x2e :: rest) := by
    rw [hc]
    exact cutAt_opening hs hend _
  have hdelim : (c.drop s.length).rest = opening ++ 0x2e :: rest := by
    rw [Cursor.drop, hc, List.append_assoc, List.drop_left]
  have hinner : ((c.drop s.length).drop 2).rest = 0x2e :: rest := by
    rw [Cursor.drop, hdelim]
    rfl
  refine ⟨?_, (c.drop s.length).drop 2, ?_, hinner⟩
  · have htext : shape (c.token .text s.length) = (.text, s) := by
      rw [shape, Cursor.token, hc, List.append_assoc, List.take_left]
    have hopen : shape ((c.drop s.length).token .leftDelim 2) = (.leftDelim, opening) := by
      rw [shape, Cursor.token, hdelim]
      rfl
    rw [step, textStep_of_cutAt hcut hinner, List.map_append, List.map_singleton, hopen]
    split <;> simp_all
  · rw [step, textStep_of_cutAt hcut hinner]

private theorem closing?_dot : closing? (0x2e :: rest) = none := by
  unfold closing?
  split
  · simp_all
  · rename_i heq
    rw [← (List.cons.inj heq).1]
    rfl
  · rfl

private theorem steps_field (hname : Identifier name) (hrest : nameLength 0 rest = 0)
    (hends : ends rest = true) (hc : c.rest = 0x2e :: (name ++ rest)) :
    Steps (.action 0) c [(.field, 0x2e :: name)] (.action 0) rest := by
  have hlength : 1 + nameLength 0 (c.rest.drop 1) = (0x2e :: name).length := by
    rw [hc, List.drop_one, List.tail_cons, nameLength_of_identifier hname hrest, List.length_cons,
      Nat.add_comm]
  have hc' : c.rest = (0x2e :: name) ++ rest := hc
  have htake : c.rest.take (0x2e :: name).length = 0x2e :: name := by
    rw [hc', List.take_left]
  have hdrop : c.rest.drop (0x2e :: name).length = rest := by
    rw [hc', List.drop_left]
  have htoken : actionToken c 0 = c.token .field (0x2e :: name).length := by
    obtain ⟨b, u, rfl, hlead⟩ := lead_of_identifier hname
    have hfield : actionToken c 0 = nameToken c 1 fun _ => .field := by
      rw [actionToken, hc]
      simp [isSpace, hlead.not_digit, hlead.not_end]
    rw [hfield, nameToken, hlength, hdrop, hends]
    rfl
  have htext : (c.token .field (0x2e :: name).length).text = 0x2e :: name := htake
  have hstep : step c (.action 0) = ⟨[c.token .field (0x2e :: name).length],
      some (.action 0, c.drop (0x2e :: name).length)⟩ := by
    rw [step, actionStep, show closing? c.rest = none by rw [hc, closing?_dot]]
    simp only [htoken, htext]
    rfl
  refine ⟨?_, c.drop (0x2e :: name).length, ?_, hdrop⟩
  · rw [hstep, List.map_singleton, shape, htext]
    rfl
  · rw [hstep]

private theorem steps_close (hc : c.rest = 0x7d :: 0x7d :: rest) :
    Steps (.action 0) c [(.rightDelim, "\x7d\x7d")] .text rest := by
  have hstep : step c (.action 0) =
      ⟨[(c.drop 0).token .rightDelim 2], some (.text, (c.drop 0).drop 2)⟩ := by
    rw [step, actionStep, show closing? c.rest = some (2, false) by rw [hc]; rfl]
    rfl
  refine ⟨?_, (c.drop 0).drop 2, ?_, ?_⟩
  · rw [hstep, List.map_singleton, shape, Cursor.token, Cursor.drop, hc]
    rfl
  · rw [hstep]
  · rw [Cursor.drop, Cursor.drop, hc]
    rfl

private theorem identifier_params : Identifier "params" :=
  ⟨'p', ['a', 'r', 'a', 'm', 's'], by decide, by decide, List.all_eq_true.1 (by decide)⟩

/-- A text falls apart into its pieces. -/
theorem scan_alternation (h : Alternation parts) {fuel : Nat} (hc : c.rest = fillIn reference parts)
    (hfuel : c.rest.length < fuel) : (scan fuel .text c).map shape = spelling parts := by
  induction h generalizing c fuel with
  | @last s hs =>
    have hrest : c.rest = s := by simpa [Part.filled] using hc
    obtain ⟨k, rfl⟩ : ∃ k, fuel = k + 1 := ⟨fuel - 1, by omega⟩
    subst hrest
    exact scan_last hs k
  | @next s name parts hs hend hname _ ih =>
    have hsplit : c.rest = s ++ opening ++ 0x2e :: (Bytes.ofString "params" ++
        0x2e :: (name ++ 0x7d :: 0x7d :: fillIn reference parts)) := by
      rw [hc, fillIn_cons, fillIn_cons, Part.filled, Part.filled, reference_eq, List.append_assoc]
    have hlength : (fillIn reference parts).length + 4 < fuel := by
      rw [hsplit] at hfuel
      simp only [List.length_append, List.length_cons] at hfuel
      have hopening : opening.length = 2 := rfl
      omega
    obtain ⟨k, rfl⟩ : ∃ k, fuel = k + 4 := ⟨fuel - 4, by omega⟩
    have hclose : ∀ c', c'.rest = 0x7d :: 0x7d :: fillIn reference parts →
        (scan (k + 1) (.action 0) c').map shape =
          [(.rightDelim, Bytes.ofString "\x7d\x7d")] ++ spelling parts := by
      intro c' hc'
      refine (steps_close hc').scan fun c'' hc'' => ih hc'' ?_
      rw [hc'']
      omega
    have hfield : ∀ c', c'.rest = 0x2e :: (name ++ 0x7d :: 0x7d :: fillIn reference parts) →
        (scan (k + 2) (.action 0) c').map shape = [(.field, 0x2e :: name)] ++
          ([(.rightDelim, Bytes.ofString "\x7d\x7d")] ++ spelling parts) := by
      intro c' hc'
      exact (steps_field hname rfl rfl hc').scan hclose
    have hroot : ∀ c', c'.rest = 0x2e :: (Bytes.ofString "params" ++
        0x2e :: (name ++ 0x7d :: 0x7d :: fillIn reference parts)) →
        (scan (k + 3) (.action 0) c').map shape = [(.field, Bytes.ofString ".params")] ++
          ([(.field, 0x2e :: name)] ++
            ([(.rightDelim, Bytes.ofString "\x7d\x7d")] ++ spelling parts)) := by
      intro c' hc'
      exact (steps_field identifier_params rfl rfl hc').scan hfield
    rw [(steps_text hs hend hsplit).scan hroot, spelling, spelling]
    simp only [List.append_assoc, List.singleton_append]
    rfl

theorem ofText_alternation (h : Alternation parts) :
    (Token.ofText (fillIn reference parts)).map shape = spelling parts :=
  scan_alternation h rfl (Nat.lt_succ_self _)

end Token

end Template

end EngineHost
