import EngineHost.Proofs.Dictionary
import EngineHost.Proofs.TemplateReading

/-!
# Substitution

A template of alternating text and references can always be read. It names just the parameters that
its references name. It is rendered by putting their values in place of the references, or not at
all if one of them is missing.
-/

namespace EngineHost

namespace Dict

variable {α : Type u} {d : Dict α} {key : Bytes}

private theorem mem_keys_iff : key ∈ keys d ↔ has d key = true := by
  simp [keys, has]

theorem Increasing.keys (h : d.Increasing) : (Dict.keys d).Pairwise (· < ·) :=
  List.pairwise_map.2 h

private theorem mem_keys_ofList (names : List Bytes) (key : Bytes) :
    key ∈ Dict.keys (ofList (names.map fun name => (name, ()))) ↔ key ∈ names := by
  rw [mem_keys_iff, has_eq_isSome, get?_ofList, lastValue?, ← has_eq_isSome]
  simp [has]

end Dict

namespace Template

variable {params : Params} {parts : List Part} {nodes : List Node} {name : Bytes}

/-! ## Values -/

/-- How an integer or a text is written: in decimal, or as it is. -/
def plain? : Value → Option Bytes
  | .int n => some (Bytes.ofInt n.toInt)
  | .int64 n => some (Bytes.ofInt n.toInt)
  | .uint64 n => some (Bytes.ofNat n.toNat)
  | .string s => some s
  | _ => none

def Plain (params : Params) : Prop := ∀ e ∈ params, (plain? e.2).isSome = true

instance : Decidable (Plain params) :=
  inferInstanceAs (Decidable (∀ e ∈ params, (plain? e.2).isSome = true))

def plainText (params : Params) (name : Bytes) : Bytes :=
  ((Dict.get? params name).bind plain?).getD []

private theorem display_of_plain? {v : Value} {s : Bytes} (h : plain? v = some s) :
    display v = s := by
  cases v with
  | int n =>
    obtain rfl := Option.some.inj h
    exact display_int n
  | int64 n =>
    obtain rfl := Option.some.inj h
    exact integer_decimal n.toInt
  | uint64 n =>
    obtain rfl := Option.some.inj h
    exact integer_decimal n.toNat
  | string s =>
    obtain rfl := Option.some.inj h
    have hpad : Format.Flags.pad {} s = s := by
      simp [Format.Flags.pad, Format.Flags.filling]
    exact hpad
  | _ => simp [plain?] at h

private theorem written_eq_plainText (hplain : Plain params) (hname : Dict.has params name = true) :
    written params name = plainText params name := by
  rw [Dict.has_eq_isSome] at hname
  obtain ⟨v, hv⟩ := Option.isSome_iff_exists.1 hname
  obtain ⟨s, hs⟩ := Option.isSome_iff_exists.1 (hplain _ (Dict.mem_of_get? hv))
  simp [written, plainText, hv, hs, display_of_plain? hs]

/-! ## Parts -/

theorem fillIn_congr {f g : Bytes → Bytes} (h : ∀ name, .param name ∈ parts → f name = g name) :
    fillIn f parts = fillIn g parts := by
  induction parts with
  | nil => rfl
  | cons p parts ih =>
    simp only [List.mem_cons] at h
    have hrest := ih fun name hname => h name (.inr hname)
    cases p with
    | text s => simp [Part.filled, hrest]
    | param name => simp [Part.filled, hrest, h name (.inl rfl)]

private theorem fillIn_filter (f : Bytes → Bytes) (parts : List Part) :
    fillIn f (parts.filter (· ≠ .text [])) = fillIn f parts := by
  induction parts with
  | nil => rfl
  | cons p parts ih =>
    by_cases hp : p = .text []
    · simpa [hp, Part.filled] using ih
    · simpa [hp] using ih

private theorem mem_nodesParams_iff (hparts : parts? nodes = some parts) :
    name ∈ nodesParams nodes ↔ .param name ∈ parts := by
  induction nodes generalizing parts with
  | nil =>
    obtain rfl := Option.some.inj hparts
    simp [nodesParams]
  | cons n rest ih =>
    obtain ⟨p, ps, rfl, hp, hps⟩ := parts?_cons_eq_some_iff.1 hparts
    rw [nodesParams, List.mem_append, ih hps, List.mem_cons]
    cases p with
    | text s =>
      obtain rfl := Node.eq_of_part?_text hp
      simp [Node.params]
    | param x =>
      obtain ⟨pos, assigns, cpos, fpos, rfl⟩ := Node.eq_of_part?_param hp
      simp [Node.params, Pipeline.params, commandsParams, Command.params, Operand.params,
        operandsParams]

/-! ## Programs -/

namespace Program

/-- A program that stands for its parts, whatever it is rendered with and however often. -/
structure Substitutes (p : Program) (parts : List Part) : Prop where
  /-- The parameters come in order and without repetition. -/
  params_increasing : p.params.Pairwise (· < ·)
  mem_params : ∀ x, x ∈ p.params ↔ .param x ∈ parts
  render_succeeds : ∀ params : Option Params, (∃ text, p.render params = .ok text) ↔
    ∀ x, .param x ∈ parts → Dict.has (params.getD []) x = true
  render_eq : ∀ (params : Option Params) (text : Bytes), Plain (params.getD []) →
    p.render params = .ok text → text = fillIn (plainText (params.getD [])) parts
  render_fails : ∀ (params : Option Params) (x : Bytes), .param x ∈ parts →
    Dict.has (params.getD []) x = false → ∃ fault, p.render params = .error fault

private theorem substitutes_of_parts? {p : Program}
    (hparts : parts? p.body = some (parts.filter (· ≠ .text []))) : p.Substitutes parts := by
  have hmem (x : Bytes) : .param x ∈ parts.filter (· ≠ .text []) ↔ .param x ∈ parts := by simp
  have hrender (params : Option Params)
      (hgiven : ∀ x, .param x ∈ parts → Dict.has (params.getD []) x = true) :
      p.render params = .ok (fillIn (written (params.getD [])) parts) := by
    rw [render_parts params hparts, fillIn_filter]
    intro x hx
    rw [← Dict.has_eq_isSome]
    exact hgiven x ((hmem x).1 hx)
  have hfails (params : Option Params) (x : Bytes) (hx : .param x ∈ parts)
      (hmissing : Dict.has (params.getD []) x = false) :
      ∃ fault, p.render params = .error fault := by
    rw [Dict.has_eq_isSome, Option.isSome_eq_false_iff, Option.isNone_iff_eq_none] at hmissing
    exact render_missing hparts ((hmem x).2 hx) hmissing
  have hgiven (params : Option Params) (text : Bytes) (htext : p.render params = .ok text) :
      ∀ x, .param x ∈ parts → Dict.has (params.getD []) x = true := by
    intro x hx
    cases hhas : Dict.has (params.getD []) x with
    | true => rfl
    | false =>
      obtain ⟨fault, hfault⟩ := hfails params x hx hhas
      simp [hfault] at htext
  exact {
    params_increasing := (Dict.increasing_ofList _).keys
    mem_params := fun x => by
      rw [Program.params, Dict.mem_keys_ofList, mem_nodesParams_iff hparts, hmem]
    render_succeeds := fun params =>
      ⟨fun ⟨text, htext⟩ => hgiven params text htext, fun h => ⟨_, hrender params h⟩⟩
    render_eq := fun params text hplain htext => by
      have hall := hgiven params text htext
      rw [hrender params hall] at htext
      rw [← Except.ok.inj htext]
      exact fillIn_congr fun x hx => written_eq_plainText hplain (hall x hx)
    render_fails := hfails }

/-- A template of alternating text and references is read as a program that puts values in the
place of its references. -/
theorem read_substitutes (h : Alternation parts) (name : Bytes) :
    ∃ p, Program.read name (fillIn reference parts) = .ok p ∧ p.Substitutes parts := by
  obtain ⟨nodes, htrees, hparts⟩ := Trees.ofText_alternation h name
  refine ⟨⟨name, fillIn reference parts, Dict.insert [] name nodes⟩, ?_, ?_⟩
  · rw [read, htrees]
  · apply substitutes_of_parts?
    rw [body, Dict.get?_insert, if_pos rfl, Option.getD_some, hparts]

/-- Text with single braces around two references. -/
def braced : List Part :=
  [.text "\x7ba\x7b ", .param "N", .text "\x7d\x7d \x7bb ", .param "été1", .text "\x7b"]

theorem read_substitutes_braced :
    Alternation braced ∧
      fillIn reference braced = "\x7ba\x7b \x7b\x7b.params.N\x7d\x7d" ++
        ("\x7d\x7d \x7bb \x7b\x7b.params.été1\x7d\x7d" ++ "\x7b") ∧
      ∃ p, Program.read "t" (fillIn reference braced) = .ok p ∧
        p.render (some [("N", .int (-7)), ("été1", .string "\x7d\x7d")]) =
          .ok "\x7ba\x7b -7\x7d\x7d \x7bb \x7d\x7d\x7b" ∧
        ∃ fault, p.render (some [("N", .int (-7))]) = .error fault := by
  have h : Alternation braced :=
    .next (by decide) (by decide) ⟨'N', [], by decide, by decide, by simp⟩
      (.next (by decide) (by decide)
        ⟨'é', ['t', 'é', '1'], by decide, by decide, List.all_eq_true.1 (by decide)⟩
        (.last (by decide)))
  obtain ⟨p, hread, hp⟩ := read_substitutes h "t"
  have hgiven : ∀ x, .param x ∈ braced →
      Dict.has [("N", Value.int (-7)), ("été1", .string "\x7d\x7d")] x = true := by
    intro x hx
    obtain rfl | rfl : x = "N" ∨ x = "été1" := by simpa [braced] using hx
    · decide
    · decide
  obtain ⟨text, htext⟩ := (hp.render_succeeds (some _)).2 hgiven
  refine ⟨h, by decide, p, hread, ?_, hp.render_fails _ "été1" (by decide) (by decide)⟩
  rw [htext, hp.render_eq _ text (by decide) htext]
  exact congrArg Except.ok (by decide)

end Program

end Template

end EngineHost
