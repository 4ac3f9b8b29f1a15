import EngineHost.Proofs.TemplateTokens

/-!
# Reading flat templates

Tokens that spell text and references are read as nodes for just these parts. Empty text has no
token and becomes no node.
-/

namespace EngineHost.Template

namespace ReaderM

variable {α β : Type} {tokens tokens' rest : List Token} {t t' : Token}

/-- A reader takes some of the tokens and defines no template. -/
def Passes (x : ReaderM α) (tokens : List Token) (a : α) (rest : List Token) : Prop :=
  ∀ r : Reader, r.rest = tokens →
    ∃ r', x r = .ok (a, r') ∧ r'.rest = rest ∧ r'.trees = r.trees

private theorem passes_pure (a : α) : Passes (pure a) tokens a tokens :=
  fun r hr => ⟨r, rfl, hr, rfl⟩

theorem Passes.bind {x : ReaderM α} {f : α → ReaderM β} {a : α} {b : β}
    (hx : Passes x tokens a tokens') (hf : Passes (f a) tokens' b rest) :
    Passes (x >>= f) tokens b rest := by
  intro r hr
  obtain ⟨r', hx', hrest', htrees'⟩ := hx r hr
  obtain ⟨r'', hf', hrest'', htrees''⟩ := hf r' hrest'
  refine ⟨r'', ?_, hrest'', htrees''.trans htrees'⟩
  have hbind : (x >>= f) r = (x r >>= fun p => f p.1 p.2) := rfl
  rw [hbind, hx']
  exact hf'

private theorem passes_get_bind {f : Reader → ReaderM β} {b : β}
    (hf : ∀ r : Reader, r.rest = tokens → Passes (f r) tokens b rest) :
    Passes (get >>= f) tokens b rest :=
  fun r hr => hf r hr r hr

private theorem passes_modify {g : Reader → Reader} (rest : List Token)
    (hg : ∀ r : Reader, r.rest = tokens → (g r).rest = rest ∧ (g r).trees = r.trees) :
    Passes (modify g) tokens () rest :=
  fun r hr => ⟨g r, rfl, hg r hr⟩

private theorem passes_modify_line (line : Option Nat) :
    Passes (modify fun r => { r with actionLine := line }) tokens () tokens :=
  passes_modify _ fun _ hr => ⟨hr, rfl⟩

/-! ## Tokens -/

private theorem passes_look : Passes look (t :: rest) t (t :: rest) := by
  intro r hr
  simp only [look, hr]
  by_cases hreach : r.reach.pos ≤ t.pos
  · rw [if_pos hreach]
    exact ⟨_, rfl, rfl, rfl⟩
  · rw [if_neg hreach]
    exact ⟨_, rfl, hr, rfl⟩

private theorem passes_advance : Passes advance (t :: t' :: rest) () (t' :: rest) := by
  refine passes_modify _ fun r hr => ?_
  rw [hr]
  exact ⟨rfl, rfl⟩

private theorem passes_lookPast (ht : t.kind ≠ .space) :
    Passes lookPast (t :: rest) t (t :: rest) := by
  refine (passes_modify _ fun r hr => ?_).bind passes_look
  simp [hr, ht]

private theorem passes_nextPast (ht : t.kind ≠ .space) :
    Passes nextPast (t :: t' :: rest) t (t' :: rest) :=
  (passes_lookPast ht).bind (passes_advance.bind (passes_pure t))

/-! ## References -/

section Reference

variable {root leaf close : Token} (hroot : root.kind = .field) (hleaf : leaf.kind = .field)
  (hclose : close.kind = .rightDelim)

include hleaf hclose in
private theorem passes_takeFields :
    Passes takeFields (leaf :: close :: rest) (leaf.pos, [leaf.text.drop 1]) (close :: rest) := by
  have hfields : fields (leaf :: close :: rest) = [leaf.text.drop 1] := by
    simp [fields, hleaf, hclose]
  refine passes_look.bind (passes_get_bind fun r hr => ?_)
  rw [hr, hfields]
  refine (passes_modify (close :: rest) fun r hr => ?_).bind ?_
  · simp [hr]
  · exact passes_look.bind (passes_pure _)

include hleaf hclose in
private theorem passes_withFields (pos : Nat) (names : List Bytes) :
    Passes (withFields (.field pos names)) (leaf :: close :: rest)
      (.field leaf.pos (names ++ [leaf.text.drop 1])) (close :: rest) :=
  (passes_takeFields hleaf hclose).bind (passes_pure _)

include hroot in
private theorem passes_term? (fuel : Nat) :
    Passes (term? (fuel + 1)) (root :: t :: rest) (some (.field root.pos [root.text.drop 1]))
      (t :: rest) := by
  rw [term?]
  refine (passes_lookPast (by simp [hroot])).bind ?_
  simp only [hroot]
  exact passes_advance.bind (passes_pure _)

def operandOf (root leaf : Token) : Operand :=
  .field leaf.pos [root.text.drop 1, leaf.text.drop 1]

include hroot hleaf hclose

private theorem passes_operand? (fuel : Nat) :
    Passes (operand? (fuel + 2)) (root :: leaf :: close :: rest) (some (operandOf root leaf))
      (close :: rest) := by
  rw [operand?]
  refine (passes_term? hroot fuel).bind ?_
  exact (passes_withFields hleaf hclose _ _).bind (passes_pure _)

private theorem passes_operands (fuel : Nat) :
    Passes (operands (fuel + 3)) (root :: leaf :: close :: rest) [operandOf root leaf]
      (close :: rest) := by
  rw [operands]
  refine (passes_operand? hroot hleaf hclose fuel).bind (passes_look.bind ?_)
  simp only [hclose]
  exact passes_pure _

private theorem passes_commands (context : Bytes) (fuel : Nat) :
    Passes (commands context .rightDelim (fuel + 4)) (root :: leaf :: close :: t :: rest)
      [.mk root.pos (operandOf root leaf) []] (t :: rest) := by
  have hlast : Passes (commands context .rightDelim (fuel + 3)) (close :: t :: rest) []
      (t :: rest) := by
    rw [commands]
    refine (passes_lookPast (by simp [hclose])).bind ?_
    rw [if_pos hclose]
    exact passes_advance.bind (passes_pure _)
  rw [commands]
  refine (passes_lookPast (by simp [hroot])).bind ?_
  rw [if_neg (by simp [hroot]), if_pos (by simp [hroot, starts])]
  exact (passes_operands hroot hleaf hclose fuel).bind (hlast.bind (passes_pure _))

private theorem passes_pipeline (context : Bytes) (fuel : Nat) :
    Passes (pipeline context .rightDelim (fuel + 5)) (root :: leaf :: close :: t :: rest)
      (.mk root.pos [] false [.mk root.pos (operandOf root leaf) []]) (t :: rest) := by
  have hdeclarations : Passes (declarations context 3 []) (root :: leaf :: close :: t :: rest)
      ([], false) (root :: leaf :: close :: t :: rest) := by
    rw [declarations]
    refine (passes_lookPast (by simp [hroot])).bind ?_
    rw [if_pos (by simp [hroot])]
    exact passes_pure _
  rw [pipeline]
  refine (passes_lookPast (by simp [hroot])).bind (hdeclarations.bind ?_)
  refine (passes_commands hroot hleaf hclose context fuel).bind ?_
  exact (passes_pure ()).bind (passes_pure _)

def nodeOf (root leaf : Token) : Node :=
  .action (.mk root.pos [] false [.mk root.pos (operandOf root leaf) []])

private theorem passes_action (fuel : Nat) :
    Passes (action (fuel + 6)) (root :: leaf :: close :: t :: rest) (.node (nodeOf root leaf))
      (t :: rest) := by
  rw [action]
  refine (passes_lookPast (by simp [hroot])).bind ?_
  simp only [hroot]
  exact (passes_pipeline hroot hleaf hclose _ fuel).bind (passes_pure _)

private theorem passes_item_reference {o : Token} (ho : o.kind = .leftDelim) (fuel : Nat) :
    Passes (item (fuel + 7)) (o :: root :: leaf :: close :: t :: rest) (.node (nodeOf root leaf))
      (t :: rest) := by
  rw [item]
  refine (passes_nextPast (by simp [ho])).bind ?_
  simp only [ho]
  refine (passes_modify_line _).bind ((passes_action hroot hleaf hclose fuel).bind ?_)
  exact (passes_modify_line _).bind (passes_pure _)

end Reference

private theorem passes_item_text (ht : t.kind = .text) (fuel : Nat) :
    Passes (item (fuel + 1)) (t :: t' :: rest) (.node (.text t.text)) (t' :: rest) := by
  rw [item]
  refine (passes_nextPast (by simp [ht])).bind ?_
  simp only [ht]
  exact passes_pure _

private theorem passes_startsDefinition_text (ht : t.kind = .text) :
    Passes startsDefinition (t :: rest) false (t :: rest) := by
  refine passes_look.bind ?_
  rw [if_pos (by simp [ht])]
  exact passes_pure _

private theorem passes_startsDefinition_action {root : Token} (ht : t.kind = .leftDelim)
    (hroot : root.kind = .field) :
    Passes startsDefinition (t :: root :: t' :: rest) false (t :: root :: t' :: rest) := by
  refine passes_look.bind ?_
  rw [if_neg (by simp [ht])]
  refine passes_get_bind fun r hr => passes_advance.bind ?_
  refine (passes_nextPast (by simp [hroot])).bind ?_
  rw [if_neg (by simp [hroot]), hr]
  refine Passes.bind (passes_modify _ fun r hr => ?_) (passes_pure _)
  exact ⟨rfl, rfl⟩

private theorem passes_document_cons {n : Node} {nodes : List Node} {fuel : Nat}
    (ht : t.kind ≠ .eof) (hdefinition : Passes startsDefinition (t :: tokens) false (t :: tokens))
    (hitem : Passes (item fuel) (t :: tokens) (.node n) tokens')
    (hnodes : Passes (document fuel) tokens' nodes rest) :
    Passes (document (fuel + 1)) (t :: tokens) (n :: nodes) rest := by
  rw [document]
  refine passes_look.bind ?_
  rw [if_neg ht]
  refine hdefinition.bind ?_
  rw [if_neg (by simp)]
  exact hitem.bind (hnodes.bind (passes_pure _))

end ReaderM

private theorem spelling_ne_nil (parts : List Part) : spelling parts ≠ [] := by
  induction parts with
  | nil => simp [spelling]
  | cons p parts ih =>
    cases p with
    | text s => simp [spelling, ih]
    | param name => simp [spelling]

private theorem exists_cons_of_spelling {tokens : List Token} {parts : List Part}
    (h : tokens.map Token.shape = spelling parts) : ∃ t rest, tokens = t :: rest := by
  apply List.exists_cons_of_ne_nil
  rintro rfl
  exact spelling_ne_nil parts h.symm

private theorem part?_nodeOf {root leaf : Token} {name : Bytes} (hroot : root.text = ".params")
    (hleaf : leaf.text = "." ++ name) :
    (ReaderM.nodeOf root leaf).part? = some (.param name) := by
  have hparams : root.text.drop 1 = Bytes.ofString "params" := by
    rw [hroot]
    decide
  have hname : leaf.text.drop 1 = name := by
    rw [hleaf]
    rfl
  simp [ReaderM.nodeOf, ReaderM.operandOf, Node.part?, hparams, hname]

/-- Tokens are read as the parts that they spell. -/
theorem ReaderM.passes_document {tokens : List Token} {parts : List Part} {fuel : Nat}
    (htokens : tokens.map Token.shape = spelling parts) (hfuel : tokens.length + 7 ≤ fuel) :
    ∃ nodes rest, Passes (document fuel) tokens nodes rest ∧
      parts? nodes = some (parts.filter (· ≠ .text [])) := by
  induction parts generalizing tokens fuel with
  | nil =>
    obtain ⟨t, rfl, ht⟩ := List.map_eq_singleton_iff.1 htokens
    have hkind : t.kind = .eof := congrArg Prod.fst ht
    obtain ⟨k, rfl⟩ : ∃ k, fuel = k + 1 := ⟨fuel - 1, by omega⟩
    refine ⟨[], [t], ?_, rfl⟩
    rw [document]
    refine passes_look.bind ?_
    rw [if_pos hkind]
    exact passes_pure _
  | cons p parts ih =>
    cases p with
    | text s =>
      by_cases hs : s = []
      · subst hs
        exact ih htokens hfuel
      · rw [spelling, if_neg hs, List.singleton_append] at htokens
        obtain ⟨t, tokens, rfl, ht, htokens⟩ := List.map_eq_cons_iff.1 htokens
        have hkind : t.kind = .text := congrArg Prod.fst ht
        have htext : t.text = s := congrArg Prod.snd ht
        obtain ⟨t', rest, rfl⟩ := exists_cons_of_spelling htokens
        simp only [List.length_cons] at hfuel
        obtain ⟨k, rfl⟩ : ∃ k, fuel = k + 8 := ⟨fuel - 8, by omega⟩
        obtain ⟨nodes, last, hnodes, hparts⟩ := ih htokens (show _ ≤ k + 7 by simp; omega)
        refine ⟨.text t.text :: nodes, last, ?_, ?_⟩
        · exact passes_document_cons (by simp [hkind]) (passes_startsDefinition_text hkind)
            (passes_item_text hkind _) hnodes
        · rw [htext]
          simpa [hs] using parts?_cons_eq_some_iff.2 ⟨.text s, _, rfl, rfl, hparts⟩
    | param name =>
      rw [spelling] at htokens
      obtain ⟨o, tokens, rfl, ho, htokens⟩ := List.map_eq_cons_iff.1 htokens
      obtain ⟨root, tokens, rfl, hroot, htokens⟩ := List.map_eq_cons_iff.1 htokens
      obtain ⟨leaf, tokens, rfl, hleaf, htokens⟩ := List.map_eq_cons_iff.1 htokens
      obtain ⟨close, tokens, rfl, hclose, htokens⟩ := List.map_eq_cons_iff.1 htokens
      obtain ⟨hopen, -⟩ := Prod.mk.inj ho
      obtain ⟨hroot, hparams⟩ := Prod.mk.inj hroot
      obtain ⟨hleaf, hname⟩ := Prod.mk.inj hleaf
      obtain ⟨hclose, -⟩ := Prod.mk.inj hclose
      obtain ⟨t, rest, rfl⟩ := exists_cons_of_spelling htokens
      simp only [List.length_cons] at hfuel
      obtain ⟨k, rfl⟩ : ∃ k, fuel = k + 8 := ⟨fuel - 8, by omega⟩
      obtain ⟨nodes, last, hnodes, hparts⟩ := ih htokens (show _ ≤ k + 7 by simp; omega)
      refine ⟨nodeOf root leaf :: nodes, last, ?_, ?_⟩
      · exact passes_document_cons (by simp [hopen]) (passes_startsDefinition_action hopen hroot)
          (passes_item_reference hroot hleaf hclose hopen k) hnodes
      · simpa using parts?_cons_eq_some_iff.2 ⟨_, _, rfl, part?_nodeOf hparams hname, hparts⟩

private theorem ReaderM.run'_bind {α β : Type} {x : ReaderM α} {f : α → ReaderM β} {a : α}
    {r r' : Reader} (h : x r = .ok (a, r')) : (x >>= f).run' r = (f a).run' r' := by
  have hbind : (x >>= f).run' r = Prod.fst <$> (x r >>= fun p => f p.1 p.2) := rfl
  rw [hbind, h]
  rfl

private theorem ReaderM.addTree_new {name : Bytes} {r : Reader} (h : Dict.get? r.trees name = none)
    (nodes : List Node) :
    addTree name nodes r =
      .ok ((), { r with trees := Dict.insert r.trees name nodes }) := by
  have hget (f : Reader → ReaderM Unit) : (get >>= f) r = f r r := rfl
  rw [addTree, hget]
  simp only [h]
  rfl

theorem Trees.ofText_alternation {parts : List Part} (h : Alternation parts) (name : Bytes) :
    ∃ nodes, Trees.ofText name (fillIn reference parts) = .ok (Dict.insert [] name nodes) ∧
      parts? nodes = some (parts.filter (· ≠ .text [])) := by
  obtain ⟨nodes, rest, hnodes, hparts⟩ := ReaderM.passes_document (Token.ofText_alternation h)
    (show _ ≤ 8 * ((Token.ofText (fillIn reference parts)).length + 1) by omega)
  obtain ⟨r, hr, -, htrees⟩ := hnodes
    { rest := Token.ofText (fillIn reference parts)
      reach := (Token.ofText (fillIn reference parts)).headD default } rfl
  have hadd := ReaderM.addTree_new (show Dict.get? r.trees name = none by rw [htrees]; rfl) nodes
  refine ⟨nodes, ?_, hparts⟩
  rw [Trees.ofText, ReaderM.run'_bind hr, ReaderM.run'_bind hadd, htrees]
  rfl

end EngineHost.Template
