import EngineHost.Proofs.Dictionary
import EngineHost.Proofs.TemplateReading

/-!
# What templates are made of

Whatever text is read as a template, no text node of it holds the delimiter that opens an action,
and no template leaves a range that it is not in.
-/

namespace EngineHost

namespace Bytes

variable {mark s before after : Bytes}

private theorem eq_of_cutAt (h : cutAt mark s = some (before, after)) :
    s = before ++ mark ++ after ∧ (mark ≠ [] → ¬mark <:+: before) := by
  induction s generalizing before with
  | nil =>
    obtain ⟨after', hdrop, heq⟩ := Option.map_eq_some_iff.1 h
    obtain ⟨rfl, rfl⟩ := Prod.mk.inj heq
    refine ⟨dropLeading?_eq_some_iff.1 hdrop, fun hmark hin => ?_⟩
    exact hmark (List.eq_nil_of_infix_nil hin)
  | cons b s ih =>
    rw [cutAt] at h
    split at h
    · rename_i after' hdrop
      obtain ⟨rfl, rfl⟩ := Prod.mk.inj (Option.some.inj h)
      refine ⟨dropLeading?_eq_some_iff.1 hdrop, fun hmark hin => ?_⟩
      exact hmark (List.eq_nil_of_infix_nil hin)
    · rename_i hdrop
      obtain ⟨⟨before', after'⟩, hcut, heq⟩ := Option.map_eq_some_iff.1 h
      obtain ⟨rfl, rfl⟩ := Prod.mk.inj heq
      obtain ⟨rfl, hfirst⟩ := ih hcut
      refine ⟨rfl, fun hmark hin => ?_⟩
      rcases List.infix_cons_iff.1 hin with hlead | hlater
      · -- A mark at the front would have been found there.
        obtain ⟨rest, hrest⟩ := hlead
        have hfront : b :: (before' ++ mark ++ after') = mark ++ (rest ++ (mark ++ after')) := by
          rw [← List.append_assoc mark, hrest]
          simp
        rw [dropLeading?_eq_some_iff.2 hfront] at hdrop
        cases hdrop
      · exact hfirst hmark hlater

private theorem not_infix_of_cutAt_eq_none (hmark : mark ≠ []) (h : cutAt mark s = none) :
    ¬mark <:+: s := by
  induction s with
  | nil => exact fun hin => hmark (List.eq_nil_of_infix_nil hin)
  | cons b s ih =>
    rw [cutAt] at h
    split at h
    · cases h
    · rename_i hdrop
      intro hin
      rcases List.infix_cons_iff.1 hin with ⟨rest, hrest⟩ | hlater
      · rw [dropLeading?_eq_some_iff.2 hrest.symm] at hdrop
        cases hdrop
      · exact ih (Option.map_eq_none_iff.1 h) hlater

end Bytes

namespace Template

/-! ## Tokens -/

namespace Token

variable {c : Cursor} {t : Token}

/-- A token of text holds no delimiter that opens an action. -/
def Clear (t : Token) : Prop := t.kind = .text → ¬opening <:+: t.text

private theorem clear_of_ne (h : t.kind ≠ .text) : t.Clear := fun ht => absurd ht h

private theorem kind_ite {p : Prop} [Decidable p] {t u : Token} (ht : t.kind ≠ .text)
    (hu : u.kind ≠ .text) : (if p then t else u).kind ≠ .text := by
  split
  · exact ht
  · exact hu

private theorem kind_bad (c : Cursor) (message : Bytes) : (c.bad message).kind ≠ .text := by
  simp [Cursor.bad]

private theorem kind_spaceToken (c : Cursor) : (spaceToken c).kind ≠ .text := by
  simp only [spaceToken]
  split <;> simp [Cursor.token]

private theorem kind_quotedToken {kind : Kind} (h : kind ≠ .text) (length : Option Nat)
    (s : Bytes) :
    (quotedToken c kind length s).kind ≠ .text := by
  cases length with
  | none => exact kind_bad c s
  | some n => exact h

private theorem kind_nameToken {kind : Bytes → Kind} (h : ∀ w, kind w ≠ .text) (lead : Nat) :
    (nameToken c lead kind).kind ≠ .text := by
  simp only [nameToken]
  exact kind_ite (h _) (kind_bad c _)

private theorem wordKind_ne_text (w : Bytes) : wordKind w ≠ .text := by
  unfold wordKind
  split
  · simp
  · split <;> simp

private theorem kind_numberToken (c : Cursor) : (numberToken c).kind ≠ .text := by
  simp only [numberToken]
  refine kind_ite (kind_bad c _) ?_
  split
  · exact kind_ite (kind_ite (kind_bad c _) (by simp [Cursor.token])) (by simp [Cursor.token])
  · simp [Cursor.token]

private theorem kind_actionToken (c : Cursor) (depth : Nat) :
    (actionToken c depth).kind ≠ .text := by
  have htoken {kind : Kind} (h : kind ≠ .text) (n : Nat) : (c.token kind n).kind ≠ .text := h
  unfold actionToken
  split
  · exact kind_bad c _
  · refine kind_ite (kind_spaceToken c) <| kind_ite (htoken (by simp) 1) <|
      kind_ite (kind_ite (htoken (by simp) 2) (kind_bad c _)) <| kind_ite (htoken (by simp) 1) <|
      kind_ite (kind_quotedToken (by simp) _ _) <| kind_ite (kind_quotedToken (by simp) _ _) <|
      kind_ite (kind_quotedToken (by simp) _ _) <| kind_ite (kind_nameToken (by simp) 1) <|
      kind_ite (kind_ite (htoken (by simp) 1) (kind_nameToken (by simp) 1)) <|
      kind_ite (kind_numberToken c) <| kind_ite (kind_nameToken wordKind_ne_text 0) <|
      kind_ite (htoken (by simp) 1) <| kind_ite (kind_ite (kind_bad c _) (htoken (by simp) 1)) <|
      kind_ite (htoken (by simp) 1) (kind_bad c _)

private theorem kind_comment (h : t ∈ (comment c).tokens) : t.kind ≠ .text := by
  unfold comment at h
  split at h
  · obtain rfl := List.mem_singleton.1 h
    exact kind_bad c _
  · split at h
    · obtain rfl := List.mem_singleton.1 h
      exact kind_bad c _
    · simp at h

private theorem clear_of_mem_textStep (h : t ∈ (textStep c).tokens) : t.Clear := by
  have hopening : opening ≠ [] := by decide
  unfold textStep at h
  split at h
  · rename_i hcut
    have hclear : ¬opening <:+: c.rest := Bytes.not_infix_of_cutAt_eq_none hopening hcut
    rcases List.mem_append.1 h with htext | heof
    · split at htext
      · simp at htext
      · obtain rfl := List.mem_singleton.1 htext
        intro _
        rwa [Cursor.token, List.take_length]
    · obtain rfl := List.mem_singleton.1 heof
      exact clear_of_ne (by simp [Cursor.token])
  · rename_i before after hcut
    obtain ⟨hrest, hbefore⟩ := Bytes.eq_of_cutAt hcut
    have htext (kept : Nat) (hkept : kept ≤ before.length) : (c.token .text kept).Clear := by
      intro _ hin
      refine hbefore hopening (hin.trans ?_)
      rw [Cursor.token, hrest, List.append_assoc, List.take_append_of_le_length hkept]
      exact (List.take_prefix kept before).isInfix
    have hfront (kept : Nat) (hkept : kept ≤ before.length)
        (hmem : t ∈ if kept = 0 then [] else [c.token .text kept]) : t.Clear := by
      split at hmem
      · simp at hmem
      · obtain rfl := List.mem_singleton.1 hmem
        exact htext kept hkept
    have hkept : (if trimsLeft after then (Bytes.dropTrailing isSpace before).length
        else before.length) ≤ before.length := by
      split
      · have hle := (List.dropWhile_sublist isSpace (l := before.reverse)).length_le
        rwa [List.length_reverse, ← List.length_reverse] at hle
      · exact Nat.le_refl _
    have hdelim : (((c.drop before.length).token .leftDelim 2).kind ≠ .text) := by
      simp [Cursor.token]
    dsimp only at h
    generalize (if trimsLeft after then (Bytes.dropTrailing isSpace before).length
      else before.length) = kept at h hkept
    generalize (c.drop before.length).drop (if trimsLeft after then 4 else 2) = inner at h
    by_cases hcomment : Bytes.startsWith inner.rest "/*" = true
    · rw [if_pos hcomment] at h
      rcases List.mem_append.1 h with hmem | hmem
      · exact hfront kept hkept hmem
      · exact clear_of_ne (kind_comment hmem)
    · rw [if_neg hcomment] at h
      rcases List.mem_append.1 h with hmem | hmem
      · exact hfront kept hkept hmem
      · obtain rfl := List.mem_singleton.1 hmem
        exact clear_of_ne hdelim

private theorem clear_of_mem_actionStep {depth : Nat} (h : t ∈ (actionStep c depth).tokens) :
    t.Clear := by
  refine clear_of_ne ?_
  unfold actionStep at h
  split at h
  · split at h
    · obtain rfl := List.mem_singleton.1 h
      simp [Cursor.token]
    · obtain rfl := List.mem_singleton.1 h
      exact kind_bad c _
  · obtain rfl := List.mem_singleton.1 h
    exact kind_actionToken c depth

private theorem clear_of_mem_scan {fuel : Nat} {mode : Mode} (h : t ∈ scan fuel mode c) :
    t.Clear := by
  have hstep (mode : Mode) (c : Cursor) (hmem : t ∈ (step c mode).tokens) : t.Clear := by
    cases mode with
    | text => exact clear_of_mem_textStep hmem
    | action depth => exact clear_of_mem_actionStep hmem
  induction fuel generalizing mode c with
  | zero => simp [scan] at h
  | succ fuel ih =>
    rw [scan] at h
    split at h
    · exact hstep mode c h
    · rcases List.mem_append.1 h with hmem | hmem
      · exact hstep mode c hmem
      · exact ih hmem

end Token

/-! ## Nodes -/

mutual

/-- No text holds a delimiter that opens an action, and jumps stand inside of ranges. -/
def Node.Formed (inRange : Prop) : Node → Prop
  | .text s => ¬opening <:+: s
  | .branch _ _ body otherwise => nodesFormed inRange body ∧ nodesFormed inRange otherwise
  | .range _ body otherwise => nodesFormed True body ∧ nodesFormed inRange otherwise
  | .leave => inRange
  | .skip => inRange
  | .action _ => True
  | .call _ _ _ => True

def nodesFormed (inRange : Prop) : List Node → Prop
  | [] => True
  | n :: rest => n.Formed inRange ∧ nodesFormed inRange rest

end

namespace ReaderM

variable {α β : Type} {k k' k'' : Nat} {t : Token}

/-- A reader in front of clear tokens, with templates that are formed. -/
structure Legal (r : Reader) : Prop where
  rest : ∀ t ∈ r.rest, t.Clear
  reach : r.reach.Clear
  trees : ∀ e ∈ r.trees, nodesFormed False e.2

/-- What is read between `k` ranges, if anything is, has a property. -/
def Reads (k : Nat) (x : ReaderM α) (k' : Nat) (Q : α → Prop) : Prop :=
  ∀ r a r', Legal r → r.ranges = k → x r = .ok (a, r') → Legal r' ∧ r'.ranges = k' ∧ Q a

/-- Whatever is read changes nothing that matters. -/
def Quiet (x : ReaderM α) : Prop := ∀ k, Reads k x k fun _ => True

private theorem reads_pure {a : α} {Q : α → Prop} (h : Q a) : Reads k (pure a) k Q := by
  intro r b r' hr hk heq
  cases heq
  exact ⟨hr, hk, h⟩

theorem Reads.bind {x : ReaderM α} {f : α → ReaderM β} {Q : α → Prop} {R : β → Prop}
    (hx : Reads k x k' Q) (hf : ∀ a, Q a → Reads k' (f a) k'' R) : Reads k (x >>= f) k'' R := by
  intro r b r'' hr hk heq
  have hbind : (x >>= f) r = (x r >>= fun p => f p.1 p.2) := rfl
  rw [hbind] at heq
  cases hread : x r with
  | error c =>
    rw [hread] at heq
    cases heq
  | ok p =>
    rw [hread] at heq
    obtain ⟨hr', hk', ha⟩ := hx r p.1 p.2 hr hk hread
    exact hf p.1 ha p.2 b r'' hr' hk' heq

theorem Reads.mono {x : ReaderM α} {Q R : α → Prop} (h : Reads k x k' Q) (hQR : ∀ a, Q a → R a) :
    Reads k x k' R := by
  intro r a r' hr hk heq
  obtain ⟨hr', hk', ha⟩ := h r a r' hr hk heq
  exact ⟨hr', hk', hQR a ha⟩

private theorem reads_throw {c : Complaint} {Q : α → Prop} : Reads k (throw c) k' Q := by
  intro r a r' _ _ heq
  cases heq

private theorem reads_get_bind {f : Reader → ReaderM β} {R : β → Prop}
    (hf : ∀ r, Legal r → r.ranges = k → Reads k (f r) k' R) : Reads k (get >>= f) k' R :=
  fun r b r' hr hk heq => hf r hr hk r b r' hr hk heq

private theorem reads_modify {g : Reader → Reader}
    (h : ∀ r, Legal r → r.ranges = k → Legal (g r) ∧ (g r).ranges = k') :
    Reads k (modify g) k' fun _ => True := by
  intro r a r' hr hk heq
  cases heq
  exact ⟨(h r hr hk).1, (h r hr hk).2, trivial⟩

private theorem reads_fail {cause : Cause} {Q : α → Prop} : Reads k (fail cause) k' Q :=
  reads_get_bind fun _ _ _ => reads_throw

private theorem reads_unexpected {context : Bytes} {Q : α → Prop} :
    Reads k (unexpected t context) k' Q := by
  unfold unexpected
  split
  · exact reads_get_bind fun _ _ _ => reads_fail
  · exact reads_fail

theorem Quiet.pure (a : α) : Quiet (Pure.pure a : ReaderM α) := fun _ => reads_pure trivial

theorem Quiet.bind {x : ReaderM α} {f : α → ReaderM β} (hx : Quiet x) (hf : ∀ a, Quiet (f a)) :
    Quiet (x >>= f) := fun k => (hx k).bind fun a _ => hf a k

theorem Quiet.fail (cause : Cause) : Quiet (ReaderM.fail cause : ReaderM α) := fun _ => reads_fail

theorem Quiet.unexpected (t : Token) (context : Bytes) :
    Quiet (ReaderM.unexpected t context : ReaderM α) := fun _ => reads_unexpected

private theorem Quiet.get_bind {f : Reader → ReaderM β} (hf : ∀ r, Legal r → Quiet (f r)) :
    Quiet (get >>= f) := fun k => reads_get_bind fun r hr _ => hf r hr k

theorem Quiet.modify {g : Reader → Reader}
    (h : ∀ r, Legal r → Legal (g r) ∧ (g r).ranges = r.ranges) : Quiet (modify g) :=
  fun _ => reads_modify fun r hr hk => ⟨(h r hr).1, (h r hr).2.trans hk⟩

/-! ### Tokens -/

private theorem reads_look : Reads k look k Token.Clear := by
  intro r t r' hr hk heq
  unfold look at heq
  split at heq
  · cases heq
    exact ⟨hr, hk, hr.reach⟩
  · rename_i t' rest hrest
    obtain ⟨rfl, rfl⟩ := Prod.mk.inj (Except.ok.inj heq)
    have ht' : t'.Clear := hr.rest t' (by simp [hrest])
    split
    · exact ⟨⟨hr.rest, ht', hr.trees⟩, hk, ht'⟩
    · exact ⟨hr, hk, ht'⟩

private theorem quiet_advance : Quiet advance := by
  refine .modify fun r hr => ?_
  split
  · rename_i t t' rest hrest
    refine ⟨⟨fun u hu => hr.rest u ?_, hr.reach, hr.trees⟩, rfl⟩
    rw [hrest]
    exact List.mem_cons_of_mem _ hu
  · exact ⟨hr, rfl⟩

private theorem reads_lookPast : Reads k lookPast k Token.Clear := by
  refine Reads.bind (reads_modify fun r hr hk => ?_) fun _ _ => reads_look
  exact ⟨⟨fun t ht => hr.rest t ((List.dropWhile_sublist _).mem ht), hr.reach, hr.trees⟩, hk⟩

private theorem reads_nextPast : Reads k nextPast k Token.Clear :=
  reads_lookPast.bind fun _ ht => (quiet_advance k).bind fun _ _ => reads_pure ht

private theorem quiet_look : Quiet look := fun _ => reads_look.mono fun _ _ => trivial

private theorem quiet_lookPast : Quiet lookPast := fun _ => reads_lookPast.mono fun _ _ => trivial

private theorem quiet_nextPast : Quiet nextPast := fun _ => reads_nextPast.mono fun _ _ => trivial

private theorem quiet_expect (kind : Token.Kind) (context : Bytes) :
    Quiet (expect kind context) := by
  refine quiet_nextPast.bind fun t => ?_
  split
  · exact .pure t
  · exact .unexpected t context

private theorem quiet_orFail (x : Except Cause α) : Quiet (orFail x) := by
  cases x with
  | ok a => exact .pure a
  | error cause => exact .fail cause

private theorem quiet_unquote (t : Token) : Quiet (unquote t) := by
  unfold unquote
  split
  · exact .pure _
  · exact .fail _

private theorem quiet_restore {start : List Token} (h : ∀ t ∈ start, t.Clear) :
    Quiet (modify fun r => { r with rest := start }) :=
  .modify fun _ hr => ⟨⟨h, hr.reach, hr.trees⟩, rfl⟩

private theorem quiet_declare (name : Bytes) : Quiet (declare name) :=
  .modify fun _ hr => ⟨⟨hr.rest, hr.reach, hr.trees⟩, rfl⟩

private theorem quiet_inParens {body : ReaderM α} (h : Quiet body) : Quiet (inParens body) := by
  have hmodify (n : Nat) : Quiet (modify fun r => { r with parens := n }) :=
    .modify fun _ hr => ⟨⟨hr.rest, hr.reach, hr.trees⟩, rfl⟩
  refine .get_bind fun r _ => ?_
  dsimp only
  split
  · exact .fail _
  · exact (hmodify _).bind fun _ => h.bind fun a => (hmodify _).bind fun _ => .pure a

/-! ### Pipelines -/

private theorem quiet_takeFields : Quiet takeFields := by
  refine quiet_look.bind fun t => .get_bind fun r _ => ?_
  refine Quiet.bind (.modify fun r hr => ?_) fun _ => ?_
  · exact ⟨⟨fun u hu => hr.rest u (List.mem_of_mem_drop hu), hr.reach, hr.trees⟩, rfl⟩
  · split
    · exact .pure _
    · exact quiet_look.bind fun _ => .pure _

private theorem quiet_withFields (x : Operand) : Quiet (withFields x) := by
  refine quiet_takeFields.bind fun (pos, names) => ?_
  dsimp only
  split
  · exact .pure _
  · split
    · exact .pure _
    · exact .pure _
    · split
      · exact .fail _
      · exact .pure _

private theorem quiet_useVariable (t : Token) : Quiet (useVariable t) := by
  refine .get_bind fun r _ => ?_
  split
  · exact .pure _
  · exact .fail _

private theorem quiet_constant (t : Token) : Quiet (constant t) :=
  (quiet_orFail _).bind fun _ => .pure _

private theorem quiet_declarations (context : Bytes) (count : Nat) (seen : List Bytes) :
    Quiet (declarations context count seen) := by
  induction count generalizing seen with
  | zero => exact .pure _
  | succ count ih =>
    rw [declarations]
    refine quiet_lookPast.bind fun v => ?_
    split
    · exact .pure _
    · refine .get_bind fun r hr => quiet_advance.bind fun _ => quiet_look.bind fun _ =>
        quiet_lookPast.bind fun t => ?_
      split
      · exact quiet_advance.bind fun _ => (quiet_declare _).bind fun _ => .pure _
      · split
        · refine quiet_advance.bind fun _ => (quiet_declare _).bind fun _ => ?_
          split
          · refine quiet_lookPast.bind fun t => ?_
            split
            · exact ih _
            · exact .fail _
          · exact .fail _
        · exact (quiet_restore hr.rest).bind fun _ => .pure _

private theorem quiet_checkPipeline (context : Bytes) (commands : List Command) :
    Quiet (checkPipeline context commands) := by
  unfold checkPipeline
  split
  · exact .fail _
  · split
    · exact .fail _
    · exact .pure _

structure PipelineReaders (fuel : Nat) : Prop where
  pipeline : ∀ context close, Quiet (pipeline context close fuel)
  commands : ∀ context close, Quiet (commands context close fuel)
  operands : Quiet (operands fuel)
  operand? : Quiet (operand? fuel)
  term? : Quiet (term? fuel)

private theorem pipelineReaders (fuel : Nat) : PipelineReaders fuel := by
  induction fuel with
  | zero =>
    exact ⟨fun _ _ => .fail _, fun _ _ => .fail _, .fail _, .fail _, .fail _⟩
  | succ fuel ih =>
    refine ⟨fun context close => ?_, fun context close => ?_, ?_, ?_, ?_⟩
    · rw [ReaderM.pipeline]
      exact quiet_lookPast.bind fun t => (quiet_declarations _ _ _).bind fun _ =>
        (ih.commands _ _).bind fun cs => (quiet_checkPipeline _ _).bind fun _ => .pure _
    · rw [ReaderM.commands]
      refine quiet_lookPast.bind fun t => ?_
      split
      · exact quiet_advance.bind fun _ => .pure _
      · split
        · refine ih.operands.bind fun xs => ?_
          split
          · exact .fail _
          · exact (ih.commands _ _).bind fun _ => .pure _
        · exact .unexpected _ _
    · rw [ReaderM.operands]
      refine ih.operand?.bind fun x => quiet_look.bind fun t => ?_
      split
      · exact quiet_advance.bind fun _ => ih.operands.bind fun _ => .pure _
      · exact .pure _
      · exact .pure _
      · exact quiet_advance.bind fun _ => .pure _
      · exact .unexpected _ _
    · rw [ReaderM.operand?]
      refine ih.term?.bind fun x => ?_
      split
      · exact (quiet_withFields _).bind fun _ => .pure _
      · exact .pure _
    · rw [ReaderM.term?]
      refine quiet_lookPast.bind fun t => ?_
      split
      · refine quiet_advance.bind fun _ => ?_
        split
        · exact .pure _
        · exact .fail _
      · exact quiet_advance.bind fun _ => .pure _
      · exact quiet_advance.bind fun _ => .pure _
      · exact quiet_advance.bind fun _ => (quiet_useVariable t).bind fun _ => .pure _
      · exact quiet_advance.bind fun _ => .pure _
      · exact quiet_advance.bind fun _ => .pure _
      · exact quiet_advance.bind fun _ => (quiet_constant t).bind fun _ => .pure _
      · exact quiet_advance.bind fun _ => (quiet_constant t).bind fun _ => .pure _
      · exact quiet_advance.bind fun _ => (quiet_constant t).bind fun _ => .pure _
      · exact quiet_advance.bind fun _ => (quiet_inParens (ih.pipeline _ _)).bind fun _ => .pure _
      · exact quiet_advance.bind fun _ => (quiet_unquote t).bind fun _ => .pure _
      · exact quiet_advance.bind fun _ => (quiet_unquote t).bind fun _ => .pure _
      · exact .pure _

private theorem quiet_pipeline (context : Bytes) (close : Token.Kind) (fuel : Nat) :
    Quiet (pipeline context close fuel) := (pipelineReaders fuel).pipeline context close

/-! ### Templates -/

def Item.Formed (inRange : Prop) : Item → Prop
  | .node n => n.Formed inRange
  | .clause _ => True

private theorem quiet_templateName (t : Token) (context : Bytes) :
    Quiet (templateName t context) := by
  unfold templateName
  split
  · exact quiet_unquote t
  · exact .unexpected t context

private theorem quiet_addTree {name : Bytes} {ns : List Node} (h : nodesFormed False ns) :
    Quiet (addTree name ns) := by
  refine .get_bind fun r hr => ?_
  have hkeep : Quiet (modify fun r' => { r' with trees := Dict.insert r.trees name ns }) := by
    refine .modify fun r' hr' => ⟨⟨hr'.rest, hr'.reach, fun e he => ?_⟩, rfl⟩
    rcases Dict.mem_insert he with rfl | hold
    · exact h
    · exact hr.trees e hold
  dsimp only
  split
  · exact hkeep
  · split
    · exact hkeep
    · split
      · exact .pure _
      · exact .fail _

private theorem reads_inNewScope {body : ReaderM α} {Q : α → Prop} (h : Reads 0 body 0 Q) :
    Reads k (inNewScope body) k Q := by
  refine reads_get_bind fun outer houter hk => ?_
  have henter : Reads k (set { outer with vars := ["$"], ranges := 0, actionLine := none }) 0
      fun _ => True := by
    intro r a r' _ _ heq
    cases heq
    exact ⟨⟨houter.rest, houter.reach, houter.trees⟩, rfl, trivial⟩
  refine henter.bind fun _ _ => h.bind fun a ha => ?_
  refine Reads.bind (reads_modify fun r hr _ => ?_) fun _ _ => reads_pure ha
  exact ⟨⟨hr.rest, hr.reach, hr.trees⟩, hk⟩

private theorem quiet_setActionLine (line : Option Nat) :
    Quiet (modify fun r => { r with actionLine := line }) :=
  .modify fun _ hr => ⟨⟨hr.rest, hr.reach, hr.trees⟩, rfl⟩

private theorem quiet_setVars (vars : List Bytes) : Quiet (modify fun r => { r with vars }) :=
  .modify fun _ hr => ⟨⟨hr.rest, hr.reach, hr.trees⟩, rfl⟩

private theorem reads_jump {word : Bytes} {n : Node} (h : 0 < k → n.Formed (0 < k)) :
    Reads k (jump word n) k (Item.Formed (0 < k)) := by
  refine (quiet_nextPast k).bind fun t _ => ?_
  split
  · exact reads_unexpected
  · refine reads_get_bind fun r _ hk => ?_
    split
    · exact reads_fail
    · rename_i hranges
      exact reads_pure (h (Nat.pos_of_ne_zero (hk ▸ hranges)))

private theorem reads_otherwiseClause : Reads k otherwiseClause k (Item.Formed (0 < k)) := by
  refine (quiet_lookPast k).bind fun t _ => ?_
  split
  · exact reads_pure trivial
  · exact (quiet_expect _ _ k).bind fun _ _ => reads_pure trivial

/-- The readers of nodes between `k` ranges, for every `k`. -/
structure NodeReaders (fuel : Nat) : Prop where
  nodes : ∀ k, Reads k (nodes fuel) k fun p => nodesFormed (0 < k) p.1
  item : ∀ k, Reads k (item fuel) k (Item.Formed (0 < k))
  action : ∀ k, Reads k (action fuel) k (Item.Formed (0 < k))
  block : ∀ k, Reads k (block fuel) k (Item.Formed (0 < k))
  call : ∀ k, Reads k (call fuel) k (Item.Formed (0 < k))
  branch : ∀ kind k, Reads k (branch kind fuel) k (Node.Formed (0 < k))
  range : ∀ k, Reads k (range fuel) k (Node.Formed (0 < k))
  lastNodes : ∀ k, Reads k (lastNodes fuel) k (nodesFormed (0 < k))

section Step

variable {fuel : Nat} (ih : NodeReaders fuel)
include ih

private theorem reads_nodes_succ (k : Nat) :
    Reads k (nodes (fuel + 1)) k fun p => nodesFormed (0 < k) p.1 := by
  rw [nodes]
  refine (quiet_lookPast k).bind fun t _ => ?_
  split
  · exact reads_fail
  · refine (ih.item k).bind fun x hx => ?_
    split
    · exact reads_pure trivial
    · exact (ih.nodes k).bind fun p hp => reads_pure ⟨hx, hp⟩

private theorem reads_item_succ (k : Nat) : Reads k (item (fuel + 1)) k (Item.Formed (0 < k)) := by
  rw [item]
  refine reads_nextPast.bind fun t ht => ?_
  split
  · rename_i hkind
    exact reads_pure (ht hkind)
  · refine (quiet_setActionLine _ k).bind fun _ _ => (ih.action k).bind fun x hx => ?_
    exact (quiet_setActionLine _ k).bind fun _ _ => reads_pure hx
  · exact reads_unexpected

private theorem reads_action_succ (k : Nat) :
    Reads k (action (fuel + 1)) k (Item.Formed (0 < k)) := by
  rw [action]
  refine (quiet_lookPast k).bind fun t _ => ?_
  split
  · exact (quiet_advance k).bind fun _ _ => ih.block k
  · exact (quiet_advance k).bind fun _ _ => reads_jump id
  · exact (quiet_advance k).bind fun _ _ => reads_jump id
  · exact (quiet_advance k).bind fun _ _ => reads_otherwiseClause
  · exact (quiet_advance k).bind fun _ _ =>
      (quiet_expect _ _ k).bind fun _ _ => reads_pure trivial
  · exact (quiet_advance k).bind fun _ _ => (ih.branch _ k).bind fun _ hn => reads_pure hn
  · exact (quiet_advance k).bind fun _ _ => (ih.branch _ k).bind fun _ hn => reads_pure hn
  · exact (quiet_advance k).bind fun _ _ => (ih.range k).bind fun _ hn => reads_pure hn
  · exact (quiet_advance k).bind fun _ _ => ih.call k
  · exact (quiet_pipeline _ _ _ k).bind fun _ _ => reads_pure trivial

private theorem reads_block_succ (k : Nat) :
    Reads k (block (fuel + 1)) k (Item.Formed (0 < k)) := by
  rw [block]
  refine (quiet_nextPast k).bind fun t _ => (quiet_templateName _ _ k).bind fun name _ => ?_
  refine (quiet_pipeline _ _ _ k).bind fun p _ => reads_get_bind fun r _ _ => ?_
  refine (reads_inNewScope (ih.nodes 0)).bind fun (body, c) hbody => ?_
  dsimp only
  split
  · exact reads_throw
  · have hformed : nodesFormed False body := by simpa using hbody
    exact (quiet_addTree hformed k).bind fun _ _ => reads_pure trivial

omit ih in
private theorem reads_call_succ (k : Nat) : Reads k (call (fuel + 1)) k (Item.Formed (0 < k)) := by
  rw [call]
  refine (quiet_nextPast k).bind fun t _ => (quiet_templateName _ _ k).bind fun name _ => ?_
  refine (quiet_lookPast k).bind fun d _ => ?_
  split
  · exact (quiet_advance k).bind fun _ _ => reads_pure trivial
  · exact (quiet_pipeline _ _ _ k).bind fun _ _ => reads_pure trivial

private theorem reads_branch_succ (kind : Branching) (k : Nat) :
    Reads k (branch kind (fuel + 1)) k (Node.Formed (0 < k)) := by
  unfold branch
  refine reads_get_bind fun r _ _ => ?_
  refine (quiet_pipeline _ _ _ k).bind fun p _ => (ih.nodes k).bind fun (body, c) hbody => ?_
  have hlast (otherwise : List Node) (h : nodesFormed (0 < k) otherwise) :
      Reads k (do modify fun r' => { r' with vars := r.vars }; pure (.branch kind p body otherwise))
        k (Node.Formed (0 < k)) :=
    (quiet_setVars r.vars k).bind fun _ _ => reads_pure ⟨hbody, h⟩
  cases c with
  | close => exact hlast [] trivial
  | otherwise =>
    refine (quiet_look k).bind fun t _ =>
      iteInduction (motive := fun x => Reads k x k _) (fun _ => ?_) fun _ => ?_
    · exact (quiet_advance k).bind fun _ _ =>
        (ih.branch kind k).bind fun n hn => hlast [n] ⟨hn, trivial⟩
    · exact (ih.lastNodes k).bind hlast

private theorem reads_range_succ (k : Nat) :
    Reads k (range (fuel + 1)) k (Node.Formed (0 < k)) := by
  unfold range
  refine reads_get_bind fun r _ _ => (quiet_pipeline _ _ _ k).bind fun p _ => ?_
  have henter : Reads k (modify fun r' => { r' with ranges := r'.ranges + 1 }) (k + 1)
      fun _ => True :=
    reads_modify fun r hr hk => ⟨⟨hr.rest, hr.reach, hr.trees⟩, congrArg (· + 1) hk⟩
  have hexit : Reads (k + 1) (modify fun r' => { r' with ranges := r'.ranges - 1 }) k
      fun _ => True :=
    reads_modify fun r hr hk => ⟨⟨hr.rest, hr.reach, hr.trees⟩, by simp [hk]⟩
  refine henter.bind fun _ _ => (ih.nodes (k + 1)).bind fun (body, c) hbody =>
    hexit.bind fun _ _ => ?_
  have hformed : nodesFormed True body := by simpa using hbody
  have hlast (otherwise : List Node) (h : nodesFormed (0 < k) otherwise) :
      Reads k (do modify fun r' => { r' with vars := r.vars }; pure (.range p body otherwise))
        k (Node.Formed (0 < k)) :=
    (quiet_setVars r.vars k).bind fun _ _ => reads_pure ⟨hformed, h⟩
  cases c with
  | close => exact hlast [] trivial
  | otherwise => exact (ih.lastNodes k).bind hlast

private theorem reads_lastNodes_succ (k : Nat) :
    Reads k (lastNodes (fuel + 1)) k (nodesFormed (0 < k)) := by
  rw [lastNodes]
  refine (ih.nodes k).bind fun (body, c) hbody => ?_
  dsimp only
  split
  · exact reads_pure hbody
  · exact reads_fail

end Step

private theorem nodeReaders (fuel : Nat) : NodeReaders fuel := by
  induction fuel with
  | zero =>
    exact ⟨fun _ => reads_fail, fun _ => reads_fail, fun _ => reads_fail, fun _ => reads_fail,
      fun _ => reads_fail, fun _ _ => reads_fail, fun _ => reads_fail, fun _ => reads_fail⟩
  | succ fuel ih =>
    exact ⟨reads_nodes_succ ih, reads_item_succ ih, reads_action_succ ih, reads_block_succ ih,
      reads_call_succ, reads_branch_succ ih, reads_range_succ ih, reads_lastNodes_succ ih⟩

private theorem quiet_definition (fuel : Nat) : Quiet (definition fuel) := by
  refine fun k => reads_inNewScope ?_
  refine (quiet_nextPast 0).bind fun t _ => (quiet_templateName _ _ 0).bind fun name _ => ?_
  refine (quiet_expect _ _ 0).bind fun _ _ =>
    ((nodeReaders fuel).nodes 0).bind fun (body, c) hbody => ?_
  dsimp only
  split
  · have hformed : nodesFormed False body := by simpa using hbody
    exact quiet_addTree hformed 0
  · exact reads_fail

private theorem quiet_startsDefinition : Quiet startsDefinition := by
  refine quiet_look.bind fun t => ?_
  split
  · exact .pure _
  · refine .get_bind fun r hr => quiet_advance.bind fun _ => quiet_nextPast.bind fun w => ?_
    split
    · exact .pure _
    · exact (quiet_restore hr.rest).bind fun _ => .pure _

private theorem reads_document (fuel : Nat) : Reads 0 (document fuel) 0 (nodesFormed False) := by
  induction fuel with
  | zero => exact reads_fail
  | succ fuel ih =>
    rw [document]
    refine (quiet_look 0).bind fun t _ => ?_
    split
    · exact reads_pure trivial
    · refine (quiet_startsDefinition 0).bind fun starts _ => ?_
      split
      · exact (quiet_definition fuel 0).bind fun _ _ => ih
      · refine ((nodeReaders fuel).item 0).bind fun x hx => ?_
        split
        · exact reads_fail
        · rename_i n
          have hn : n.Formed False := by simpa [Item.Formed] using hx
          exact ih.bind fun rest hrest => reads_pure ⟨hn, hrest⟩

end ReaderM

theorem Trees.formed_of_ofText {name text : Bytes} {trees : Trees}
    (h : Trees.ofText name text = .ok trees) : ∀ e ∈ trees, nodesFormed False e.2 := by
  have hclear (t : Token) (ht : t ∈ Token.ofText text) : t.Clear := Token.clear_of_mem_scan ht
  have hreach : ((Token.ofText text).headD default).Clear := by
    cases hall : Token.ofText text with
    | nil => exact fun _ => by decide
    | cons t rest => exact hclear t (by simp [hall])
  let whole : ReaderM Trees := do
    let nodes ← ReaderM.document (8 * ((Token.ofText text).length + 1))
    ReaderM.addTree name nodes
    return (← get).trees
  have hwhole : ReaderM.Reads 0 whole 0 fun trees => ∀ e ∈ trees, nodesFormed False e.2 := by
    refine (ReaderM.reads_document _).bind fun nodes hnodes => ?_
    refine (ReaderM.quiet_addTree hnodes 0).bind fun _ _ => ?_
    exact ReaderM.reads_get_bind fun r hr _ => ReaderM.reads_pure hr.trees
  let start : Reader := { rest := Token.ofText text, reach := (Token.ofText text).headD default }
  have hstart : ReaderM.Legal start := ⟨hclear, hreach, by simp [start]⟩
  have hrun : Prod.fst <$> whole start = .ok trees := h
  cases hread : whole start with
  | error c =>
    rw [hread] at hrun
    cases hrun
  | ok p =>
    rw [hread] at hrun
    obtain rfl := Except.ok.inj hrun
    exact (hwhole start p.1 p.2 hstart rfl hread).2.2

end Template

end EngineHost
