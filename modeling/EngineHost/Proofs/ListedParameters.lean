import EngineHost.Proofs.TemplateForm
import EngineHost.Proofs.WatchedRun

/-!
# Listed parameters

A program whose templates look up nothing but listed names among the parameters never lacks a
parameter that is not listed. This holds for operands and pipelines, from these for nodes, and for
templates that run one another by induction on their depth.
-/

namespace EngineHost.Template

open Program (parameters)

namespace Watch

open RunM

variable {W : Watch} {jumps : Stop → Prop} {N : List Bytes} {k : Reach} {c dot : Cell}

/-! ## Pipelines -/

private theorem finds_asText (c : Cell) : Finds W.params W.listed k (asText c) := by
  unfold asText
  split
  · exact fun _ h => by cases h
  · split
    · exact Cell.within_inner trivial
    · exact fun _ h => by cases h
    · exact fun _ h => by cases h

private theorem keeps_typed (wantsText : Bool) (hc : c.Within W.params k) :
    W.Keeps jumps N (argument.typed wantsText c) fun c' _ => c'.Within W.params k := by
  unfold argument.typed
  split
  · exact keeps_found (finds_asText c)
  · exact keeps_pure hc

private theorem keeps_fields {names : List Bytes} (hasArguments : Bool) (hc : c.Within W.params k)
    (hnames : (k.asks names).all W.listed.contains = true) :
    W.Keeps jumps N (orFail (fields hasArguments c names)) fun c' _ =>
      c'.Within W.params (k.fields names) := by
  have hlisted : ∀ x ∈ k.asks names, x ∈ W.listed := by simpa using hnames
  exact keeps_found (finds_fields hasArguments hc hlisted)

private theorem keeps_noArguments (x : Operand) (given : Bool) :
    W.Keeps jumps N (noArguments x given) fun _ N' => N' = N := by
  unfold noArguments
  split
  · exact keeps_fail fun _ h => by cases h
  · exact keeps_pure rfl

private theorem keeps_checkArity (f : Builtin) (given : Nat) (last : Option Cell) :
    W.Keeps jumps N (checkArity f given last) fun _ N' => N' = N := by
  unfold checkArity
  generalize given + (if last.isSome = true then 1 else 0) = count
  dsimp only
  split
  · split
    · exact keeps_fail fun _ h => by cases h
    · exact keeps_pure rfl
  · split
    · exact keeps_pure rfl
    · exact keeps_fail fun _ h => by cases h

private theorem keeps_applyAt {f : Builtin} {args : List Cell} {ks : List Reach} (site : Spot)
    (hargs : List.Forall₂ (Cell.Within W.params) args ks) :
    W.Keeps jumps N (applyAt site f args) fun c _ => c.Within W.params (f.reach ks) := by
  unfold applyAt
  split
  · rename_i c hc
    exact keeps_pure (apply_within hargs hc)
  · exact (keeps_fail fun _ h => by cases h).after_visit

private theorem keeps_refuseCall (site : Spot) (name : Bytes) (callee : Cell) :
    W.Keeps jumps N (refuseCall site name callee) fun c _ => c.Within W.params k := by
  refine Keeps.after_visit ?_
  split
  · exact keeps_fail fun _ h => by cases h
  · exact keeps_fail fun _ h => by cases h

private theorem keeps_constant (text : Bytes) (n : Constant) :
    W.Keeps jumps N (orFail (constant text n)) fun c _ => c.Within W.params k := by
  cases n with
  | tooLarge => exact keeps_fail fun _ h => by cases h
  | _ => exact keeps_pure (Cell.within_inner trivial)

private theorem keeps_callOrApply {f : Builtin} {all : List Cell} {ks : List Reach}
    (hall : List.Forall₂ (Cell.Within W.params) all ks) (site : Spot) (name : Bytes) :
    W.Keeps jumps N
      (if f = .call then refuseCall site name (all.headD .absent) else applyAt site f all)
      fun c _ => c.Within W.params (f.reach ks) := by
  split
  · exact keeps_refuseCall _ _ _
  · exact keeps_applyAt site hall

private theorem within_passed {passed : Option Reach} {t : Cell} (ht : t.Within W.params {})
    (hlast : List.Forall₂ (Cell.Within W.params) [c] passed.toList) :
    List.Forall₂ (Cell.Within W.params) [t] passed.toList := by
  cases passed with
  | none => cases hlast
  | some k => exact .cons (ht.mono k.empty_le) .nil

private theorem last_within {last : Option Cell} {passed : Option Reach}
    (hlast : List.Forall₂ (Cell.Within W.params) last.toList passed.toList)
    (hc : c.Within W.params k) (hle : ∀ k' ∈ passed.toList, k' ≤ k) :
    (last.getD c).Within W.params k := by
  cases last with
  | none => exact hc
  | some c' =>
    cases passed with
    | none => cases hlast
    | some k' =>
      obtain ⟨hc', -⟩ := List.forall₂_cons.1 hlast
      exact hc'.mono (hle k' (by simp))

mutual

private theorem keeps_argument (hdot : dot.Within W.params k) (wantsText : Bool) (N : List Bytes) :
    ∀ x : Operand, x.covered W.holdings k W.listed = true →
      W.Keeps jumps N (argument dot wantsText x) fun c _ =>
        c.Within W.params (x.reach W.holdings k)
  | .dot pos, _ => by
    rw [argument, Operand.reach]
    exact (keeps_typed wantsText hdot).after_visit
  | .null pos, _ => by
    rw [argument]
    refine Keeps.after_visit ?_
    split
    · exact keeps_fail fun _ h => by cases h
    · exact keeps_pure Cell.within_absent
  | .bool pos b, _ => by
    rw [argument]
    refine Keeps.after_visit ?_
    split
    · exact keeps_fail fun _ h => by cases h
    · exact keeps_pure (Cell.within_inner trivial)
  | .number pos text n, _ => by
    rw [argument]
    refine Keeps.after_visit ?_
    split
    · exact keeps_fail fun _ h => by cases h
    · exact keeps_constant text n
  | .string pos quoted text, _ => by
    rw [argument]
    refine Keeps.after_visit (keeps_pure ?_)
    exact Cell.within_inner trivial
  | .field pos names, h => by
    rw [Operand.covered] at h
    rw [argument, Operand.reach]
    refine Keeps.after_visit ((keeps_fields false hdot h).bind fun c _ _ hc => ?_)
    exact keeps_typed wantsText hc
  | .var pos name names, h => by
    rw [Operand.covered] at h
    rw [argument, Operand.reach]
    refine Keeps.after_visit ((keeps_variableValue name).bind fun c _ _ hc => ?_)
    exact (keeps_fields false hc h).bind fun c' _ _ hc' => keeps_typed wantsText hc'
  | .function pos f, _ => by
    rw [argument, Operand.reach]
    refine Keeps.after_visit ((keeps_checkArity f 0 none).bind fun _ _ _ _ => ?_)
    exact (keeps_applyAt _ .nil).bind fun c _ _ hc => keeps_typed wantsText hc
  | .chain pos base names, h => by
    rw [Operand.covered, Bool.and_eq_true] at h
    rw [argument, Operand.reach]
    refine Keeps.after_visit ((keeps_argument hdot false N base h.1).bind fun c _ _ hc => ?_)
    exact (keeps_fields false hc h.2).bind fun c' _ _ hc' => keeps_typed wantsText hc'
  | .paren p, h => by
    rw [Operand.covered] at h
    rw [argument, Operand.reach]
    refine Keeps.after_visit ((keeps_evaluate hdot N p h).bind fun c _ _ hc => ?_)
    exact keeps_typed wantsText hc.1

private theorem keeps_arguments (hdot : dot.Within W.params k) (N : List Bytes) :
    ∀ xs : List Operand, operandsCovered W.holdings k W.listed xs = true →
      W.Keeps jumps N (arguments dot xs) fun cs _ =>
        List.Forall₂ (Cell.Within W.params) cs (operandsReach W.holdings k xs)
  | [], _ => by
    rw [arguments, operandsReach]
    exact keeps_pure .nil
  | x :: rest, h => by
    rw [operandsCovered, Bool.and_eq_true] at h
    rw [arguments, operandsReach]
    refine (keeps_argument hdot false N x h.1).bind fun c N' _ hc => ?_
    exact (keeps_arguments hdot N' rest h.2).bind fun cs _ _ hcs => keeps_pure (.cons hc hcs)

private theorem keeps_argumentsOf (hdot : dot.Within W.params k) (f : Builtin) (N : List Bytes) :
    ∀ xs : List Operand, operandsCovered W.holdings k W.listed xs = true →
      W.Keeps jumps N (argumentsOf dot f xs) fun cs _ =>
        List.Forall₂ (Cell.Within W.params) cs (operandsReach W.holdings k xs)
  | [], _ => by
    rw [argumentsOf, operandsReach]
    exact keeps_pure .nil
  | x :: rest, h => by
    rw [operandsCovered, Bool.and_eq_true] at h
    rw [argumentsOf, operandsReach]
    refine (keeps_argument hdot _ N x h.1).bind fun c N' _ hc => ?_
    exact (keeps_arguments hdot N' rest h.2).bind fun cs _ _ hcs => keeps_pure (.cons hc hcs)

private theorem keeps_decide (hdot : dot.Within W.params k) (stopsAt : Bool) (last : Option Cell)
    (passed : Option Reach)
    (hlast : List.Forall₂ (Cell.Within W.params) last.toList passed.toList) (N : List Bytes) :
    ∀ xs : List Operand, operandsCovered W.holdings k W.listed xs = true →
      W.Keeps jumps N (RunM.decide dot stopsAt last xs) fun c _ =>
        c.Within W.params (.joinAll (operandsReach W.holdings k xs ++ passed.toList))
  | [], _ => by
    rw [RunM.decide, operandsReach]
    refine keeps_pure (last_within hlast Cell.within_absent fun k' hk' => ?_)
    exact Reach.le_joinAll hk'
  | [x], h => by
    rw [operandsCovered, Bool.and_eq_true] at h
    rw [RunM.decide, operandsReach]
    refine (keeps_argument hdot false N x h.1).bind fun c _ _ hc => ?_
    have hc' := hc.mono (Reach.le_joinAll (List.mem_cons_self (l := [] ++ passed.toList)))
    split
    · exact keeps_pure hc'
    · refine keeps_pure (last_within hlast hc' fun k' hk' => ?_)
      exact Reach.le_joinAll (List.mem_cons_of_mem _ hk')
  | x :: y :: rest, h => by
    rw [operandsCovered, Bool.and_eq_true] at h
    rw [RunM.decide, operandsReach]
    · refine (keeps_argument hdot false N x h.1).bind fun c N' _ hc => ?_
      split
      · exact keeps_pure (hc.mono (Reach.le_joinAll List.mem_cons_self))
      · refine (keeps_decide hdot stopsAt last passed hlast N' (y :: rest) h.2).imp ?_
        exact fun c' _ _ hc' => hc'.mono Reach.joinAll_le_cons
    · simp

private theorem keeps_command (hdot : dot.Within W.params k) (last : Option Cell)
    (passed : Option Reach)
    (hlast : List.Forall₂ (Cell.Within W.params) last.toList passed.toList) (N : List Bytes) :
    ∀ c : Command, c.covered W.holdings k W.listed = true →
      W.Keeps jumps N (command dot last c) fun v _ =>
        v.Within W.params (c.reach W.holdings k passed)
  | .mk pos (.function fpos f) args, h => by
    rw [Command.covered, Bool.and_eq_true] at h
    rw [Command.reach]
    by_cases hconj : f = .conj
    · subst hconj
      rw [command]
      refine Keeps.after_visit ((keeps_checkArity _ _ _).bind fun _ N' _ _ => ?_)
      exact keeps_decide hdot false last passed hlast N' args h.2
    by_cases hdisj : f = .disj
    · subst hdisj
      rw [command]
      refine Keeps.after_visit ((keeps_checkArity _ _ _).bind fun _ N' _ _ => ?_)
      exact keeps_decide hdot true last passed hlast N' args h.2
    rw [command]
    · refine Keeps.after_visit ((keeps_checkArity _ _ _).bind fun _ N' _ _ => ?_)
      refine (keeps_argumentsOf hdot f N' args h.2).bind fun given N'' _ hgiven => ?_
      have hall {passedOn : List Cell}
          (h : List.Forall₂ (Cell.Within W.params) passedOn passed.toList) :
          List.Forall₂ (Cell.Within W.params) (given ++ passedOn)
            (operandsReach W.holdings k args ++ passed.toList) := List.rel_append hgiven h
      cases last with
      | none =>
        dsimp only
        rw [pure_bind]
        exact keeps_callOrApply (hall hlast) _ _
      | some c =>
        dsimp only
        split
        · have htext : W.Keeps jumps N'' (orFail (asText c)) fun t _ => t.Within W.params {} :=
            keeps_found (finds_asText c)
          refine htext.bind fun t _ _ ht => ?_
          rw [pure_bind]
          exact keeps_callOrApply (hall (within_passed ht hlast)) _ _
        · rw [pure_bind]
          exact keeps_callOrApply (hall hlast) _ _
    · exact hconj
    · exact hdisj
  | .mk _ (.field pos names) args, h => by
    rw [Command.covered, Operand.covered, Bool.and_eq_true] at h
    simp only [command, Command.reach, Operand.reach]
    exact (keeps_fields _ hdot h.1).after_visit
  | .mk _ (.chain pos base names) args, h => by
    rw [Command.covered, Operand.covered, Bool.and_eq_true, Bool.and_eq_true] at h
    simp only [command, Command.reach, Operand.reach]
    refine Keeps.after_visit ((keeps_argument hdot false N base h.1.1).bind fun c _ _ hc => ?_)
    exact keeps_fields _ hc h.1.2
  | .mk _ (.var pos name names) args, h => by
    rw [Command.covered, Operand.covered, Bool.and_eq_true] at h
    simp only [command, Command.reach, Operand.reach]
    refine Keeps.after_visit ((keeps_variableValue name).bind fun c _ _ hc => ?_)
    split
    · exact (keeps_noArguments _ _).bind fun _ _ _ _ => keeps_fields _ hc h.1
    · exact keeps_fields _ hc h.1
  | .mk _ (.paren p) args, h => by
    rw [Command.covered, Operand.covered, Bool.and_eq_true] at h
    simp only [command, Command.reach, Operand.reach]
    refine (keeps_noArguments _ _).bind fun _ _ _ _ => ?_
    exact (keeps_evaluate hdot _ p h.1).imp fun _ _ _ hc => hc.1
  | .mk _ (.null pos) args, _ => by
    rw [command]
    refine Keeps.after_visit ((keeps_noArguments _ _).bind fun _ _ _ _ => ?_)
    exact keeps_fail fun _ h => by cases h
  | .mk _ (.dot _) _, _ | .mk _ (.bool _ _) _, _ | .mk _ (.number _ _ _) _, _
  | .mk _ (.string _ _ _) _, _ => by
    simp only [command, Command.reach]
    refine Keeps.after_visit ((keeps_noArguments _ _).bind fun _ N' _ _ => ?_)
    exact keeps_argument hdot false N' _ (by simp only [Operand.covered])

private theorem keeps_commands (hdot : dot.Within W.params k) (last : Option Cell)
    (passed : Option Reach)
    (hlast : List.Forall₂ (Cell.Within W.params) last.toList passed.toList) (N : List Bytes) :
    ∀ cs : List Command, commandsCovered W.holdings k W.listed cs = true →
      W.Keeps jumps N (commands dot last cs) fun v _ =>
        v.Within W.params (commandsReach W.holdings k passed cs)
  | [], _ => by
    rw [commands, commandsReach]
    refine keeps_pure ?_
    cases passed with
    | none => exact last_within hlast Cell.within_absent (by simp)
    | some k' => exact last_within hlast Cell.within_absent (by simp [LE.le])
  | c :: rest, h => by
    rw [commandsCovered, Bool.and_eq_true] at h
    rw [commands, commandsReach]
    refine (keeps_command hdot last passed hlast N c h.1).bind fun v N' _ hv => ?_
    exact keeps_commands hdot (some v.inside) (some _) (.cons hv.inside .nil) N' rest h.2

private theorem keeps_evaluate (hdot : dot.Within W.params k) (N : List Bytes) :
    ∀ p : Pipeline, p.covered W.holdings k W.listed = true →
      W.Keeps jumps N (evaluate dot p) fun c N' =>
        c.Within W.params (p.reach W.holdings k) ∧ (p.assigns = false → p.vars.reverse <+: N')
  | .mk pos vars assigns cs, h => by
    rw [Pipeline.covered, Bool.and_eq_true] at h
    rw [evaluate, Pipeline.reach]
    refine Keeps.after_visit
      ((keeps_commands hdot none none .nil N cs h.1).bind fun c N' _ hc => ?_)
    have hvars : ∀ v ∈ (Pipeline.mk pos vars assigns cs).vars,
        c.Within W.params (W.holdings v) := by
      intro v hv
      have hle := List.all_eq_true.1 h.2 v hv
      exact hc.mono (of_decide_eq_true hle)
    refine (keeps_bindAll hvars).bind fun _ N'' _ hN'' => keeps_pure ⟨hc, fun hnew => ?_⟩
    rw [hN'' hnew]
    exact List.prefix_append _ _

end

/-! ## Ranges -/

private theorem keeps_eachItem {body : Cell → Cell → RunM Unit} {items : List (Cell × Cell)}
    (h : ∀ e ∈ items, W.Keeps jumps N (body e.1 e.2) fun _ N' => N' = N) :
    W.Keeps jumps N (eachItem body items) fun _ N' => N' = N := by
  induction items with
  | nil => exact keeps_pure rfl
  | cons e rest ih =>
    refine (h e List.mem_cons_self).bind fun _ N' _ hN' => ?_
    rw [hN']
    exact ih fun e he => h e (List.mem_cons_of_mem _ he)

private theorem keeps_eachNumber {body : Nat → RunM Unit}
    (h : ∀ i, W.Keeps jumps N (body i) fun _ N' => N' = N) (count start : Nat) :
    W.Keeps jumps N (eachNumber body count start) fun _ N' => N' = N := by
  induction count generalizing start with
  | zero => exact keeps_pure rfl
  | succ count ih =>
    refine (h start).bind fun _ N' _ hN' => ?_
    rw [hN']
    exact ih (start + 1)

private theorem Keeps.then_pure {x : RunM Unit} (h : W.Keeps jumps N x fun _ N' => N' = N)
    (b : Bool) :
    W.Keeps jumps N (x >>= fun _ => pure b) fun _ N' => N' = N :=
  h.bind fun _ _ _ hN' => keeps_pure hN'

private theorem keeps_each {p : Pipeline} {body : Cell → Cell → RunM Unit}
    (hc : c.Within W.params k)
    (hbody : ∀ key item, key.Within W.params {} → item.Within W.params k.item →
      W.Keeps jumps N (body key item) fun _ N' => N' = N) :
    W.Keeps jumps N (each p body c) fun _ N' => N' = N := by
  have hnumbers (d : Datum) (count : Nat) (make : Nat → Datum)
      (hmake : ∀ i, (make i).Inner W.params) :
      W.Keeps jumps N (each.numbers p body d count make) fun _ N' => N' = N := by
    unfold each.numbers
    split
    · exact keeps_fail fun _ h => by cases h
    · refine (keeps_eachNumber (fun i => ?_) count 0).then_pure _
      exact hbody _ _ Cell.within_absent (Cell.within_inner (hmake i))
  unfold each
  split
  · exact keeps_pure rfl
  · exact keeps_pure rfl
  · rename_i items beyond hvalue
    refine (keeps_eachItem fun e he => ?_).then_pure _
    obtain ⟨⟨v, i⟩, hmem, rfl⟩ := List.mem_map.1 he
    have hv : v ∈ items ++ beyond := List.mem_append_left _ (List.fst_mem_of_mem_zipIdx hmem)
    exact hbody _ _ (Cell.within_inner trivial) ((hc _ hvalue).smaller_of_list v hv).within
  · rename_i entries hvalue
    refine (keeps_eachItem fun e he => ?_).then_pure _
    obtain ⟨e, hmem, rfl⟩ := List.mem_map.1 he
    have hitem := ((hc _ hvalue).entry hmem).mono (k.field_le_item e.1)
    exact hbody _ _ (Cell.within_inner trivial) hitem
  · rename_i entries hvalue
    refine (keeps_eachItem fun e he => ?_).then_pure _
    obtain ⟨e, hmem, rfl⟩ := List.mem_map.1 he
    obtain ⟨hkey, hitem⟩ := (hc _ hvalue).smaller_of_mixed e hmem
    exact hbody _ _ hkey.within hitem.within
  · exact hnumbers _ _ _ fun _ => trivial
  · exact hnumbers _ _ _ fun _ => trivial
  · exact hnumbers _ _ _ fun _ => trivial
  · exact hnumbers _ _ _ fun _ => trivial
  · exact keeps_fail fun _ h => by cases h

private theorem keeps_setItem {p : Pipeline} {key item : Cell}
    (hnew : p.assigns = false → p.vars.reverse <+: N)
    (hkey : ∀ v ∈ p.vars, key.Within W.params (W.holdings v))
    (hitem : ∀ v ∈ p.vars, item.Within W.params (W.holdings v)) :
    W.Keeps jumps N (setItem p key item) fun _ N' => N' = N := by
  -- The innermost variables are those of the range.
  have hinnermost (depth : Nat) (hdepth : depth < p.vars.length) (hassigns : p.assigns = false)
      (name : Bytes) (hname : N[depth]? = some name) : name ∈ p.vars := by
    obtain ⟨outer, rfl⟩ := hnew hassigns
    rw [List.getElem?_append_left (by simpa using hdepth)] at hname
    exact List.mem_reverse.1 (List.mem_of_getElem? hname)
  unfold setItem
  split
  · exact keeps_pure rfl
  · rename_i v hvars _
    exact keeps_assign (hitem v (by simp [hvars]))
  · rename_i v w rest hvars _
    refine (keeps_assign (hkey v (by simp [hvars]))).bind fun _ N' _ hN' => ?_
    rw [hN']
    exact keeps_assign (hitem w (by simp [hvars]))
  · rename_i v hvars hassigns
    exact keeps_assignAt fun name hname =>
      hitem name (hinnermost 0 (by simp [hvars]) hassigns name hname)
  · rename_i v w rest hvars hassigns
    have hfirst : W.Keeps jumps N (assignAt 0 item) fun _ N' => N' = N :=
      keeps_assignAt fun name hname =>
        hitem name (hinnermost 0 (by simp [hvars]) hassigns name hname)
    refine hfirst.bind fun _ N' _ hN' => ?_
    rw [hN']
    exact keeps_assignAt fun name hname =>
      hkey name (hinnermost 1 (by simp [hvars]) hassigns name hname)

private theorem keeps_oneItem {p : Pipeline} {body : Cell → RunM Unit} {key item : Cell}
    (hset : W.Keeps (· = .leave) N (setItem p key item) fun _ N' => N' = N)
    (hbody : W.Keeps (fun _ => True) N (body item) fun _ _ => True) :
    W.Keeps (· = .leave) N (oneItem p body key item) fun _ N' => N' = N := by
  refine hset.bind fun _ N' _ hN' => ?_
  rw [hN']
  refine keeps_get_bind fun r _ hr => ?_
  rw [length_vars hr]
  refine Keeps.then_popTo ?_
  refine hbody.tryCatch (fun _ => rfl) fun s N' hs _ _ => ?_
  cases s with
  | failure f => exact absurd rfl (hs f)
  | leave => exact keeps_throw hs rfl
  | skip => exact keeps_pure trivial

private theorem keeps_runRange {p : Pipeline} {body : Cell → RunM Unit} {otherwise : RunM Unit}
    (hdot : dot.Within W.params k) (hp : p.covered W.holdings k W.listed = true)
    (hvars : ∀ v ∈ p.vars, (p.reach W.holdings k).item ≤ W.holdings v)
    (hbody : ∀ item N, item.Within W.params (p.reach W.holdings k).item →
      W.Keeps (fun _ => True) N (body item) fun _ _ => True)
    (hotherwise : ∀ N, W.Keeps jumps N otherwise fun _ _ => True) :
    W.Keeps jumps N (runRange p dot body otherwise) fun _ N' => N' = N := by
  refine keeps_get_bind fun r _ hr => ?_
  rw [length_vars hr]
  refine Keeps.then_popTo ?_
  have hinside : W.Keeps (fun s => s = .leave ∨ jumps s) N
      (do
        let c ← evaluate dot p
        if !(← each p (oneItem p body) c) then otherwise)
      fun _ _ => True := by
    refine (keeps_evaluate hdot N p hp).bind fun c N₁ _ hc => ?_
    have hitems : W.Keeps (fun s => s = .leave ∨ jumps s) N₁ (each p (oneItem p body) c)
        fun _ N' => N' = N₁ := by
      refine keeps_each hc.1 fun key item hkey hitem => ?_
      have hset : W.Keeps (· = .leave) N₁ (setItem p key item) fun _ N' => N' = N₁ :=
        keeps_setItem hc.2 (fun v _ => hkey.mono (Reach.empty_le _))
          fun v hv => hitem.mono (hvars v hv)
      exact (keeps_oneItem hset (hbody item N₁ hitem)).allow fun _ h => .inl h
    refine hitems.bind fun b N₂ _ _ => ?_
    split
    · exact (hotherwise N₂).allow fun _ h => .inr h
    · exact keeps_pure trivial
  refine hinside.tryCatch (fun _ => rfl) fun s N' hs hjump _ => ?_
  cases s with
  | failure f => exact absurd rfl (hs f)
  | leave => exact keeps_pure trivial
  | skip => exact keeps_throw hs (hjump.resolve_left (by simp))

/-! ## Templates -/

variable {params : Option Params} {Γ : Scope} {listed : List Bytes}

/-- Templates that are run keep the variables of the one that runs them. -/
structure CalleeKeeps (params : Option Params) (Γ : Scope) (listed : List Bytes)
    (callee : Callee) : Prop where
  keeps : ∀ {name run}, callee name = .ok run →
    ∀ (σ : Holdings) (jumps : Stop → Prop) (N : List Bytes) (c : Cell),
      c.Within params (Γ name "$") → Watch.Keeps ⟨params, σ, listed⟩ jumps N (run c) fun _ _ => True
  refuses : ∀ {name o}, callee name = .error o → o.Listed params listed

mutual

private theorem keeps_node {callee : Callee} (hcallee : CalleeKeeps params Γ listed callee)
    (template : Bytes) (inRange : Prop) (N : List Bytes) {dot : Cell} {k : Reach}
    (hdot : dot.Within params k) :
    ∀ n : Node, n.covered Γ template listed k = true → n.Formed inRange →
      Watch.Keeps ⟨params, Γ template, listed⟩ (fun _ => inRange) N (node callee dot n)
        fun _ _ => True
  | .text s, _, _ => by
    rw [node]
    exact (keeps_write s).forget
  | .action p, h, _ => by
    rw [Node.covered] at h
    rw [node]
    refine (keeps_evaluate hdot N p h).bind fun c N' _ _ => ?_
    split
    · exact (keeps_write _).forget
    · exact keeps_pure trivial
  | .branch kind p body otherwise, h, hformed => by
    rw [Node.covered, Bool.and_eq_true, Bool.and_eq_true] at h
    rw [node]
    refine (Keeps.inScope ?_).forget
    refine (keeps_evaluate hdot N p h.1.1).bind fun c N' _ hc => ?_
    split
    · cases kind with
      | test => exact keeps_nodes hcallee template inRange N' hdot body h.1.2 hformed.1
      | bind => exact keeps_nodes hcallee template inRange N' hc.1 body h.1.2 hformed.1
    · exact keeps_nodes hcallee template inRange N' hdot otherwise h.2 hformed.2
  | .range p body otherwise, h, hformed => by
    rw [Node.covered, Bool.and_eq_true, Bool.and_eq_true, Bool.and_eq_true] at h
    rw [node]
    have hvars : ∀ v ∈ p.vars, (p.reach (Γ template) k).item ≤ Γ template v :=
      fun v hv => of_decide_eq_true (List.all_eq_true.1 h.1.1.2 v hv)
    refine (keeps_runRange hdot h.1.1.1 hvars (fun item N hitem => ?_) fun N => ?_).forget
    · exact keeps_nodes hcallee template True N hitem body h.1.2 hformed.1
    · exact keeps_nodes hcallee template inRange N hdot otherwise h.2 hformed.2
  | .call pos name p, h, _ => by
    rw [node]
    refine Keeps.after_visit ?_
    have hrun : Watch.Keeps ⟨params, Γ template, listed⟩ (fun _ => inRange) N (orFail (callee name))
        fun run _ => ∀ N c, c.Within params (Γ name "$") →
          Watch.Keeps ⟨params, Γ template, listed⟩ (fun _ => inRange) N (run c) fun _ _ => True :=
      keeps_orFail (fun run hrun => hcallee.keeps hrun _ _) fun o ho => hcallee.refuses ho
    refine hrun.bind fun run N' _ hkeeps => ?_
    cases p with
    | none => exact hkeeps N' .absent Cell.within_absent
    | some p =>
      rw [Node.covered, Bool.and_eq_true] at h
      refine (keeps_evaluate hdot N' p h.1).bind fun c N'' _ hc => ?_
      exact hkeeps N'' c (hc.1.mono (of_decide_eq_true h.2))
  | .leave, _, hformed => by
    rw [node]
    exact keeps_throw (by simp) hformed
  | .skip, _, hformed => by
    rw [node]
    exact keeps_throw (by simp) hformed

private theorem keeps_nodes {callee : Callee} (hcallee : CalleeKeeps params Γ listed callee)
    (template : Bytes) (inRange : Prop) (N : List Bytes) {dot : Cell} {k : Reach}
    (hdot : dot.Within params k) :
    ∀ ns : List Node, nodesCovered Γ template listed k ns = true → nodesFormed inRange ns →
      Watch.Keeps ⟨params, Γ template, listed⟩ (fun _ => inRange) N (nodes callee dot ns)
        fun _ _ => True
  | [], _, _ => by
    rw [nodes]
    exact keeps_pure trivial
  | n :: rest, h, hformed => by
    rw [nodesCovered, Bool.and_eq_true] at h
    rw [nodes]
    refine (keeps_node hcallee template inRange N hdot n h.1 hformed.1).bind fun _ N' _ _ => ?_
    exact keeps_nodes hcallee template inRange N' hdot rest h.2 hformed.2

end

private theorem keeps_within {σ : Holdings} {template : Bytes} {body : RunM Unit}
    {Q : Unit → List Bytes → Prop} (hdot : dot.Within params (Γ template "$"))
    (hbody : Watch.Keeps ⟨params, Γ template, listed⟩ (fun _ => False) ["$"] body Q) :
    Watch.Keeps ⟨params, σ, listed⟩ jumps N (RunM.within template dot body)
      fun _ _ => True := by
  intro r hr hN
  let inner : Run := { r with template, vars := [("$", dot)] }
  have hinner : Watch.Fits ⟨params, Γ template, listed⟩ inner := by
    intro v hv
    obtain rfl := List.mem_singleton.1 hv
    exact hdot
  have hends := hbody inner hinner rfl
  have hstart : (RunM.within template dot body).run.run r =
      (body >>= fun _ => modify fun r' =>
        { r' with template := r.template, vars := r.vars }).run.run inner := rfl
  rw [hstart]
  cases hrun : body.run.run inner with
  | mk res r' =>
    rw [hrun] at hends
    cases res with
    | ok a =>
      rw [run_bind hrun]
      exact ⟨hr, suffix_of_eq hN, trivial⟩
    | error s =>
      rw [run_bind_error hrun]
      cases s with
      | failure f => exact hends
      | leave => exact hends.2.2.elim
      | skip => exact hends.2.2.elim

private theorem calleeKeeps {trees : Trees}
    (hcovered : ∀ e ∈ trees, nodesCovered Γ e.1 listed (Γ e.1 "$") e.2 = true)
    (hformed : ∀ e ∈ trees, nodesFormed False e.2) (depth : Nat) :
    CalleeKeeps params Γ listed (RunM.callee trees depth) := by
  induction depth with
  | zero =>
    refine ⟨fun h => (by cases h), fun h => ?_⟩
    obtain rfl := Except.error.inj h
    split <;> exact fun _ h => by cases h
  | succ depth ih =>
    refine ⟨fun {name run} h => ?_, fun {name o} h => ?_⟩
    · intro σ jumps N c hc
      cases hget : Dict.get? trees name with
      | none => simp [RunM.callee, hget] at h
      | some body =>
        obtain rfl : (fun dot => RunM.within name dot (nodes (RunM.callee trees depth) dot body)) =
            run := by simpa [RunM.callee, hget] using h
        have hmem := Dict.mem_of_get? hget
        exact keeps_within hc
          (keeps_nodes ih name False ["$"] hc body (hcovered _ hmem) (hformed _ hmem))
    · cases hget : Dict.get? trees name with
      | none =>
        obtain rfl : Obstacle.noTemplate name = o := by simpa [RunM.callee, hget] using h
        exact fun _ h => by cases h
      | some body => simp [RunM.callee, hget] at h

end Watch

namespace Program

variable {name text : Bytes} {p : Program} {Γ : Scope}

/-- Rendering fails because the parameters have no entry of a name. -/
def Lacks (p : Program) (params : Option Params) (key : Bytes) : Prop :=
  ∃ f, Template.render p.trees p.name (data params) = .error f ∧
    f.obstacle = .noEntry (parameters params) key

private theorem formed_of_read (h : read name text = .ok p) :
    ∀ e ∈ p.trees, nodesFormed False e.2 := by
  unfold read at h
  split at h
  · rename_i trees htrees
    obtain rfl := Except.ok.inj h
    exact Trees.formed_of_ofText htrees
  · cases h

theorem Lacks.listed (hread : read name text = .ok p) (hcovered : p.covered Γ = true)
    {params : Option Params} {key : Bytes} (h : p.Lacks params key) :
    key ∈ p.params ∧ Dict.get? (params.getD []) key = none := by
  obtain ⟨f, hf, hobstacle⟩ := h
  rw [covered, Bool.and_eq_true] at hcovered
  have htrees : ∀ e ∈ p.trees, nodesCovered Γ e.1 p.params (Γ e.1 "$") e.2 = true :=
    List.all_eq_true.1 hcovered.2
  have hformed := formed_of_read hread
  have hdata : (data params).Within params (Γ p.name "$") :=
    Cell.within_datum (.inl ⟨hcovered.1, rfl⟩)
  have hbody : nodesCovered Γ p.name p.params (Γ p.name "$") p.body = true ∧
      nodesFormed False p.body := by
    rw [body]
    cases hget : Dict.get? p.trees p.name with
    | none => exact ⟨rfl, trivial⟩
    | some nodes =>
      have hmem := Dict.mem_of_get? hget
      exact ⟨htrees _ hmem, hformed _ hmem⟩
  have hkeeps := Watch.keeps_nodes (Watch.calleeKeeps htrees hformed maxDepth) p.name False ["$"]
    hdata p.body hbody.1 hbody.2
  let start : Run := { template := p.name, spot := .operand (.dot 0), vars := [("$", data params)] }
  have hstart : Watch.Fits ⟨params, Γ p.name, p.params⟩ start := by
    intro v hv
    obtain rfl := List.mem_singleton.1 hv
    exact hdata
  have hends := hkeeps start hstart rfl
  simp only [Template.render] at hf
  cases hrun : (RunM.nodes (RunM.callee p.trees maxDepth) (data params) p.body).run.run start with
  | mk res last =>
    rw [show (Dict.get? p.trees p.name).getD [] = p.body from rfl, hrun] at hf
    rw [hrun] at hends
    cases res with
    | ok _ => cases hf
    | error s =>
      cases s with
      | failure g =>
        obtain rfl := Except.error.inj hf
        exact hends key hobstacle
      | leave => cases hf
      | skip => cases hf

/-- A program that is rendered with all parameters that it lists never lacks one, as long as it
looks up nothing else among the parameters. -/
theorem render_lacks_nothing (hread : read name text = .ok p) (hcovered : p.covered Γ = true)
    {params : Option Params} (hgiven : ∀ x ∈ p.params, Dict.has (params.getD []) x = true)
    (key : Bytes) : ¬p.Lacks params key := by
  intro hlacks
  obtain ⟨hlisted, hnone⟩ := hlacks.listed hread hcovered
  have hhas := hgiven key hlisted
  rw [Dict.has_eq_isSome, hnone] at hhas
  cases hhas

/-- A template that passes parameters, their mapping and the data on to conditions, ranges,
variables and another template. -/
def relay : Bytes :=
  ["define \"cell\"", ".id", "$.size", "end", "$n := .params.N", "$all := .params",
    "if and $n (gt (len .params.Name) 0)", "range $i, $e := .params.Items", "$i", "$e.id",
    "template \"cell\" $e", "end", "end", "with .params.Box", ".id", "$.params.N", "$all.N",
    "end", "(index .params \"Box\").id"].flatMap
    fun s => opening ++ Bytes.ofString s ++ "\x7d\x7d"

def relayScope : Scope := fun template v =>
  if template = "relay" then
    if v = "$" then { data := true } else if v = "$all" then { params := true } else {}
  else {}

/-- Parameters one of which lacks an entry itself. -/
def relayParams : Params :=
  [("Box", .map [("w", .int 1)]), ("Items", .list [.map [("id", .int 1), ("size", .int 2)]]),
    ("N", .int 3), ("Name", .string "x")]

theorem render_lacks_nothing_relay :
    ∃ p, read "relay" relay = .ok p ∧ p.covered relayScope = true ∧
      p.params = ["Box", "Items", "N", "Name"] ∧ (∀ key, ¬p.Lacks (some relayParams) key) ∧
        ∃ fault, p.render (some relayParams) = .error fault := by
  have hfacts : ((read "relay" relay).toOption.any fun p => p.covered relayScope &&
      p.params == [("Box" : Bytes), "Items", "N", "Name"] &&
        !(p.render (some relayParams)).isOk) = true := by
    decide +kernel
  cases hread : read "relay" relay with
  | error fault => simp [hread, Except.toOption] at hfacts
  | ok p =>
    obtain ⟨⟨hcovered, hparams⟩, hfails⟩ : (p.covered relayScope = true ∧
        p.params = ["Box", "Items", "N", "Name"]) ∧ (p.render (some relayParams)).isOk = false := by
      simpa [hread, Except.toOption] using hfacts
    have hgiven : ∀ x ∈ p.params, Dict.has ((some relayParams).getD []) x = true := by
      rw [hparams]
      decide
    refine ⟨p, rfl, hcovered, hparams, render_lacks_nothing hread hcovered hgiven, ?_⟩
    cases hrender : p.render (some relayParams) with
    | error fault => exact ⟨fault, rfl⟩
    | ok text => simp [hrender, Except.isOk, Except.toBool] at hfails

-- A parameter that is reached through the variable of the data is not listed.
example :
    ((read "t" (opening ++ Bytes.ofString "$.params.N\x7d\x7d")).toOption.any fun p =>
      p.params.isEmpty && !(p.render (some [])).isOk) = true := by
  decide +kernel

end Program

end EngineHost.Template
