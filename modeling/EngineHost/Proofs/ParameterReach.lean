import EngineHost.Proofs.Dictionary
import EngineHost.Proofs.FlatTemplate
import Mathlib.Data.List.Forall2

/-!
# Where the parameters get to

While a program is rendered, the whole data and the mapping of the parameters may be passed on: to
variables, as the current value, to other templates. A name is looked up among the parameters
wherever a field is taken of a value that may be that mapping. This is worked out on the syntax,
from what each variable of each template may hold.
-/

namespace EngineHost.Template

/-- What a value may be besides a part of a parameter. -/
structure Reach where
  /-- The data that the program is rendered for. -/
  data : Bool := false
  /-- The mapping of the parameters. -/
  params : Bool := false
deriving DecidableEq, Repr, Inhabited

namespace Reach

instance : LE Reach :=
  ⟨fun a b => (a.data → b.data) ∧ (a.params → b.params)⟩

instance : DecidableLE Reach := fun a b =>
  inferInstanceAs (Decidable ((a.data → b.data) ∧ (a.params → b.params)))

def join (a b : Reach) : Reach := ⟨a.data || b.data, a.params || b.params⟩

def joinAll (ks : List Reach) : Reach := ks.foldr join {}

def field (k : Reach) (name : Bytes) : Reach := ⟨false, k.data && name == "params"⟩

def fields (k : Reach) (names : List Bytes) : Reach := names.foldl field k

/-- The names that are looked up among the parameters when fields are taken one inside the other. -/
def asks (k : Reach) : List Bytes → List Bytes
  | [] => []
  | name :: rest => (if k.params then [name] else []) ++ (k.field name).asks rest

def item (k : Reach) : Reach := ⟨false, k.data⟩

theorem field_le_item (k : Reach) (name : Bytes) : k.field name ≤ k.item := by
  constructor <;> simp +contextual [field, item]

theorem empty_le (k : Reach) : {} ≤ k := by
  constructor <;> simp

theorem le_trans {a b c : Reach} (hab : a ≤ b) (hbc : b ≤ c) : a ≤ c :=
  ⟨fun h => hbc.1 (hab.1 h), fun h => hbc.2 (hab.2 h)⟩

theorem joinAll_le_cons {k : Reach} {ks : List Reach} : joinAll ks ≤ joinAll (k :: ks) := by
  constructor <;> simp +contextual [joinAll, join]

theorem le_joinAll {k : Reach} {ks : List Reach} (h : k ∈ ks) : k ≤ joinAll ks := by
  induction ks with
  | nil => cases h
  | cons k' ks ih =>
    rcases List.mem_cons.1 h with rfl | h
    · constructor <;> simp +contextual [joinAll, join]
    · exact le_trans (ih h) joinAll_le_cons

end Reach

def Builtin.reach (f : Builtin) (args : List Reach) : Reach :=
  match f, args with
  | .conj, _ | .disj, _ => .joinAll args
  | .index, k :: path => path.foldl (fun k _ => k.item) k
  | _, _ => {}

section Syntax

/-- What the variables of a template may hold. The variable `$` is the value that it runs on. -/
abbrev Holdings := Bytes → Reach

variable (σ : Holdings) (dot : Reach)

mutual

def Operand.reach : Operand → Reach
  | .dot _ => dot
  | .field _ names => dot.fields names
  | .var _ name names => (σ name).fields names
  | .function _ f => f.reach []
  | .chain _ base names => base.reach.fields names
  | .paren p => p.reach
  | _ => {}

def operandsReach : List Operand → List Reach
  | [] => []
  | x :: rest => x.reach :: operandsReach rest

def Command.reach (last : Option Reach) : Command → Reach
  | .mk _ (.function _ f) args => f.reach (operandsReach args ++ last.toList)
  | .mk _ x _ => x.reach

def commandsReach (last : Option Reach) : List Command → Reach
  | [] => last.getD {}
  | c :: rest => commandsReach (some (c.reach last)) rest

def Pipeline.reach : Pipeline → Reach
  | .mk _ _ _ cs => commandsReach none cs

end

variable (listed : List Bytes)

mutual

/-- Whether an operand looks up nothing but listed names among the parameters. -/
def Operand.covered : Operand → Bool
  | .field _ names => (dot.asks names).all listed.contains
  | .var _ name names => ((σ name).asks names).all listed.contains
  | .chain _ base names =>
    base.covered && ((base.reach σ dot).asks names).all listed.contains
  | .paren p => p.covered
  | _ => true

def operandsCovered : List Operand → Bool
  | [] => true
  | x :: rest => x.covered && operandsCovered rest

def Command.covered : Command → Bool
  | .mk _ head args => head.covered && operandsCovered args

def commandsCovered : List Command → Bool
  | [] => true
  | c :: rest => c.covered && commandsCovered rest

/-- Whether a pipeline looks up nothing but listed names, and its variables hold no more than they
may. -/
def Pipeline.covered : Pipeline → Bool
  | .mk _ vars _ cs => commandsCovered cs && vars.all fun v => commandsReach σ dot none cs ≤ σ v

end

end Syntax

abbrev Scope := Bytes → Holdings

section Nodes

variable (Γ : Scope) (template : Bytes) (listed : List Bytes)

mutual

/-- Whether a node of a template looks up nothing but listed names among the parameters. -/
def Node.covered (dot : Reach) : Node → Bool
  | .text _ => true
  | .action p => p.covered (Γ template) dot listed
  | .branch kind p body otherwise =>
    p.covered (Γ template) dot listed &&
      nodesCovered (if kind = .bind then p.reach (Γ template) dot else dot) body &&
        nodesCovered dot otherwise
  | .range p body otherwise =>
    p.covered (Γ template) dot listed &&
      (p.vars.all fun v => (p.reach (Γ template) dot).item ≤ Γ template v) &&
        nodesCovered (p.reach (Γ template) dot).item body && nodesCovered dot otherwise
  | .call _ name (some p) =>
    p.covered (Γ template) dot listed && p.reach (Γ template) dot ≤ Γ name "$"
  | .call _ _ none => true
  | .leave => true
  | .skip => true

def nodesCovered (dot : Reach) : List Node → Bool
  | [] => true
  | n :: rest => n.covered dot && nodesCovered dot rest

end

end Nodes

/-- Whether every name that the templates of a program look up among the parameters is listed. -/
def Program.covered (p : Program) (Γ : Scope) : Bool :=
  (Γ p.name "$").data && p.trees.all fun e => nodesCovered Γ e.1 p.params (Γ e.1 "$") e.2

/-! ## Values -/

open Program (parameters)

def Program.whole (params : Option Params) : Datum :=
  .map [("params", match params with
    | some entries => .map entries
    | none => .noMap)]

def Smaller (params : Option Params) (v : Value) : Prop := sizeOf v < sizeOf (params.getD [])

/-- A value that is neither the data nor the mapping of the parameters, nor holds them. -/
def Datum.Inner (params : Option Params) : Datum → Prop
  | .list items beyond => ∀ v ∈ items ++ beyond, Smaller params v
  | .map entries => sizeOf entries < sizeOf (params.getD [])
  | .noMap => params.isSome = true
  | .mixed entries => ∀ e ∈ entries, Smaller params e.1 ∧ Smaller params e.2
  | _ => True

def Datum.Within (params : Option Params) (d : Datum) (k : Reach) : Prop :=
  k.data = true ∧ d = Program.whole params ∨ k.params = true ∧ d = parameters params ∨
    d.Inner params

def Cell.Within (params : Option Params) (c : Cell) (k : Reach) : Prop :=
  ∀ d, c.value? = some d → d.Within params k

section Values

variable {params : Option Params} {k k' : Reach} {c : Cell} {d : Datum} {v : Value}

theorem Datum.Within.mono (h : d.Within params k) (hk : k ≤ k') : d.Within params k' := by
  rcases h with ⟨hdata, heq⟩ | ⟨hparams, heq⟩ | hinner
  · exact .inl ⟨hk.1 hdata, heq⟩
  · exact .inr (.inl ⟨hk.2 hparams, heq⟩)
  · exact .inr (.inr hinner)

theorem Cell.Within.mono (h : c.Within params k) (hk : k ≤ k') : c.Within params k' :=
  fun d hd => (h d hd).mono hk

theorem Cell.within_absent : Cell.absent.Within params k := nofun

theorem Cell.within_datum (h : d.Within params k) : (Cell.datum d).Within params k := by
  intro d' hd'
  obtain rfl := Option.some.inj hd'
  exact h

theorem Cell.within_inner (h : d.Inner params) : (Cell.datum d).Within params k :=
  within_datum (.inr (.inr h))

private theorem Cell.value?_place (v : Value) : (Cell.place v).value? = Datum.ofValue? v := by
  cases hv : Datum.ofValue? v <;> simp [Cell.value?, Cell.inside, hv]

private theorem Cell.value?_inside (c : Cell) : c.inside.value? = c.value? := by
  cases c with
  | place v => cases hv : Datum.ofValue? v <;> simp [Cell.value?, Cell.inside, hv]
  | _ => rfl

theorem Cell.Within.inside (h : c.Within params k) : c.inside.Within params k := by
  intro d hd
  rw [value?_inside] at hd
  exact h d hd

theorem Smaller.inner (hv : Smaller params v) (hd : Datum.ofValue? v = some d) :
    d.Inner params := by
  unfold Smaller at hv
  cases v with
  | list items =>
    obtain rfl := Option.some.inj hd
    intro v hmem
    rw [List.append_nil] at hmem
    have hlt := List.sizeOf_lt_of_mem hmem
    simp only [Value.list.sizeOf_spec] at hv
    unfold Smaller
    omega
  | map entries =>
    obtain rfl := Option.some.inj hd
    simp only [Value.map.sizeOf_spec] at hv
    simp only [Datum.Inner]
    omega
  | noMap =>
    obtain rfl := Option.some.inj hd
    cases params with
    | none => simp at hv
    | some entries => rfl
  | mixed entries =>
    obtain rfl := Option.some.inj hd
    intro e hmem
    have hlt := List.sizeOf_lt_of_mem hmem
    have hpair : sizeOf e = 1 + sizeOf e.1 + sizeOf e.2 := by
      obtain ⟨a, b⟩ := e
      simp
    simp only [Value.mixed.sizeOf_spec] at hv
    constructor <;> unfold Smaller <;> omega
  | null => cases hd
  | _ =>
    obtain rfl := Option.some.inj hd
    trivial

theorem Smaller.within (hv : Smaller params v) : (Cell.place v).Within params k := by
  intro d hd
  rw [Cell.value?_place] at hd
  exact .inr (.inr (hv.inner hd))

private theorem smaller_of_mem {entries : Params} {e : Bytes × Value} (hmem : e ∈ entries)
    (hsize : sizeOf entries ≤ sizeOf (params.getD [])) : Smaller params e.2 := by
  have hlt := List.sizeOf_lt_of_mem hmem
  have hpair : sizeOf e = 1 + sizeOf e.1 + sizeOf e.2 := by
    obtain ⟨a, b⟩ := e
    simp
  unfold Smaller
  omega

private theorem not_inner_parameters : ¬(parameters params).Inner params := by
  cases params with
  | none => simp [parameters, Datum.Inner]
  | some entries => simp [parameters, Datum.Inner]

private theorem parameters_ne_whole : parameters params ≠ Program.whole params := by
  cases params with
  | none => simp [parameters, Program.whole]
  | some entries =>
    intro heq
    have hsize := congrArg sizeOf (Datum.map.inj heq)
    simp only [List.cons.sizeOf_spec, Prod.mk.sizeOf_spec, Value.map.sizeOf_spec] at hsize
    omega

/-- Only what may be the mapping of the parameters is that mapping. -/
theorem Datum.Within.params_eq_true (h : (parameters params).Within params k) :
    k.params = true := by
  rcases h with ⟨-, heq⟩ | ⟨hparams, -⟩ | hinner
  · exact absurd heq parameters_ne_whole
  · exact hparams
  · exact absurd hinner not_inner_parameters

theorem Datum.Within.smaller_of_list {items beyond : List Value}
    (h : (Datum.list items beyond).Within params k) : ∀ v ∈ items ++ beyond, Smaller params v := by
  rcases h with ⟨-, heq⟩ | ⟨-, heq⟩ | hinner
  · simp [Program.whole] at heq
  · cases params <;> simp [parameters] at heq
  · exact hinner

theorem Datum.Within.smaller_of_mixed {entries : List (Value × Value)}
    (h : (Datum.mixed entries).Within params k) :
    ∀ e ∈ entries, Smaller params e.1 ∧ Smaller params e.2 := by
  rcases h with ⟨-, heq⟩ | ⟨-, heq⟩ | hinner
  · simp [Program.whole] at heq
  · cases params <;> simp [parameters] at heq
  · exact hinner

theorem Datum.Within.entry {entries : Params} (h : (Datum.map entries).Within params k)
    {e : Bytes × Value} (hmem : e ∈ entries) : (Cell.place e.2).Within params (k.field e.1) := by
  rcases h with ⟨hdata, heq⟩ | ⟨-, heq⟩ | hinner
  · -- The only entry of the data is the mapping of the parameters.
    obtain rfl := Datum.map.inj heq
    obtain rfl := List.mem_singleton.1 hmem
    intro d hd
    rw [Cell.value?_place] at hd
    refine .inr (.inl ⟨by simp [Reach.field, hdata], ?_⟩)
    cases params <;> exact (Option.some.inj hd).symm
  · cases params with
    | none => cases heq
    | some all =>
      obtain rfl := Datum.map.inj heq
      exact (smaller_of_mem hmem (Nat.le_refl _)).within
  · exact (smaller_of_mem hmem (Nat.le_of_lt hinner)).within

/-! ## Fields -/

def Datum.HasEntry (name : Bytes) (v : Value) : Datum → Prop
  | .map entries => (name, v) ∈ entries
  | .mixed entries => (.string name, v) ∈ entries
  | _ => False

private theorem string_mem_of_findSome? {entries : List (Value × Value)} {name : Bytes}
    (h : entries.findSome? (fun
      | (.string k, v) => if k = name then some v else none
      | _ => none) = some v) : (.string name, v) ∈ entries := by
  obtain ⟨e, hmem, he⟩ := List.exists_of_findSome?_eq_some h
  split at he
  · rename_i s w
    split at he
    · rename_i hs
      rwa [← Option.some.inj he, ← hs]
    · cases he
  · cases he

private theorem field_cases (name : Bytes) (hasArguments : Bool) (c : Cell) :
    (∃ d v, c.value? = some d ∧ d.HasEntry name v ∧
      RunM.field name hasArguments c = .ok (.place v)) ∨
    (∃ d, c.value? = some d ∧ (∀ entries, d = .map entries → Dict.get? entries name = none) ∧
      RunM.field name hasArguments c = .error (.noEntry d name)) ∨
    ∃ o, (∀ d key, o ≠ .noEntry d key) ∧ RunM.field name hasArguments c = .error o := by
  unfold RunM.field
  simp only
  split
  · exact .inr (.inr ⟨_, by simp, rfl⟩)
  · split
    · exact .inr (.inr ⟨_, by simp, rfl⟩)
    · rename_i entries hvalue
      split
      · exact .inr (.inr ⟨_, by simp, rfl⟩)
      · split
        · rename_i v hget
          exact .inl ⟨_, v, hvalue, Dict.mem_of_get? hget, rfl⟩
        · rename_i hget
          refine .inr (.inl ⟨_, hvalue, fun entries' heq => ?_, rfl⟩)
          rwa [← Datum.map.inj heq]
    · rename_i hvalue
      split
      · exact .inr (.inr ⟨_, by simp, rfl⟩)
      · exact .inr (.inl ⟨_, hvalue, by simp, rfl⟩)
    · rename_i entries hvalue
      split
      · exact .inr (.inr ⟨_, by simp, rfl⟩)
      · split
        · rename_i v hfind
          exact .inl ⟨_, v, hvalue, string_mem_of_findSome? hfind, rfl⟩
        · exact .inr (.inl ⟨_, hvalue, by simp, rfl⟩)
    · exact .inr (.inr ⟨_, by simp, rfl⟩)

private theorem Datum.Within.hasEntry {name : Bytes} (h : d.Within params k)
    (hv : d.HasEntry name v) :
    (Cell.place v).Within params (k.field name) := by
  cases d with
  | map entries => exact h.entry hv
  | mixed entries => exact (h.smaller_of_mixed _ hv).2.within
  | _ => cases hv

/-- The parameter that an obstacle lacks is one of the listed names and really is not there. -/
def Obstacle.Listed (params : Option Params) (listed : List Bytes) (o : Obstacle) : Prop :=
  ∀ key, o = .noEntry (parameters params) key →
    key ∈ listed ∧ Dict.get? (params.getD []) key = none

/-- What a computation finds is what it may be, and what it lacks is listed. -/
def Finds (params : Option Params) (listed : List Bytes) (k : Reach) : Except Obstacle Cell → Prop
  | .ok c => c.Within params k
  | .error o => o.Listed params listed

variable {listed : List Bytes}

private theorem finds_field {name : Bytes} (hasArguments : Bool) (hc : c.Within params k)
    (hname : k.params = true → name ∈ listed) :
    Finds params listed (k.field name) (RunM.field name hasArguments c) := by
  rcases field_cases name hasArguments c with
    ⟨d, v, hd, hv, heq⟩ | ⟨d, hd, hget, heq⟩ | ⟨o, ho, heq⟩
  · rw [heq]
    exact (hc d hd).hasEntry hv
  · rw [heq]
    intro key hkey
    obtain ⟨rfl, rfl⟩ := Obstacle.noEntry.inj hkey
    refine ⟨hname (hc _ hd).params_eq_true, ?_⟩
    cases params with
    | none => rfl
    | some entries => exact hget entries rfl
  · rw [heq]
    exact fun key hkey => absurd hkey (ho _ key)

theorem finds_fields (hasArguments : Bool) {names : List Bytes} (hc : c.Within params k)
    (hnames : ∀ x ∈ k.asks names, x ∈ listed) :
    Finds params listed (k.fields names) (RunM.fields hasArguments c names) := by
  fun_induction RunM.fields hasArguments c names generalizing k with
  | case1 c => exact hc
  | case2 c name =>
    refine finds_field hasArguments hc fun hk => hnames name ?_
    simp [Reach.asks, hk]
  | case3 c name rest hrest ih =>
    have hfield : Finds params listed (k.field name) (RunM.field name false c) := by
      refine finds_field false hc fun hk => hnames name ?_
      simp [Reach.asks, hk]
    cases heq : RunM.field name false c with
    | error o =>
      rw [heq] at hfield
      exact hfield
    | ok c' =>
      rw [heq] at hfield
      refine ih c' hfield fun x hx => hnames x ?_
      simp [Reach.asks, hx]

/-! ## Functions -/

private theorem within_of_map {α : Type} {x : Except CallFault α} {g : α → Cell}
    (hg : ∀ a, (g a).Within params k) (h : x.map g = .ok c) : c.Within params k := by
  cases x with
  | error fault => cases h
  | ok a =>
    obtain rfl := Except.ok.inj h
    exact hg a

private theorem exists_of_bind {α β : Type} {x : Except CallFault α} {f : α → Except CallFault β}
    {b : β} (h : (x >>= f) = .ok b) : ∃ a, f a = .ok b := by
  cases x with
  | error fault => cases h
  | ok a => exact ⟨a, h⟩

private theorem item_within {index : Option Datum} (hd : d.Within params k)
    (h : Function.item d index = .ok c) : c.Within params k.item := by
  unfold Function.item at h
  split at h
  · rename_i items beyond
    obtain ⟨i, hi⟩ := exists_of_bind h
    split at hi
    · rename_i v hv
      obtain rfl := Except.ok.inj hi
      have hmem : v ∈ items ++ beyond := List.mem_append_left _ (List.mem_of_getElem? hv)
      exact (hd.smaller_of_list v hmem).within
    · cases hi
  · obtain ⟨i, hi⟩ := exists_of_bind h
    split at hi
    · obtain rfl := Except.ok.inj hi
      exact Cell.within_inner trivial
    · cases hi
  · rename_i entries
    split at h
    · cases h
    · rename_i key
      obtain rfl := Except.ok.inj h
      cases hget : Dict.get? entries key with
      | none => exact nofun
      | some v => exact (hd.entry (Dict.mem_of_get? hget)).mono (k.field_le_item key)
    · cases h
  · split at h
    · cases h
    · obtain rfl := Except.ok.inj h
      exact nofun
    · cases h
  · obtain rfl := Except.ok.inj h
    exact nofun
  · cases h

private theorem itemAt_within {path : List Cell} (hc : c.Within params k) {c' : Cell}
    (h : Function.itemAt c path = .ok c') :
    c'.Within params (path.foldl (fun k _ => k.item) k) := by
  induction path generalizing c k with
  | nil =>
    obtain rfl := Except.ok.inj h
    exact hc
  | cons index path ih =>
    rw [Function.itemAt] at h
    split at h
    · cases h
    · rename_i d hd
      cases hitem : Function.item d index.value? with
      | error fault =>
        rw [hitem] at h
        cases h
      | ok c₁ =>
        rw [hitem] at h
        exact ih (item_within (hc d hd) hitem) h

private theorem slice_within {bounds : List Cell} (hc : c.Within params k) {c' : Cell}
    (h : Function.slice c bounds = .ok c') : c'.Within params {} := by
  unfold Function.slice at h
  split at h
  · cases h
  · rename_i d hd
    dsimp only at h
    split at h
    · cases h
    · split at h
      · split at h
        · cases h
        · obtain ⟨_, h⟩ := exists_of_bind h
          obtain rfl := Except.ok.inj h
          exact Cell.within_inner trivial
      · rename_i items beyond
        obtain ⟨⟨lo, hi, top⟩, h⟩ := exists_of_bind h
        obtain rfl := Except.ok.inj h
        refine Cell.within_inner fun v hv => (hc _ hd).smaller_of_list v ?_
        rcases List.mem_append.1 hv with hv | hv
        · exact List.mem_of_mem_take (List.mem_of_mem_drop hv)
        · exact List.mem_of_mem_take (List.mem_of_mem_drop hv)
      · cases h

private theorem foldl_item_congr {path : List Cell} {ks : List Reach}
    (h : List.Forall₂ (Cell.Within params) path ks) :
    path.foldl (fun k _ => k.item) k = ks.foldl (fun k _ => k.item) k := by
  induction h generalizing k with
  | nil => rfl
  | cons _ _ ih => exact ih

theorem apply_within {f : Builtin} {args : List Cell} {ks : List Reach}
    (hargs : List.Forall₂ (Cell.Within params) args ks) (h : Function.apply f args = .ok c) :
    c.Within params (f.reach ks) := by
  cases f with
  | index =>
    cases hargs with
    | nil => cases h
    | cons hfirst hrest =>
      rename_i first k path ks
      have hindex : Function.index first path = .ok c := h
      unfold Function.index at hindex
      split at hindex
      · cases hindex
      · rename_i d hd
        rw [Builtin.reach, ← foldl_item_congr hrest]
        exact itemAt_within (Cell.within_datum (hfirst d hd)) hindex
  | slice =>
    have hslice : Function.slice (args.headD .absent) (args.drop 1) = .ok c := h
    cases hargs with
    | nil => cases h
    | cons hfirst _ => exact slice_within hfirst hslice
  | len | ne | lt | le | gt | ge =>
    refine within_of_map (fun _ => ?_) h
    exact Cell.within_inner trivial
  | eq =>
    simp only [Function.apply] at h
    split at h
    · cases h
    · refine within_of_map (fun _ => ?_) h
      exact Cell.within_inner trivial
  | printf =>
    simp only [Function.apply] at h
    split at h
    · obtain rfl := Except.ok.inj h
      exact Cell.within_inner trivial
    · obtain rfl := Except.ok.inj h
      exact Cell.within_inner trivial
  | conj | disj | call =>
    obtain rfl := Except.ok.inj h
    exact Cell.within_absent
  | _ =>
    obtain rfl := Except.ok.inj h
    exact Cell.within_inner trivial

end Values

end EngineHost.Template
