import EngineHost.Template.Program

/-!
# Flat templates

A template that does nothing but refer to parameters is a list of parts. What it writes is its
parts one behind the other, with every reference replaced by its parameter as it is displayed.
-/

namespace EngineHost.Template

inductive Part
  | text (s : Bytes)
  /-- A reference to a parameter. -/
  | param (name : Bytes)
deriving DecidableEq, Repr

/-- What a part stands for once parameters are written in some way. -/
def Part.filled (written : Bytes → Bytes) : Part → Bytes
  | text s => s
  | param name => written name

def fillIn (written : Bytes → Bytes) (parts : List Part) : Bytes :=
  parts.flatMap (Part.filled written)

@[simp] theorem fillIn_nil (written : Bytes → Bytes) : fillIn written [] = [] := rfl

@[simp] theorem fillIn_cons (written : Bytes → Bytes) (p : Part) (parts : List Part) :
    fillIn written (p :: parts) = p.filled written ++ fillIn written parts := List.flatMap_cons

@[simp] theorem fillIn_append (written : Bytes → Bytes) (parts parts' : List Part) :
    fillIn written (parts ++ parts') = fillIn written parts ++ fillIn written parts' :=
  List.flatMap_append

theorem length_fillIn_le {f : Bytes → Bytes} {parts : List Part} {k : Nat}
    (h : ∀ name, .param name ∈ parts → (f name).length ≤ k) (g : Bytes → Bytes) :
    (fillIn f parts).length ≤ (fillIn g parts).length + k * parts.length := by
  induction parts with
  | nil => simp
  | cons p parts ih =>
    have hrest := ih fun name hname => h name (List.mem_cons_of_mem _ hname)
    have hfirst : (p.filled f).length ≤ (p.filled g).length + k := by
      cases p with
      | text s => exact Nat.le_add_right _ _
      | param name => exact Nat.le_add_left_of_le (h name List.mem_cons_self)
    simp only [fillIn_cons, List.length_append, List.length_cons, Nat.mul_add_one]
    omega

/-- The part that a node is: text, or an action that is a single reference. -/
def Node.part? : Node → Option Part
  | .text s => some (.text s)
  | .action (.mk _ [] _ [.mk _ (.field _ [root, name]) []]) =>
    if root = "params" then some (.param name) else none
  | _ => none

def parts? : List Node → Option (List Part)
  | [] => some []
  | n :: rest => do return (← n.part?) :: (← parts? rest)

theorem parts?_cons_eq_some_iff {n : Node} {rest : List Node} {parts : List Part} :
    parts? (n :: rest) = some parts ↔
      ∃ p ps, parts = p :: ps ∧ n.part? = some p ∧ parts? rest = some ps := by
  simp only [parts?, Option.bind_eq_bind, Option.bind_eq_some_iff, Option.pure_def,
    Option.some.injEq]
  constructor
  · rintro ⟨p, hp, ps, hps, rfl⟩
    exact ⟨p, ps, rfl, hp, hps⟩
  · rintro ⟨p, ps, rfl, hp, hps⟩
    exact ⟨p, hp, ps, hps, rfl⟩

theorem Node.eq_of_part?_param {n : Node} {name : Bytes} (h : n.part? = some (.param name)) :
    ∃ pos assigns cpos fpos, n = .action
      (.mk pos [] assigns [.mk cpos (.field fpos ["params", name]) []]) := by
  unfold Node.part? at h
  split at h
  · simp at h
  · split at h
    · rename_i hroot
      obtain rfl := hroot
      obtain rfl := Part.param.inj (Option.some.inj h)
      exact ⟨_, _, _, _, rfl⟩
    · simp at h
  · simp at h

theorem Node.eq_of_part?_text {n : Node} {s : Bytes} (h : n.part? = some (.text s)) :
    n = .text s := by
  unfold Node.part? at h
  split at h
  · rw [Part.text.inj (Option.some.inj h)]
  · split at h <;> simp at h
  · simp at h

def display (v : Value) : Bytes :=
  match (Cell.place v).value? with
  | some d => Format.display (some d)
  | none => "<no value>"

theorem integer_decimal (n : Int) : Format.integer {} 10 false false n = Bytes.ofInt n := by
  have hpad : ∀ s : Bytes, Format.Flags.padBlank {} s = s := fun s => by
    simp [Format.Flags.padBlank, Format.Flags.pad, Format.Flags.filling]
  have hdigits : ∀ s : Bytes, Bytes.padLeft 0 48 s = s := fun s => by simp [Bytes.padLeft]
  have hplus : Bytes.ofString "" = [] := rfl
  have hminus : Bytes.ofString "-" = [Bytes.ofAscii '-'] := by decide
  cases n with
  | ofNat n =>
    have hsign : ¬(n : Int) < 0 := by omega
    simp [Format.integer, hsign, hpad, hdigits, hplus, Format.Flags.fillsZeros, Format.digitsIn,
      Bytes.ofInt, Bytes.ofNat]
  | negSucc n =>
    simp [Format.integer, hpad, hdigits, hminus, Format.Flags.fillsZeros, Format.digitsIn,
      Bytes.ofInt, Bytes.ofNat]

theorem display_int (n : Int64) : display (.int n) = Bytes.ofInt n.toInt :=
  integer_decimal n.toInt

def written (params : Params) (name : Bytes) : Bytes :=
  ((Dict.get? params name).map display).getD []

/-- The mapping that holds the parameters while a program is rendered. -/
def Program.parameters : Option Params → Datum
  | some entries => .map entries
  | none => .noMap

namespace RunM

variable {params : Option Params} {r : Run} {name : Bytes} {nodes : List Node} {parts : List Part}

theorem run_bind {x : RunM α} {f : α → RunM β} {a : α} {r' : Run}
    (h : x.run.run r = (.ok a, r')) : (x >>= f).run.run r = (f a).run.run r' := by
  rw [ExceptT.run_bind, StateT.run_bind, h]
  rfl

theorem run_bind_error {x : RunM α} {f : α → RunM β} {e : Stop} {r' : Run}
    (h : x.run.run r = (.error e, r')) : (x >>= f).run.run r = (.error e, r') := by
  rw [ExceptT.run_bind, StateT.run_bind, h]
  rfl

private theorem fields_params (params : Option Params) (name : Bytes) :
    fields false (Program.data params) ["params", name] =
      (Dict.get? (params.getD []) name).elim (.error (.noEntry (Program.parameters params) name))
        fun v => .ok (.place v) := by
  cases params with
  | none => rfl
  | some entries =>
    have hroot : field "params" false (Program.data (some entries)) =
        .ok (.place (.map entries)) := rfl
    have hname : field name false (.place (.map entries)) =
        (Dict.get? entries name).elim (.error (.noEntry (.map entries) name))
          fun v => .ok (.place v) := by
      cases hget : Dict.get? entries name <;>
        simp [field, Cell.value?, Cell.inside, Datum.ofValue?, hget]
    simp only [fields, hroot, bind, Except.bind, hname, Option.getD_some, Program.parameters]

private theorem evaluate_reference {v : Value} (hv : Dict.get? (params.getD []) name = some v)
    (pos cpos fpos : Nat) (assigns : Bool) :
    (evaluate (Program.data params)
        (.mk pos [] assigns [.mk cpos (.field fpos ["params", name]) []])).run.run r =
      (.ok (Cell.place v).inside, { r with spot := .operand (.field fpos ["params", name]) }) := by
  simp only [evaluate, commands, command, List.isEmpty_nil, Bool.not_true, Option.isSome_none,
    Bool.or_self, fields_params, hv, Option.elim_some, orFail]
  rfl

private theorem evaluate_missing (hmissing : Dict.get? (params.getD []) name = none)
    (pos cpos fpos : Nat) (assigns : Bool) :
    ∃ f r', (evaluate (Program.data params)
        (.mk pos [] assigns [.mk cpos (.field fpos ["params", name]) []])).run.run r =
      (.error (.failure f), r') := by
  simp only [evaluate, commands, command, List.isEmpty_nil, Bool.not_true, Option.isSome_none,
    Bool.or_self, fields_params, hmissing, Option.elim_none, orFail]
  exact ⟨_, _, rfl⟩

private theorem node_part {n : Node} {p : Part} (callee : Callee) (hpart : n.part? = some p)
    (hgiven : ∀ name, p = .param name → (Dict.get? (params.getD []) name).isSome = true) :
    ∃ spot, (node callee (Program.data params) n).run.run r =
      (.ok (), { r with spot, written := p.filled (written (params.getD [])) :: r.written }) := by
  cases p with
  | text s =>
    obtain rfl := Node.eq_of_part?_text hpart
    exact ⟨r.spot, rfl⟩
  | param name =>
    obtain ⟨pos, assigns, cpos, fpos, rfl⟩ := Node.eq_of_part?_param hpart
    obtain ⟨v, hv⟩ := Option.isSome_iff_exists.1 (hgiven name rfl)
    have hfilled : (Part.param name).filled (written (params.getD [])) = display v := by
      simp [Part.filled, written, hv]
    have hvalue : (Cell.place v).inside.value? = (Cell.place v).value? := by
      cases v <;> rfl
    refine ⟨.operand (.field fpos ["params", name]), ?_⟩
    rw [node, run_bind (evaluate_reference hv pos cpos fpos assigns), hvalue, hfilled]
    rfl

private theorem nodes_parts (callee : Callee) (hparts : parts? nodes = some parts)
    (hgiven : ∀ name, .param name ∈ parts → (Dict.get? (params.getD []) name).isSome = true) :
    ∃ spot, (RunM.nodes callee (Program.data params) nodes).run.run r =
      (.ok (), { r with
        spot,
        written :=
          (parts.map (Part.filled (written (params.getD [])))).reverse ++ r.written }) := by
  induction nodes generalizing parts r with
  | nil =>
    obtain rfl := Option.some.inj hparts
    exact ⟨r.spot, rfl⟩
  | cons n rest ih =>
    obtain ⟨p, ps, rfl, hp, hps⟩ := parts?_cons_eq_some_iff.1 hparts
    simp only [List.mem_cons] at hgiven
    obtain ⟨spot, hnode⟩ := node_part (r := r) callee hp fun name h => hgiven name (.inl h.symm)
    obtain ⟨spot', hrest⟩ := ih
      (r := { r with spot, written := p.filled (written (params.getD [])) :: r.written }) hps
      fun name h => hgiven name (.inr h)
    refine ⟨spot', ?_⟩
    rw [RunM.nodes, run_bind hnode, hrest]
    simp

private theorem nodes_missing (callee : Callee) (hparts : parts? nodes = some parts)
    (hname : .param name ∈ parts) (hmissing : Dict.get? (params.getD []) name = none) :
    ∃ f r', (RunM.nodes callee (Program.data params) nodes).run.run r =
      (.error (.failure f), r') := by
  induction nodes generalizing parts r with
  | nil =>
    obtain rfl := Option.some.inj hparts
    simp at hname
  | cons n rest ih =>
    obtain ⟨p, ps, rfl, hp, hps⟩ := parts?_cons_eq_some_iff.1 hparts
    by_cases hgiven : ∀ name, p = .param name → (Dict.get? (params.getD []) name).isSome = true
    · -- The first part is written, so it is not the one whose parameter is missing.
      have hrest : .param name ∈ ps := by
        obtain heq | hmem := List.mem_cons.1 hname
        · simpa [hmissing] using hgiven name heq.symm
        · exact hmem
      obtain ⟨spot, hnode⟩ := node_part (r := r) callee hp hgiven
      rw [RunM.nodes, run_bind hnode]
      exact ih hps hrest
    · obtain ⟨first, rfl, hfirst⟩ : ∃ first, p = .param first ∧
          Dict.get? (params.getD []) first = none := by
        simpa using hgiven
      obtain ⟨pos, assigns, cpos, fpos, rfl⟩ := Node.eq_of_part?_param hp
      obtain ⟨f, r', hevaluate⟩ := evaluate_missing (r := r) hfirst pos cpos fpos assigns
      refine ⟨f, r', ?_⟩
      rw [RunM.nodes, run_bind_error]
      rw [node, run_bind_error hevaluate]

end RunM

namespace Program

variable {p : Program} {parts : List Part}

/-- A flat template writes its parts, as long as every parameter that it refers to is given. -/
theorem render_parts (params : Option Params) (hparts : parts? p.body = some parts)
    (hgiven : ∀ name, .param name ∈ parts → (Dict.get? (params.getD []) name).isSome = true) :
    p.render params = .ok (fillIn (written (params.getD [])) parts) := by
  obtain ⟨spot, hrun⟩ := RunM.nodes_parts
    (r := { template := p.name, spot := .operand (.dot 0), vars := [("$", data params)] })
    (RunM.callee p.trees maxDepth) hparts hgiven
  have hrender : Template.render p.trees p.name (data params) =
      .ok (fillIn (written (params.getD [])) parts) := by
    simp only [Template.render]
    rw [show (Dict.get? p.trees p.name).getD [] = p.body from rfl, hrun]
    simp [fillIn, List.flatMap]
  simp only [render, hrender]

theorem render_missing {params : Option Params} {name : Bytes} (hparts : parts? p.body = some parts)
    (hname : .param name ∈ parts) (hmissing : Dict.get? (params.getD []) name = none) :
    ∃ fault, p.render params = .error fault := by
  obtain ⟨f, r', hrun⟩ := RunM.nodes_missing
    (r := { template := p.name, spot := .operand (.dot 0), vars := [("$", data params)] })
    (RunM.callee p.trees maxDepth) hparts hname hmissing
  have hrender : Template.render p.trees p.name (data params) = .error f := by
    simp only [Template.render]
    rw [show (Dict.get? p.trees p.name).getD [] = p.body from rfl, hrun]
  simp only [render, hrender]
  exact ⟨_, rfl⟩

end Program

end EngineHost.Template
