import EngineHost.Fault

/-!
# Faults inside layers

On its way to the user a fault gets lines of context and an exit code put around it. These layers
know nothing of their own about what went wrong, so whatever classifies a fault finds the same
behind them.
-/

namespace EngineHost.Fault

/-- What callers put around a fault: a line of context, or an exit code with a text. -/
inductive Layer
  | context (text : Bytes)
  | exit (code : Int) (text : Bytes)

def Layer.lead : Layer → Bytes
  | context text => text ++ ": "
  | exit _ text => text ++ ": "

def Layer.around : Layer → Fault → Fault
  | context text, f => wrap text f
  | exit code text, f => Fault.exit code text (some f)

/-- A fault inside layers, the outermost one first. -/
def enclose (stack : List Layer) (f : Fault) : Fault := stack.foldr Layer.around f

/-- One fault stands in the tree of another: it is that fault, or stands in the tree of one behind
it. -/
inductive Within (g : Fault) : Fault → Prop
  | self : Within g g
  | load (backend : Bytes) {f : Fault} (h : Within g f) : Within g (load backend (some f))
  | config (field : Bytes) {f : Fault} (h : Within g f) : Within g (config field (some f))
  | wrap (context : Bytes) {f : Fault} (h : Within g f) : Within g (wrap context f)
  | join {causes : List Fault} {f : Fault} (hf : f ∈ causes) (h : Within g f) :
    Within g (join causes)
  | exit (code : Int) (text : Bytes) {f : Fault} (h : Within g f) :
    Within g (exit code text (some f))

/-- A fault that is classified already, or that describes itself. -/
inductive Classified : Fault → Prop
  | detail (d : Option Detail) : Classified (detail d)
  | interop (op message : Bytes) : Classified (interop op message)
  | load (backend : Bytes) (cause : Option Fault) : Classified (load backend cause)
  | config (field : Bytes) (cause : Option Fault) : Classified (config field cause)

/-- Something in the tree of a fault is classified already, or describes itself. -/
def Known (f : Fault) : Prop := ∃ g : Fault, g.Within f ∧ g.Classified

variable {f g : Fault}

private theorem self_mem_layers (f : Fault) : f ∈ f.layers := by
  cases f <;> simp [layers]

private theorem mem_allLayers {causes : List Fault} :
    g ∈ allLayers causes ↔ ∃ f ∈ causes, g ∈ f.layers := by
  induction causes with
  | nil => simp [allLayers]
  | cons f rest ih => simp [allLayers, ih]

/-- The layers that a search visits are the faults of the tree. -/
theorem Within.mem_layers (h : g.Within f) : g ∈ f.layers := by
  induction h with
  | self => exact self_mem_layers g
  | load backend h ih => exact List.mem_cons_of_mem _ ih
  | config field h ih => exact List.mem_cons_of_mem _ ih
  | wrap context h ih => exact List.mem_cons_of_mem _ ih
  | join hf h ih => exact List.mem_cons_of_mem _ (mem_allLayers.2 ⟨_, hf, ih⟩)
  | exit code text h ih => exact List.mem_cons_of_mem _ ih

mutual

private theorem within_of_mem_layers : ∀ {f : Fault}, g ∈ f.layers → g.Within f
  | .plain _, h => List.mem_singleton.1 h ▸ .self
  | .interop _ _, h => List.mem_singleton.1 h ▸ .self
  | .misuse _ _, h => List.mem_singleton.1 h ▸ .self
  | .detail _, h => List.mem_singleton.1 h ▸ .self
  | .condition _, h => List.mem_singleton.1 h ▸ .self
  | .crash _, h => List.mem_singleton.1 h ▸ .self
  | .load _ cause, h => by
    rcases List.mem_cons.1 h with rfl | hcause
    · exact .self
    · obtain ⟨f, rfl, hf⟩ := within_of_mem_causeLayers hcause
      exact .load _ hf
  | .config _ cause, h => by
    rcases List.mem_cons.1 h with rfl | hcause
    · exact .self
    · obtain ⟨f, rfl, hf⟩ := within_of_mem_causeLayers hcause
      exact .config _ hf
  | .wrap _ cause, h => by
    rcases List.mem_cons.1 h with rfl | hcause
    · exact .self
    · exact .wrap _ (within_of_mem_layers hcause)
  | .join causes, h => by
    rcases List.mem_cons.1 h with rfl | hcause
    · exact .self
    · obtain ⟨f, hmem, hf⟩ := within_of_mem_allLayers hcause
      exact .join hmem hf
  | .exit _ _ cause, h => by
    rcases List.mem_cons.1 h with rfl | hcause
    · exact .self
    · obtain ⟨f, rfl, hf⟩ := within_of_mem_causeLayers hcause
      exact .exit _ _ hf

private theorem within_of_mem_causeLayers : ∀ {cause : Option Fault}, g ∈ causeLayers cause →
    ∃ f, cause = some f ∧ g.Within f
  | none, h => by simp [causeLayers] at h
  | some f, h => ⟨f, rfl, within_of_mem_layers h⟩

private theorem within_of_mem_allLayers : ∀ {causes : List Fault}, g ∈ allLayers causes →
    ∃ f ∈ causes, g.Within f
  | [], h => by simp [allLayers] at h
  | f :: rest, h => by
    rcases List.mem_append.1 h with hf | hrest
    · exact ⟨f, List.mem_cons_self, within_of_mem_layers hf⟩
    · obtain ⟨f', hmem, hf'⟩ := within_of_mem_allLayers hrest
      exact ⟨f', List.mem_cons_of_mem _ hmem, hf'⟩

end

private theorem mem_layers_iff :
    g ∈ f.layers ↔ g.Within f := ⟨within_of_mem_layers, Within.mem_layers⟩

private theorem known_iff :
    f.Known ↔ (f.layers.findSome? carried?).isSome ∨ (f.layers.findSome? described?).isSome := by
  simp only [Known, List.findSome?_isSome_iff, ← exists_or, ← and_or_left, ← mem_layers_iff]
  refine exists_congr fun g => and_congr_right fun _ => ?_
  constructor
  · intro h
    cases h <;> simp [carried?, described?]
  · intro h
    cases g with
    | detail d => exact .detail d
    | interop op message => exact .interop op message
    | load backend cause => exact .load backend cause
    | config field cause => exact .config field cause
    | _ => simp [carried?, described?] at h

section Enclosing

variable (stack : List Layer) (f : Fault)

private theorem enclose_cons (l : Layer) :
    f.enclose (l :: stack) = l.around (f.enclose stack) := rfl

private theorem layers_around (l : Layer) : (l.around f).layers = l.around f :: f.layers := by
  cases l <;> rfl

private theorem message_around (l : Layer) : (l.around f).message = l.lead ++ f.message := by
  cases l <;> rfl

/-- A search that no layer answers goes on to the fault inside. -/
theorem findSome?_layers_enclose {α : Type} {p : Fault → Option α}
    (hp : ∀ (l : Layer) g, p (l.around g) = none) :
    (f.enclose stack).layers.findSome? p = f.layers.findSome? p := by
  induction stack with
  | nil => rfl
  | cons l stack ih =>
    rw [enclose_cons, layers_around, List.findSome?_cons, hp, ih]

private theorem any_layers_enclose {p : Fault → Bool}
    (hp : ∀ (l : Layer) g, p (l.around g) = false) :
    (f.enclose stack).layers.any p = f.layers.any p := by
  induction stack with
  | nil => rfl
  | cons l stack ih =>
    rw [enclose_cons, layers_around, List.any_cons, hp, Bool.false_or, ih]

private theorem message_enclose :
    (f.enclose stack).message = stack.flatMap Layer.lead ++ f.message := by
  induction stack with
  | nil => rfl
  | cons l stack ih =>
    rw [enclose_cons, message_around, ih, List.flatMap_cons, List.append_assoc]

private theorem is_enclose (c : Condition) : (f.enclose stack).is c = f.is c :=
  any_layers_enclose stack f fun l _ => by cases l <;> rfl

private theorem exitCodeFor_enclose : (f.enclose stack).exitCodeFor = f.exitCodeFor := by
  unfold exitCodeFor
  rw [any_layers_enclose stack f fun l _ => by cases l <;> rfl]

/-- Layers change neither the answer of a test for a condition nor the exit code nor the kind, code
and details of a description; its message is kept when something inside was classified or describes
itself, and otherwise becomes the text of the whole. -/
theorem enclose_keeps_class : (∀ c, (f.enclose stack).is c = f.is c) ∧
    (f.enclose stack).exitCodeFor = f.exitCodeFor ∧
    (f.enclose stack).message = stack.flatMap Layer.lead ++ f.message ∧
    (f.Known ∧ (f.enclose stack).describe = f.describe ∨
      ¬f.Known ∧ ∃ d, f.describe = some d ∧ d.message = f.message ∧
        (f.enclose stack).describe = some { d with message := (f.enclose stack).message }) := by
  refine ⟨is_enclose stack f, exitCodeFor_enclose stack f, message_enclose stack f, ?_⟩
  have hcarried := findSome?_layers_enclose stack f (p := carried?) fun l _ => by cases l <;> rfl
  have hdescribed := findSome?_layers_enclose stack f (p := described?) fun l _ => by
    cases l <;> rfl
  rw [known_iff]
  unfold describe
  rw [hcarried, hdescribed, is_enclose]
  cases hc : f.layers.findSome? carried? with
  | some d => exact .inl ⟨.inl rfl, rfl⟩
  | none =>
    cases hd : f.layers.findSome? described? with
    | some d => exact .inl ⟨.inr rfl, rfl⟩
    | none => exact .inr ⟨by simp, _, rfl, rfl, rfl⟩

end Enclosing

end EngineHost.Fault
