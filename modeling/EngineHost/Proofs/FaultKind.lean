import EngineHost.Fault

/-!
# The kind of a fault and its exit code

The kind that a report shows is that of the first layer that knows its own, while the exit code asks
whether any layer at all concerns the command. In a fault with a single cause at every layer the two
agree: what the engine reports has no cause behind it, so it never hides a layer of a command.
-/

namespace EngineHost

namespace Fault

/-- A fault with at most one cause at every layer, none of which was classified beforehand. -/
inductive Nested : Fault → Prop
  | plain (message : Bytes) : Nested (plain message)
  | interop (op message : Bytes) : Nested (interop op message)
  | misuse (op reason : Bytes) : Nested (misuse op reason)
  | condition (c : Condition) : Nested (condition c)
  | load (backend : Bytes) {cause : Option Fault} (h : ∀ f, cause = some f → Nested f) :
    Nested (load backend cause)
  | config (field : Bytes) {cause : Option Fault} (h : ∀ f, cause = some f → Nested f) :
    Nested (config field cause)
  | wrap (context : Bytes) {cause : Fault} (h : Nested cause) : Nested (wrap context cause)
  | exit (code : Int) (message : Bytes) {cause : Option Fault}
    (h : ∀ f, cause = some f → Nested f) : Nested (exit code message cause)

theorem Nested.behind {cause : Fault} (h : cause.Nested) : ∀ f, some cause = some f → f.Nested := by
  intro f hf
  rwa [← Option.some.inj hf]

structure Corresponds (kind : Bytes) (code : Int) : Prop where
  command : code = 2 ↔ kind = "config" ∨ kind = "load"
  engine : code = 1 ↔ kind = "interop" ∨ kind = "released" ∨ kind = "internal"

private theorem corresponds_two {kind : Bytes} (h : kind = "config" ∨ kind = "load") :
    Corresponds kind 2 := by
  rcases h with rfl | rfl <;> constructor <;> decide

private theorem corresponds_one {kind : Bytes}
    (h : kind = "interop" ∨ kind = "released" ∨ kind = "internal") : Corresponds kind 1 := by
  rcases h with rfl | rfl | rfl <;> constructor <;> decide

/-- Layers of which none was classified beforehand, and in which a layer that concerns the command
comes before all others that know their kind. -/
structure Orderly (layers : List Fault) : Prop where
  carried : layers.findSome? carried? = none
  command : layers.any isCommandFault = true → ∃ d, layers.findSome? described? = some d ∧
    (d.kind = "config" ∨ d.kind = "load")

namespace Orderly

variable {f : Fault} {layers : List Fault}

/-- A layer that does not know its kind changes nothing. -/
theorem cons_context (h : Orderly layers) (hcarried : f.carried? = none)
    (hdescribed : f.described? = none) (hcommand : f.isCommandFault = false) :
    Orderly (f :: layers) := by
  constructor
  · rw [List.findSome?_cons, hcarried]
    exact h.carried
  · intro hany
    rw [List.any_cons, hcommand, Bool.false_or] at hany
    rw [List.findSome?_cons, hdescribed]
    exact h.command hany

private theorem cons_command (h : Orderly layers) {d : Detail} (hcarried : f.carried? = none)
    (hdescribed : f.described? = some d) (hkind : d.kind = "config" ∨ d.kind = "load") :
    Orderly (f :: layers) := by
  constructor
  · rw [List.findSome?_cons, hcarried]
    exact h.carried
  · intro _
    rw [List.findSome?_cons, hdescribed]
    exact ⟨d, rfl, hkind⟩

theorem nil : Orderly [] := ⟨rfl, by simp⟩

theorem cause {cause : Option Fault} (h : ∀ f, cause = some f → Orderly f.layers) :
    Orderly (causeLayers cause) := by
  cases cause with
  | none => exact nil
  | some f => exact h f rfl

end Orderly

private theorem Nested.orderly {f : Fault} (h : f.Nested) : Orderly f.layers := by
  induction h with
  | plain message => exact Orderly.nil.cons_context rfl rfl rfl
  | misuse op reason => exact Orderly.nil.cons_context rfl rfl rfl
  | condition c => exact Orderly.nil.cons_context rfl rfl rfl
  -- nothing stands behind what the engine reports, in particular no layer of a command
  | interop op message => exact ⟨rfl, by simp [layers, isCommandFault]⟩
  | load backend h ih => exact (Orderly.cause ih).cons_command rfl rfl (.inr rfl)
  | config field h ih => exact (Orderly.cause ih).cons_command rfl rfl (.inl rfl)
  | wrap context h ih => exact ih.cons_context rfl rfl rfl
  | exit code message h ih => exact (Orderly.cause ih).cons_context rfl rfl rfl

/-- Apart from the layers of a command, only what the engine reports knows its kind. -/
theorem kind_of_described {layers : List Fault} (h : layers.any isCommandFault = false)
    {d : Detail} (hd : layers.findSome? described? = some d) : d.kind = "interop" := by
  obtain ⟨f, hf, hdescribed⟩ := List.exists_of_findSome?_eq_some hd
  have hcommand : f.isCommandFault = false := by
    simpa using List.any_eq_false.1 h f hf
  cases f with
  | interop op message =>
    rw [described?, Option.some.injEq] at hdescribed
    rw [← hdescribed]
  | load backend cause => simp [isCommandFault] at hcommand
  | config field cause => simp [isCommandFault] at hcommand
  | _ => simp [described?] at hdescribed

theorem Nested.corresponds {f : Fault} (h : f.Nested) :
    ∃ d, f.describe = some d ∧ Corresponds d.kind f.exitCodeFor := by
  obtain ⟨hcarried, hcommand⟩ := h.orderly
  unfold describe exitCodeFor
  rw [hcarried]
  cases hany : f.layers.any isCommandFault with
  | true =>
    obtain ⟨d, hdescribed, hkind⟩ := hcommand hany
    rw [hdescribed]
    exact ⟨d, rfl, corresponds_two hkind⟩
  | false =>
    cases hdescribed : f.layers.findSome? described? with
    | some d => exact ⟨d, rfl, corresponds_one (.inl (kind_of_described hany hdescribed))⟩
    | none =>
      refine ⟨_, rfl, corresponds_one (.inr ?_)⟩
      cases f.is .released with
      | true => exact .inl rfl
      | false => exact .inr rfl

end Fault

end EngineHost
