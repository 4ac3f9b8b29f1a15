import EngineHost.Engine.Basic
import EngineHost.Proofs.FaultKind

/-!
# Faults of the engine

Whatever a boundary answers, what an operation of an engine fails with is a fault of the engine or
of its use, and never one of a configuration or of loading a backend.
-/

namespace EngineHost

variable {σ ρ α β : Type} {e : Engine σ}

/-- No layer of a fault concerns the command rather than the engine. -/
def Fault.OfEngine (f : Fault) : Prop := f.layers.any isCommandFault = false

theorem Fault.OfEngine.exitCodeFor_eq {f : Fault} (h : f.OfEngine) : f.exitCodeFor = 1 := by
  rw [exitCodeFor, h]
  rfl

/-- What an operation of an engine fails with: what the engine reports, a text of the host, or that
the book is released. -/
inductive Fault.ByEngine : Fault → Prop
  | reported (op message : Bytes) : ByEngine (interop op message)
  | noticed (message : Bytes) : ByEngine (plain message)
  | released (op : Bytes) : ByEngine (wrap op (condition .released))

theorem Fault.ByEngine.ofEngine {f : Fault} (h : f.ByEngine) : f.OfEngine := by
  cases h <;> rfl

theorem Fault.ByEngine.nested {f : Fault} (h : f.ByEngine) : f.Nested := by
  cases h with
  | reported op message => exact .interop op message
  | noticed message => exact .plain message
  | released op => exact .wrap op (.condition .released)

/-- Whatever the world is like, an operation ends with a value like this. -/
def Ends (P : α → Prop) (x : HostM σ α) : Prop := ∀ w, P (x w).1

namespace Ends

variable {P : α → Prop} {Q : β → Prop}

theorem pure {a : α} (h : P a) : Ends P (Pure.pure a : HostM σ α) := fun _ => h

theorem bind {x : HostM σ α} {f : α → HostM σ β} (hx : Ends P x) (hf : ∀ a, P a → Ends Q (f a)) :
    Ends Q (x >>= f) :=
  fun w => hf _ (hx w) (x w).2

/-- The value of an operation does not matter for what comes after. -/
theorem after {x : HostM σ α} {f : α → HostM σ β} (hf : ∀ a, Ends Q (f a)) : Ends Q (x >>= f) :=
  bind (P := fun _ => True) (fun _ => trivial) fun a _ => hf a

theorem ite {c : Prop} [Decidable c] {x y : HostM σ α} (hx : Ends P x) (hy : Ends P y) :
    Ends P (if c then x else y) := by
  split
  · exact hx
  · exact hy

theorem ifThen {c : Prop} [Decidable c] {x : HostM σ Unit} {f : Unit → HostM σ β}
    (hf : Ends Q (f ())) : Ends Q (if c then x >>= f else f ()) :=
  ite (after fun _ => hf) hf

end Ends

def EngineOutcome (a : Except Fault α) : Prop := ∀ f, a = .error f → f.ByEngine

/-- A failure only through the engine, beside which a value like this is returned. -/
def EngineReturn (Out : ρ → Prop) (a : Except (Failed ρ) α) : Prop :=
  ∀ f, a = .error f → f.fault.ByEngine ∧ Out f.value

namespace EngineReturn

variable {Out : ρ → Prop}

theorem ok (a : α) : EngineReturn Out (.ok a) := fun _ h => nomatch h

theorem error {f : Failed ρ} (hf : f.fault.ByEngine) (hout : Out f.value) :
    EngineReturn Out (.error f : Except (Failed ρ) α) := by
  rintro f' h
  rw [← Except.error.inj h]
  exact ⟨hf, hout⟩

theorem outcome {a : Except (Failed ρ) α} (h : EngineReturn Out a) :
    EngineOutcome (a.mapError Failed.fault) := by
  intro f hf
  cases a with
  | ok a => exact nomatch hf
  | error failed =>
    rw [← Except.error.inj hf]
    exact (h failed rfl).1

end EngineReturn

namespace Engine

private theorem ends_checkSlot (e : Engine σ) (op : Bytes) (slot : Ptr) :
    Ends (fun found => ∀ f, found = some f → f.ByEngine) (e.checkSlot op slot) := by
  refine .ite (.pure nofun) (.after fun _ => .after fun read => ?_)
  refine .after fun _ => .after fun _ => .pure fun f hf => ?_
  rw [← Option.some.inj hf]
  exact .reported op _

theorem ends_parseReturning (e : Engine σ) (source : Bytes) :
    Ends (EngineReturn (· = none)) (e.parseReturning source) := by
  refine .after fun made => .ifThen ?_
  refine .bind (e.ends_checkSlot "book_parse" made.slot) fun found hfound => ?_
  cases found with
  | some f => exact .ifThen (.pure (.error (hfound f rfl) rfl))
  | none => exact .ite (.pure (.error (.reported _ _) rfl)) (.pure (.ok _))

theorem ends_parse (e : Engine σ) (source : Bytes) : Ends EngineOutcome (e.parse source) :=
  .bind (e.ends_parseReturning source) fun _ h => .pure h.outcome

section Outcomes

variable {P : Except (Failed ρ) α → Prop} {out : ρ}
  (hfault : ∀ f : Fault, f.ByEngine → P (.error ⟨f, out⟩))

include hfault

private theorem ends_withBook (op : Bytes) (b : Book) {f : Ptr → HostM σ (Except (Failed ρ) α)}
    (hf : ∀ p, Ends P (f p)) : Ends P (withBook op b out f) :=
  .ite (.pure (hfault _ (.released op))) (hf b.ptr)

private theorem ends_withVec (e : Engine σ) (book : Ptr) {use : Ptr → HostM σ (Except (Failed ρ) α)}
    (huse : ∀ p, Ends P (use p)) : Ends P (e.withVec book out use) := by
  refine .after fun made => .ifThen ?_
  refine .bind (e.ends_checkSlot "book_serialize" made.slot) fun found hfound => ?_
  cases found with
  | some f => exact .ifThen (.pure (hfault f (hfound f rfl)))
  | none =>
    refine .ite (.pure (hfault _ (.reported _ _))) ?_
    exact .bind (huse made.ptr) fun _ houtcome => .after fun _ => .pure houtcome

end Outcomes

private theorem ends_copyRecord (e : Engine σ) (p : Ptr) :
    Ends (EngineReturn (· = {})) (e.copyRecord p) := by
  refine .after fun record => ?_
  cases record with
  | none => exact .pure (.error (.noticed _) rfl)
  | some record => exact .after fun _ => .after fun _ => .pure (.ok _)

private theorem ends_evaluationOf (e : Engine σ) (p slot : Ptr) :
    Ends (EngineReturn (· = {})) (e.evaluationOf p slot) := by
  refine .bind (e.ends_checkSlot "book_evaluate" slot) fun found hfound => ?_
  cases found with
  | some f => exact .pure (.error (hfound f rfl) rfl)
  | none => exact .ite (.pure (.error (.reported _ _) rfl)) (e.ends_copyRecord p)

theorem ends_evaluateReturning (e : Engine σ) (b : Book) (options : EvaluateOptions) :
    Ends (EngineReturn (· = {})) (e.evaluateReturning b options) := by
  refine ends_withBook (fun _ h => .error h rfl) _ b fun book => .after fun made => .ifThen ?_
  exact .bind (e.ends_evaluationOf made.ptr made.slot) fun _ houtcome => .ifThen (.pure houtcome)

theorem ends_evaluate (e : Engine σ) (b : Book) (options : EvaluateOptions) :
    Ends EngineOutcome (e.evaluate b options) :=
  .bind (e.ends_evaluateReturning b options) fun _ h => .pure h.outcome

theorem ends_serializedLengthReturning (e : Engine σ) (b : Book) :
    Ends (EngineReturn (· = 0)) (e.serializedLengthReturning b) :=
  ends_withBook (fun _ h => .error h rfl) _ b fun book =>
    ends_withVec (fun _ h => .error h rfl) e book fun _ => .after fun _ => .pure (.ok _)

theorem ends_serializedLength (e : Engine σ) (b : Book) :
    Ends EngineOutcome (e.serializedLength b) :=
  .bind (e.ends_serializedLengthReturning b) fun _ h => .pure h.outcome

private theorem ends_vecCopy (e : Engine σ) (p : Ptr) (want : UInt64) (buffer : Bytes) :
    Ends (fun copied => ∀ f, copied.1 = some f → f.ByEngine) (e.vecCopy p want buffer) := by
  refine .ite (.pure nofun) (.after fun copied => .ite (.pure nofun) (.pure fun f hf => ?_))
  rw [← Option.some.inj hf]
  exact .noticed _

/-- An encoding may also fail because the host has no room for it; no bytes are returned then
either. -/
theorem ends_serializeReturning (e : Engine σ) (b : Book) :
    Ends (fun a => ∀ f, a = .error f → f.value = none) (e.serializeReturning b) := by
  have hnone : ∀ f : Fault, ∀ failed : Failed (Option Bytes),
      (.error ⟨f, none⟩ : Except _ Bytes) = .error failed → failed.value = none := by
    rintro f failed ⟨⟩
    rfl
  refine ends_withBook (fun f _ => hnone f) _ b fun book =>
    ends_withVec (fun f _ => hnone f) e book fun vec => ?_
  refine .after fun n => .ite (.pure (hnone _)) (.after ?_)
  rintro ⟨fault, after⟩
  cases fault with
  | none => exact .pure nofun
  | some f => exact .pure (hnone f)

theorem ends_serializeToReturning (e : Engine σ) (b : Book) (buffer : Bytes) :
    Ends (EngineReturn fun r : Filling => r.written = 0 ∧ r.fits = false)
      (e.serializeToReturning b buffer) := by
  refine .bind (P := EngineReturn fun _ => True) ?_ ?_
  · refine ends_withBook (fun _ h => .error h trivial) _ b fun book =>
      ends_withVec (fun _ h => .error h trivial) e book fun vec => ?_
    refine .after fun n => .ite (.pure (.ok _)) (.bind (e.ends_vecCopy vec n buffer) ?_)
    rintro ⟨fault, after⟩ hfault
    cases fault with
    | none => exact .pure (.ok _)
    | some f => exact .pure (.error (hfault f rfl) trivial)
  · intro outcome h
    cases outcome with
    | ok r => exact .pure (.ok r)
    | error f => exact .pure (.error (h f rfl).1 ⟨rfl, rfl⟩)

theorem ends_serializeTo (e : Engine σ) (b : Book) (buffer : Bytes) :
    Ends (fun filled => EngineOutcome filled.outcome) (e.serializeTo b buffer) := by
  refine .bind (e.ends_serializeToReturning b buffer) fun outcome h => .pure ?_
  cases outcome with
  | ok r => exact fun f hf => nomatch hf
  | error failed =>
    intro f hf
    rw [← Except.error.inj hf]
    exact (h failed rfl).1

end Engine

end EngineHost
