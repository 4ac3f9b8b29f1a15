import EngineHost.Proofs.History
import EngineHost.Simulator.Engine
import Mathlib.Data.List.Basic

/-!
# Native texts that the host holds

The host asks a native text for its bytes, releases it and asks whether there is still something to
release, as often as it likes and in any order. A text has two flags, each of which is set once: it
has been decoded, and it has been released. Which of them is set first decides what the text shows
from then on.
-/

namespace EngineHost

variable {σ : Type} {e : Engine σ}

namespace NativeText

inductive Use
  | text
  | release
  | hasValue
deriving DecidableEq, Repr

def Use.operation (i : Nat) : Use → Operation
  | text => .textText i
  | release => .textRelease i
  | hasValue => .textHasValue i

/-- Whether the text is asked for without having been released before. -/
def askedFirst (uses : List Use) : Bool := uses.idxOf .text < uses.idxOf .release

@[simp] theorem askedFirst_nil : askedFirst [] = false := rfl

@[simp] theorem askedFirst_text (uses : List Use) : askedFirst (.text :: uses) = true := by
  simp [askedFirst]

@[simp] theorem askedFirst_release (uses : List Use) : askedFirst (.release :: uses) = false := by
  simp [askedFirst]

@[simp] theorem askedFirst_hasValue (uses : List Use) :
    askedFirst (.hasValue :: uses) = askedFirst uses := by
  simp [askedFirst]

section Course

variable (t : NativeText) (b : Boundary σ) (s s' : σ) (bytes : Bytes) (u : Use) (uses : List Use)

/-- What a text shows whenever it is asked in the course of some uses. -/
def shown : Bytes := t.decoded.getD (if askedFirst uses then b.textAt t.ptr s else [])

/-- The calls that are made in the course of some uses. -/
def calls : List Call :=
  unlessNull t.ptr ((if t.decoded.isNone && askedFirst uses then [.readText t.ptr] else []) ++
    if .release ∈ uses then [.freeText t.ptr] else [])

/-- The answer to a use of a text that shows some bytes, when other uses came before it. -/
def answer (before : List Use) : Use → Answer
  | .text => .text bytes
  | .release => .textReleased
  | .hasValue => .flag (t.hasValue && !before.contains .release)

def answers : List Answer := uses.mapIdx fun n u => t.answer bytes (uses.take n) u

def next : Use → NativeText
  | .text => { t with decoded := some (t.decoded.getD (b.textAt t.ptr s)) }
  | .release => { t with ptr := 0 }
  | .hasValue => t

/-- What is shown does not change, whatever a call does to the backend. -/
theorem shown_next (hs : u = .hasValue → s' = s) :
    (t.next b s u).shown b s' uses = t.shown b s (u :: uses) := by
  cases u with
  | text => simp [shown, next]
  | release => simp [shown, next, Boundary.textAt]
  | hasValue => simp [shown, next, hs rfl]

private theorem calls_cons : t.calls (u :: uses) = t.calls [u] ++ (t.next b s u).calls uses := by
  by_cases ht : t.ptr = 0
  · cases u <;> simp [calls, next, ht]
  · cases u <;> simp [calls, next, ht]

private theorem answers_cons :
    t.answers bytes (u :: uses) = t.answer bytes [] u :: (t.next b s u).answers bytes uses := by
  have hrest : ∀ n v, t.answer bytes (u :: uses.take n) v =
      (t.next b s u).answer bytes (uses.take n) v := by
    intro n v
    cases u <;> cases v <;> simp [answer, next, hasValue]
  simp [answers, List.mapIdx_cons, hrest]

end Course

/-- At most one read and one release of what is at an address, and which of them there are. -/
structure OneShot (p : Ptr) (uses : List Use) (calls : List Call) : Prop where
  addressed : ∀ c ∈ calls, p ≠ 0 ∧ (c = .readText p ∨ c = .freeText p)
  read_once : calls.count (.readText p) ≤ 1
  freed_once : calls.count (.freeText p) ≤ 1
  /-- Nothing is read once the text is released. -/
  ordered : calls.Pairwise fun c c' => ¬(c = .freeText p ∧ c' = .readText p)
  read_iff : .readText p ∈ calls ↔ p ≠ 0 ∧ askedFirst uses = true
  freed_iff : .freeText p ∈ calls ↔ p ≠ 0 ∧ .release ∈ uses

private theorem oneShot_calls (p : Ptr) (uses : List Use) :
    OneShot p uses (calls { ptr := p } uses) := by
  have hcalls : calls { ptr := p } uses = unlessNull p
      ((if askedFirst uses then [.readText p] else []) ++
        if .release ∈ uses then [.freeText p] else []) := rfl
  rw [hcalls]
  by_cases hp : p = 0
  · constructor <;> simp [hp]
  · rw [unlessNull_of_ne hp]
    by_cases hasked : askedFirst uses = true <;> by_cases hreleased : Use.release ∈ uses <;>
      constructor <;> simp [hp, hasked, hreleased]

end NativeText

namespace Engine

private theorem runs_text_any (t : NativeText) (s : σ) :
    ∃ s', Runs e (t.text e.boundary) s
      (t.decoded.getD (e.boundary.textAt t.ptr s), t.next e.boundary s .text) s'
      (t.calls [.text]) [] := by
  obtain ⟨p, decoded⟩ := t
  cases decoded with
  | none =>
    have hcalls : NativeText.calls ⟨p, none⟩ [.text] = unlessNull p [.readText p] := by
      simp [NativeText.calls]
    rw [hcalls]
    exact ⟨_, Runs.map (fun text => (text, NativeText.mk p (some text))) (runs_decodeText p s)⟩
  | some text =>
    have hcalls : NativeText.calls ⟨p, some text⟩ [.text] = [] := by
      simp [NativeText.calls, unlessNull]
    rw [hcalls]
    exact ⟨s, Runs.pure (text, _) s⟩

private theorem runs_release_any (t : NativeText) (s : σ) :
    ∃ s', Runs e (t.release e.boundary) s (t.next e.boundary s .release) s'
      (t.calls [.release]) [] := by
  have hcalls : t.calls [.release] = unlessNull t.ptr [.freeText t.ptr] := by
    simp [NativeText.calls]
  rw [hcalls]
  by_cases ht : t.ptr = 0
  · obtain ⟨p, decoded⟩ := t
    obtain rfl : p = 0 := ht
    exact ⟨s, Runs.pure _ s⟩
  · rw [unlessNull_of_ne ht]
    exact ⟨_, runs_release ht s⟩

end Engine

namespace Session

open NativeText

variable {s : Session σ} {i : Nat} {t : NativeText}

private theorem step_textText (ht : s.texts[i]? = some t) :
    s.step e (.textText i) = let r := t.text e.boundary s.world
      (.text r.1.1, { s with world := r.2, texts := s.texts.set i r.1.2 }) := by
  simp only [step, onText, ht, lift]
  rfl

private theorem step_textRelease (ht : s.texts[i]? = some t) :
    s.step e (.textRelease i) = let r := t.release e.boundary s.world
      (.textReleased, { s with world := r.2, texts := s.texts.set i r.1 }) := by
  simp only [step, onText, ht, lift]
  rfl

private theorem step_textHasValue (ht : s.texts[i]? = some t) :
    s.step e (.textHasValue i) = (.flag t.hasValue, s) := by
  simp only [step, onText, ht]

/-- One use of a text: the answer, the calls, and what is left of it. -/
theorem step_use (ht : s.texts[i]? = some t) (u : Use) (uses : List Use) :
    let r := s.step e (u.operation i)
    r.1 = t.answer (t.shown e.boundary s.world.backend (u :: uses)) [] u ∧
      r.2.world.trace = s.world.trace ++ t.calls [u] ∧
      r.2.texts[i]? = some (t.next e.boundary s.world.backend u) ∧
      (u = .hasValue → r.2.world.backend = s.world.backend) := by
  have hi : i < s.texts.length := (List.getElem?_eq_some_iff.1 ht).1
  cases u with
  | hasValue =>
    simp [Use.operation, step_textHasValue ht, ht, answer, next, calls, unlessNull]
  | text =>
    obtain ⟨_, hruns⟩ := Engine.runs_text_any (e := e) t s.world.backend
    obtain ⟨hvalue, -, htrace, -⟩ := hruns s.world rfl
    simp [Use.operation, step_textText ht, hvalue, htrace, answer, shown, hi]
  | release =>
    obtain ⟨_, hruns⟩ := Engine.runs_release_any (e := e) t s.world.backend
    obtain ⟨hvalue, -, htrace, -⟩ := hruns s.world rfl
    simp [Use.operation, step_textRelease ht, hvalue, htrace, answer, hi]

private theorem run_uses (ht : s.texts[i]? = some t) (uses : List Use) :
    let r := s.run e (uses.map (Use.operation i))
    r.1 = t.answers (t.shown e.boundary s.world.backend uses) uses ∧
      r.2.world.trace = s.world.trace ++ t.calls uses := by
  induction uses generalizing s t with
  | nil => simp [run, answers, calls, unlessNull]
  | cons u uses ih =>
    obtain ⟨hanswer, htrace, htext, hbackend⟩ := step_use (e := e) ht u uses
    obtain ⟨hanswers, htraces⟩ := ih htext
    rw [shown_next _ _ _ _ _ _ hbackend] at hanswers
    simp only [List.map_cons, run]
    constructor
    · rw [hanswer, hanswers, ← answers_cons]
    · rw [htraces, htrace, List.append_assoc, ← calls_cons]

/-- Whatever serves the boundary, and however often and in which order the host uses the text of an
address: it is read once at most and then released once at most, it shows one text for good, and it
has a value until it is released. -/
theorem newText_one_shot (e : Engine σ) (s : Session σ) (p : Ptr) (uses : List Use) :
    let opened := (s.step e (.newText p)).2
    let r := opened.run e (uses.map (Use.operation s.texts.length))
    (∃ calls, r.2.world.trace = s.world.trace ++ calls ∧ OneShot p uses calls) ∧
      (∀ n : Nat, uses[n]? = some Use.text → r.1[n]? = some (Answer.text
        (if askedFirst uses then (e.boundary.decodeText p s.world).1 else []))) ∧
      ∀ n : Nat, uses[n]? = some Use.hasValue → ∃ b, r.1[n]? = some (Answer.flag b) ∧
        (b = true ↔ p ≠ 0 ∧ Use.release ∉ uses.take n) := by
  intro opened r
  have htext : opened.texts[s.texts.length]? = some { ptr := p } := List.getElem?_concat_length
  obtain ⟨hanswers, htrace⟩ := run_uses (e := e) htext uses
  have hdecoded : e.boundary.textAt p s.world.backend = (e.boundary.decodeText p s.world).1 :=
    (Engine.runs_decodeText (e := e) p s.world.backend s.world rfl).1.symm
  have hanswer : ∀ (n : Nat) (u : Use), uses[n]? = some u →
      r.1[n]? = some (NativeText.answer { ptr := p }
        (if askedFirst uses then (e.boundary.decodeText p s.world).1 else []) (uses.take n) u) := by
    intro n u hu
    rw [hanswers, ← hdecoded, answers, List.getElem?_mapIdx, hu]
    rfl
  refine ⟨⟨_, htrace, oneShot_calls p uses⟩, fun n hn => hanswer n _ hn, fun n hn => ?_⟩
  exact ⟨_, hanswer n _ hn, by simp [NativeText.hasValue]⟩

example : ((start {}).run { boundary := Simulator.boundary { parseError := "stopped" } }
    [.raw (.parse "@main" 0), .newText 4112, .textHasValue 0, .textText 0, .textRelease 0,
      .textText 0, .textRelease 0]).2.world.trace =
    [.parse 0 4112, .readText 4112, .freeText 4112] := by
  decide

end Session

end EngineHost
