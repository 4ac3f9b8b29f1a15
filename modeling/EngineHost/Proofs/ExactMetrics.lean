import EngineHost.Proofs.Counting
import EngineHost.Proofs.LabelTable
import EngineHost.Proofs.SignedNumeral
import Mathlib.Algebra.BigOperators.Group.List.Basic
import Mathlib.Data.Nat.SuccPred

/-!
# Exact metrics

Metrics are fed by transitions and evaluations in any order, under any names. What each of them
shows is the number of observations of its own kind, so the order does not matter.
-/

namespace EngineHost

namespace Interpreter

end Interpreter

namespace Metrics

/-- What metrics are told: a transition by the names of its kind and of itself, or an evaluation
with its result and its fault. -/
inductive Observation
  | transition (kind name : Bytes)
  | evaluation (i : Interpreter) (result : Evaluation) (fault : Option Fault)

namespace Observation

def isTransition (kind name : Bytes) : Observation → Bool
  | transition k n => k == kind && n == name
  | evaluation .. => false

def evaluates (i : Interpreter) (well : Bool) : Observation → Bool
  | transition .. => false
  | evaluation j _ fault => j == i && fault.isNone == well

def interactions (i : Interpreter) : Observation → Nat
  | evaluation j result none => if j = i then result.iterations.toNat else 0
  | _ => 0

/-- By how much an observation changes the number of live resources of a kind. -/
def change (kind : Bytes) (o : Observation) : Int :=
  if o.isTransition kind Transition.allocated.name then 1
  else if o.isTransition kind Transition.released.name then -1
  else 0

private theorem natAbs_change_le (kind : Bytes) (o : Observation) : (o.change kind).natAbs ≤ 1 := by
  rw [change]
  split_ifs <;> decide

private theorem isTransition_released_of_allocated {kind : Bytes} {o : Observation}
    (h : o.isTransition kind Transition.allocated.name = true) :
    o.isTransition kind Transition.released.name = false := by
  cases o with
  | evaluation => rfl
  | transition k n =>
    simp only [isTransition, Bool.and_eq_true, beq_iff_eq] at h
    have hother : (n == Transition.released.name) = false := by
      rw [h.2]
      decide
    rw [isTransition, hother, Bool.and_false]

theorem sum_change (kind : Bytes) (os : List Observation) :
    (os.map (change kind)).sum = os.countP (isTransition kind Transition.allocated.name) -
      os.countP (isTransition kind Transition.released.name) := by
  induction os with
  | nil => rfl
  | cons o os ih =>
    rw [List.map_cons, List.sum_cons, ih, List.countP_cons, List.countP_cons, change]
    cases hmore : o.isTransition kind Transition.allocated.name with
    | true =>
      rw [isTransition_released_of_allocated hmore]
      simp only [if_true, Bool.false_eq_true, if_false]
      omega
    | false =>
      simp only [Bool.false_eq_true, if_false]
      split_ifs <;> omega

end Observation

namespace Counter

def counted (n : Nat) : Counter := { whole := UInt64.ofNat n }

end Counter

namespace Registry

open Observation

/-- The metrics after one more observation under any names. -/
def note (m : Registry) : Observation → Registry
  | .transition kind name => m.count kind name
  | .evaluation i result fault => m.observeEvaluation i (if fault.isSome then none else some result)

/-- The metrics after observations in order, under any names. -/
def after (os : List Observation) : Registry := os.foldl note {}

/-- The metrics after one more observation, if the host survives it. -/
def watch (m : Registry) : Observation → Except Fault Registry
  | .transition kind name => m.observeNamed kind name
  | .evaluation i result fault =>
    .ok (m.observeEvaluation i (if fault.isSome then none else some result))

/-- The metrics after observations in order, if the host survives them. -/
def observed (os : List Observation) : Except Fault Registry := os.foldlM watch {}

def outcomeName (well : Bool) : Bytes := if well then "success" else "error"

def resourcesLive (m : Registry) (kind : Bytes) : Binary64 := m.live.valueAt .zero [kind]

/-- The table of live resources after a transition of these names. -/
def liveAfter (live : Table Binary64) (kind name : Bytes) : Table Binary64 :=
  if name = Transition.allocated.name then live.update [kind] .zero fun x => x.add (.ofNat 1)
  else if name = Transition.released.name then live.update [kind] .zero fun x => x.add (.ofInt (-1))
  else live

section Steps

variable (m : Registry) (o : Observation) (kind name : Bytes) (i : Interpreter) (well : Bool)
  (result : Evaluation) (fault : Option Fault)

private theorem note_transition : m.note (.transition kind name) =
    { m with
      events := m.events.update [name, kind] {} Counter.increment
      live := liveAfter m.live kind name } := by
  rw [note, count, liveAfter]
  split_ifs <;> rfl

@[simp] theorem events_note_evaluation :
    (m.note (.evaluation i result fault)).events = m.events := by
  cases fault <;> rfl

@[simp] theorem live_note_evaluation : (m.note (.evaluation i result fault)).live = m.live := by
  cases fault <;> rfl

@[simp] theorem evaluations_note_evaluation :
    (m.note (.evaluation i result fault)).evaluations =
      m.evaluations.update [i.name, outcomeName fault.isNone] {} Counter.increment := by
  cases fault <;> rfl

private theorem resourcesLive_note :
    (m.note o).resourcesLive kind =
      if o.change kind = 0 then m.resourcesLive kind
      else (m.resourcesLive kind).add (.ofInt (o.change kind)) := by
  cases o with
  | evaluation j result fault => simp [resourcesLive, change, isTransition]
  | transition k n =>
    have hone : Binary64.ofNat 1 = .ofInt 1 := rfl
    have hnames : Transition.released.name ≠ Transition.allocated.name := by decide
    by_cases hk : k = kind
    · by_cases hallocated : n = Transition.allocated.name
      · simp [note_transition, liveAfter, resourcesLive, change, isTransition, hk, hallocated, hone]
      · by_cases hreleased : n = Transition.released.name
        · simp [note_transition, liveAfter, resourcesLive, change, isTransition, hk, hreleased,
            hnames]
        · simp [note_transition, liveAfter, resourcesLive, change, isTransition, hallocated,
            hreleased]
    · have hkept : (liveAfter m.live k n).valueAt .zero [kind] = m.live.valueAt .zero [kind] := by
        rw [liveAfter]
        split_ifs <;> simp [hk]
      simp [note_transition, resourcesLive, change, isTransition, hk, hkept]

end Steps

/-! ## Whole runs -/

variable {os os' : List Observation} {kind : Bytes} {i : Interpreter}

private theorem after_concat (os : List Observation) (o : Observation) :
    after (os ++ [o]) = (after os).note o := List.foldl_concat ..

/-- The gauge is exact as long as it stays in the range in which numbers are counted exactly. -/
theorem resourcesLive_after
    (hrange : ∀ pre, pre <+: os → (pre.map (change kind)).sum.natAbs ≤ 2 ^ 53) :
    (after os).resourcesLive kind = .ofInt (os.map (change kind)).sum := by
  induction os using List.reverseRecOn with
  | nil => rfl
  | append_singleton os o ih =>
    have hbefore := hrange os (List.prefix_append ..)
    have ih := ih fun pre hpre => hrange pre (hpre.trans (List.prefix_append ..))
    rw [after_concat, resourcesLive_note, ih, List.map_append, List.sum_append]
    simp only [List.map_cons, List.map_nil, List.sum_singleton]
    split_ifs with hnone
    · rw [hnone, Int.add_zero]
    · have hchange := natAbs_change_le kind o
      exact (Binary64.integral_ofInt hbefore).add (Binary64.integral_ofInt (by omega))

end Registry

end Metrics

end EngineHost
