import EngineHost.Engine.Evaluation
import EngineHost.Engine.Interpreter
import EngineHost.Engine.Resource
import EngineHost.Fault

/-!
# Metrics

Counts of resource transitions and evaluations. A counter keeps whole additions exactly in a word
and the others in a floating-point number; what it shows is their sum.
-/

namespace EngineHost.Metrics

structure Counter where
  whole : UInt64 := 0
  rest : Binary64 := .zero
deriving DecidableEq, Repr, Inhabited

namespace Counter

def add (c : Counter) (x : Binary64) : Counter :=
  let n := x.truncate.toNat
  if n < 2 ^ 64 && Binary64.equal (Binary64.ofNat n) x then
    { c with whole := c.whole + UInt64.ofNat n }
  else { c with rest := Binary64.add c.rest x }

def increment (c : Counter) : Counter := { c with whole := c.whole + 1 }

def value (c : Counter) : Binary64 := Binary64.add c.rest (Binary64.ofNat c.whole.toNat)

end Counter

/-- The upper bounds of the duration buckets, in seconds: each is four times the one before. -/
def bounds : List Binary64 :=
  (List.range 11).foldl (fun bs _ => bs ++ [Binary64.mul (bs.getLastD .zero) (Binary64.ofNat 4)])
    [Binary64.ofRatio false 1 10000]

structure Histogram where
  /-- The numbers of observations in the buckets, each not counting those below. -/
  buckets : List Nat := List.replicate 12 0
  count : Nat := 0
  sum : Binary64 := .zero
deriving DecidableEq, Repr, Inhabited

/-- Adds one observation: to the first bucket whose bound it does not pass, if there is one. -/
def Histogram.observe (h : Histogram) (x : Binary64) : Histogram :=
  let i := bounds.findIdx fun b => Binary64.lessEqual x b
  { buckets := h.buckets.modify i (· + 1)
    count := h.count + 1
    sum := Binary64.add h.sum x }

abbrev Table (α : Type) := List (List Bytes × α)

namespace Table

variable {α : Type}

/-- Changes the value under label values, starting from a default. -/
def update (t : Table α) (key : List Bytes) (default : α) (f : α → α) : Table α :=
  match t with
  | [] => [(key, f default)]
  | (k, v) :: rest => if k == key then (k, f v) :: rest else (k, v) :: update rest key default f

def get? (t : Table α) (key : List Bytes) : Option α := (t.find? fun e => e.1 == key).map (·.2)

/-- The order of label values, compared from left to right. -/
def keyLess : List Bytes → List Bytes → Bool
  | [], b => !b.isEmpty
  | _, [] => false
  | x :: a, y :: b => Bytes.less x y || (x == y && keyLess a b)

/-- The entries in the order of their label values. -/
def sorted (t : Table α) : Table α := t.mergeSort fun a b => !keyLess b.1 a.1

end Table

structure Registry where
  /-- Transitions by transition and kind. -/
  events : Table Counter := []
  /-- Live resources by kind. -/
  live : Table Binary64 := []
  /-- Evaluations by interpreter and outcome. -/
  evaluations : Table Counter := []
  /-- Durations by interpreter. -/
  durations : Table Histogram := []
  /-- Interactions by interpreter. -/
  interactions : Table Counter := []
deriving Repr, Inhabited

/-- Counts a transition under the names of its kind and of itself. -/
def Registry.count (m : Registry) (kind transition : Bytes) : Registry :=
  let m := { m with events := m.events.update [transition, kind] {} Counter.increment }
  if transition = Transition.allocated.name then
    { m with live := m.live.update [kind] .zero fun x => Binary64.add x (Binary64.ofNat 1) }
  else if transition = Transition.released.name then
    { m with live := m.live.update [kind] .zero fun x => Binary64.add x (Binary64.ofInt (-1)) }
  else m

/-- Counts a transition that is given by names. The host does not survive a label that is no
text. -/
def Registry.observeNamed (m : Registry) (kind transition : Bytes) : Except Fault Registry :=
  match [kind, transition].find? fun label => !Utf8.valid label with
  | some label => .error (.crash ("label value " ++ Quoted.text label ++ " is not valid UTF-8"))
  | none => .ok (m.count kind transition)

/-- Counts a transition; the names of all kinds and transitions are texts. -/
def Registry.observe (m : Registry) (e : Event) : Registry :=
  m.count e.resource.name e.transition.name

/-- Counts an evaluation; one that failed has nothing else to count. -/
def Registry.observeEvaluation (m : Registry) (i : Interpreter) (outcome : Option Evaluation) :
    Registry :=
  match outcome with
  | none => { m with evaluations := m.evaluations.update [i.name, "error"] {} Counter.increment }
  | some e =>
    { m with
      evaluations := m.evaluations.update [i.name, "success"] {} Counter.increment
      durations := m.durations.update [i.name] {} fun h => h.observe e.duration.seconds
      interactions := m.interactions.update [i.name] {} fun c =>
        c.add (Binary64.ofNat e.iterations.toNat) }

end EngineHost.Metrics
