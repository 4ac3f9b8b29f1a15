import EngineHost.Engine.Record
import EngineHost.Engine.Resource
import EngineHost.Simulator.Program

/-!
# The ledger of the simulated engine

Every allocation is entered in a ledger and struck off when it is released, and every misuse of an
address is written down, so that leaks, double releases and wrong releases show.
-/

namespace EngineHost.Simulator

/-- What an address stands for. Texts end with a zero byte. -/
inductive Allocation
  | book (program : Program)
  | vec (data : Bytes)
  | evaluation (record : Record)
  | text (data : Bytes)
  /-- A text owned by an evaluation record. -/
  | recordText (data : Bytes)
deriving DecidableEq, Repr

/-- The kind of an allocation that callers release themselves. -/
def Allocation.resource? : Allocation → Option Resource
  | book _ => some .book
  | vec _ => some .vec
  | evaluation _ => some .evaluation
  | text _ => some .text
  | recordText _ => none

def Allocation.kindName (a : Allocation) : Bytes :=
  match a.resource? with
  | some r => r.name
  | none => "record_string"

inductive Function
  | bookParse | freeBook | bookEvaluate | freeEvaluation | bookSerialize
  | vecLength | vecCopy | freeVec | freeText
deriving DecidableEq, Repr

def Function.name : Function → Bytes
  | bookParse => "book_parse"
  | freeBook => "free_book"
  | bookEvaluate => "book_evaluate"
  | freeEvaluation => "free_evaluation_result"
  | bookSerialize => "book_serialize"
  | vecLength => "vec_get_length"
  | vecCopy => "vec_copy"
  | freeVec => "free_vec"
  | freeText => "free_cstring"

def Function.all : List Function :=
  [bookParse, freeBook, bookEvaluate, freeEvaluation, bookSerialize, vecLength, vecCopy, freeVec,
    freeText]

inductive Violation
  | notLive (f : Function) (p : Ptr)
  | wrongKind (f : Function) (p : Ptr) (found : Bytes) (wanted : Resource)
  | shortBuffer (capacity length : Nat)
  | notText (p : Ptr)
  | notRecord (p : Ptr)
deriving DecidableEq, Repr

def Violation.message : Violation → Bytes
  | notLive f p => f.name ++ ": " ++ Bytes.ofAddress p ++
      " is not a live allocation (use after free or double free)"
  | wrongKind f p found wanted => f.name ++ ": " ++ Bytes.ofAddress p ++ " is a " ++ found ++
      ", want " ++ wanted.name
  | shortBuffer capacity length => Function.vecCopy.name ++ ": destination holds " ++
      Bytes.ofNat capacity ++ " bytes, vector has " ++ Bytes.ofNat length
  | notText p => "read of " ++ Bytes.ofAddress p ++ ": not a live string"
  | notRecord p => "read of " ++ Bytes.ofAddress p ++ ": not a live evaluation record"

/-- The allocations, the counted calls and the violations so far. -/
structure Ledger where
  /-- The address handed out last. -/
  last : Ptr := 0x1000
  live : List (Ptr × Allocation) := []
  calls : List Function := []
  violations : List Violation := []
deriving DecidableEq, Repr, Inhabited

namespace Ledger

def find? (l : Ledger) (p : Ptr) : Option Allocation :=
  (l.live.find? fun e => e.1 == p).map (·.2)

/-- Enters an allocation at the next address. -/
def allocate (l : Ledger) (a : Allocation) : Ptr × Ledger :=
  let p := l.last + 0x10
  (p, { l with last := p, live := l.live ++ [(p, a)] })

def erase (l : Ledger) (p : Ptr) : Ledger := { l with live := l.live.filter fun e => e.1 != p }

def count (l : Ledger) (f : Function) : Ledger := { l with calls := l.calls ++ [f] }

def violate (l : Ledger) (v : Violation) : Ledger := { l with violations := l.violations ++ [v] }

/-- Enters a text with its terminator. -/
def allocateText (l : Ledger) (s : Bytes) : Ptr × Ledger := l.allocate (.text (s ++ [0]))

def allocateRecordText (l : Ledger) (s : Bytes) : Ptr × Ledger :=
  l.allocate (.recordText (s ++ [0]))

/-- What an address stands for, if it is live and of the kind that a call needs; otherwise the
violation is written down. -/
def lookup (l : Ledger) (f : Function) (p : Ptr) (wanted : Resource) :
    Option Allocation × Ledger :=
  match l.find? p with
  | none => (none, l.violate (.notLive f p))
  | some a =>
    if a.resource? = some wanted then (some a, l)
    else (none, l.violate (.wrongKind f p a.kindName wanted))

/-- Releases an address of the kind that a call releases. -/
def free (l : Ledger) (f : Function) (p : Ptr) (kind : Resource) : Ledger :=
  match l.lookup f p kind with
  | (some _, l) => l.erase p
  | (none, l) => l

/-- The number of live allocations of a kind, given by its name. -/
def outstandingOf (l : Ledger) (kind : Bytes) : Nat := l.live.countP fun e => e.2.kindName == kind

/-- The number of live allocations, not counting texts owned by records. -/
def outstanding (l : Ledger) : Nat := l.live.countP fun e => e.2.resource?.isSome

def callCount (l : Ledger) (f : Function) : Nat := l.calls.count f

/-- The leaked allocations by kind and address, in the order of their texts. -/
def leaks (l : Ledger) : List Bytes :=
  let texts := l.live.filterMap fun (p, a) =>
    a.resource?.map fun r => r.name ++ "@" ++ Bytes.ofAddress p
  texts.mergeSort fun a b => !Bytes.less b a

/-- Everything wrong with a ledger that should be clean. -/
def complaints (l : Ledger) : List Bytes :=
  let leaked := l.leaks
  let leakLine : List Bytes :=
    if leaked.isEmpty then []
    else ["hvmtest: " ++ Bytes.ofNat leaked.length ++ " native allocations leaked: " ++
      Bytes.join ", " leaked]
  leakLine ++ l.violations.map fun v => Bytes.ofString "hvmtest: " ++ v.message

end Ledger

end EngineHost.Simulator
