import EngineHost.Guest.Instance

/-!
# Scripted guests

A guest that follows a script: the n-th call of a function does what the n-th entry for it says,
and calls without an entry behave like those of a minimal engine with a bump allocator.
-/

namespace EngineHost.Guest.Script

/-- A write to an address, or to an address relative to an argument of the call. -/
structure Write where
  base : Option Nat := none
  offset : UInt32 := 0
  data : Bytes
deriving DecidableEq, Repr

inductive Ending
  | trap (text : Bytes)
  /-- As a call without an entry. -/
  | usual
  | results (values : List UInt64)
deriving DecidableEq, Repr

/-- What one call does, in this order. -/
structure Entry where
  writes : List Write := []
  prints : List Bytes := []
  logs : List UInt64 := []
  ending : Ending := .results []
deriving DecidableEq, Repr

/-- The entries of the functions, by export. -/
abbrev Scripts := List (Export × List Entry)

/-- The state of a scripted guest: its heap, and the calls it has seen. -/
structure State where
  heap : UInt32 := 1024
  seen : List Export := []
deriving DecidableEq, Repr, Inhabited

def Write.address (w : Write) (args : List UInt64) : UInt32 :=
  match w.base with
  | none => w.offset
  | some i => (args.getD i 0).toUInt32 + w.offset

/-- The next heap address behind a reservation, a multiple of eight. -/
def bump (heap size : UInt32) : UInt32 := (heap + size + 7) &&& 0xfffffff8

/-- The usual behaviour of a function: the allocator reserves, four functions return zero, the
others return nothing. -/
def usual (f : Export) (args : List UInt64) (s : State) : List UInt64 × State :=
  match f with
  | .allocate => ([s.heap.toUInt64], { s with heap := bump s.heap (args.getD 0 0).toUInt32 })
  | .bookParse | .bookEvaluate | .bookSerialize | .vecLength => ([0], s)
  | _ => ([], s)

def next? (scripts : Scripts) (f : Export) (s : State) : Option Entry :=
  (scripts.find? (·.1 == f)).bind fun e => e.2[s.seen.count f]?

def run (scripts : Scripts) (f : Export) (args : List UInt64) (s : State) (_ : Memory) :
    Run State :=
  let seen := { s with seen := s.seen ++ [f] }
  match next? scripts f s with
  | none =>
    let (results, s) := usual f args seen
    { outcome := .ok results, state := s }
  | some entry =>
    let effects := entry.writes.map (fun w => Effect.store (w.address args) w.data) ++
      entry.prints.map Effect.print ++ entry.logs.map Effect.log
    match entry.ending with
    | .trap text => { effects := effects, outcome := .error text, state := seen }
    | .results values => { effects := effects, outcome := .ok values, state := seen }
    | .usual =>
      let (results, s) := usual f args seen
      { effects := effects, outcome := .ok results, state := s }

/-- A scripted module. Functions without an export name go by an internal one. -/
def machine (scripts : Scripts) (unnamed : List Bytes) (maxLog : UInt32) : Machine State where
  run := run scripts
  label f := if unnamed.contains f.name then "fn." ++ f.name else f.name
  maxLog := maxLog

end EngineHost.Guest.Script
