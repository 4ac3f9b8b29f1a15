import EngineHost.Engine.Interpreter
import EngineHost.Engine.Record
import EngineHost.Log.Record

/-!
# The engine boundary

The calls that an engine offers to its host, whatever serves them. A call that can fail takes the
content of an error slot and gives back the content afterwards; a non-zero content is the address
of an error text that the host has to release.
-/

namespace EngineHost

/-- The answer to a call: its value, the backend's state afterwards, and what was logged. -/
structure Reply (σ α : Type) where
  value : α
  state : σ
  log : List Log.Record := []

/-- The value of a fallible call: the address of what was made, zero if nothing was, and the
content of the error slot. -/
structure Made where
  ptr : Ptr
  slot : Ptr
deriving DecidableEq, Repr

/-- The calls of an engine, as functions on the state of the backend that serves them. -/
structure Boundary (σ : Type) where
  /-- Compiles a program text into a book. -/
  parse : (source : Bytes) → (slot : Ptr) → σ → Reply σ Made
  freeBook : Ptr → σ → Reply σ Unit
  /-- Reduces the main definition of a book and makes an evaluation record. -/
  evaluate : (book : Ptr) → Interpreter → (dump : UInt32) → (slot : Ptr) → σ → Reply σ Made
  /-- Releases an evaluation record with the texts it points to. -/
  freeEvaluation : Ptr → σ → Reply σ Unit
  /-- Encodes a book into a byte vector. -/
  serialize : (book : Ptr) → (slot : Ptr) → σ → Reply σ Made
  /-- The number of bytes in a vector. -/
  vecLength : Ptr → σ → Reply σ UInt64
  /-- Copies a vector over a buffer: the number of bytes copied, and the buffer afterwards. -/
  vecCopy : Ptr → (buffer : Bytes) → σ → Reply σ (UInt64 × Bytes)
  freeVec : Ptr → σ → Reply σ Unit
  /-- Releases an error text. -/
  freeText : Ptr → σ → Reply σ Unit
  /-- The bytes of a text up to its terminator, if it can be read. -/
  readText : Ptr → σ → Reply σ (Option Bytes)
  /-- The evaluation record at an address, if it can be read. -/
  readRecord : Ptr → σ → Reply σ (Option Record)

inductive Call
  | parse (result slot : Ptr)
  | freeBook (ptr : Ptr)
  | evaluate (book : Ptr) (interpreter : Interpreter) (dump : UInt32) (result slot : Ptr)
  | freeEvaluation (ptr : Ptr)
  | serialize (book result slot : Ptr)
  | vecLength (ptr : Ptr) (length : UInt64)
  | vecCopy (ptr : Ptr) (capacity : Nat) (copied : UInt64)
  | freeVec (ptr : Ptr)
  | freeText (ptr : Ptr)
  | readText (ptr : Ptr)
  | readRecord (ptr : Ptr)
deriving DecidableEq, Repr

def Call.fields : Call → Bytes × List Nat
  | parse result slot => ("book_parse", [result.toNat, slot.toNat])
  | freeBook p => ("free_book", [p.toNat])
  | evaluate book i dump result slot => ("book_evaluate",
      [book.toNat, i.code.toNat, dump.toNat, result.toNat, slot.toNat])
  | freeEvaluation p => ("free_evaluation_result", [p.toNat])
  | serialize book result slot => ("book_serialize", [book.toNat, result.toNat, slot.toNat])
  | vecLength p n => ("vec_get_length", [p.toNat, n.toNat])
  | vecCopy p capacity n => ("vec_copy", [p.toNat, capacity, n.toNat])
  | freeVec p => ("free_vec", [p.toNat])
  | freeText p => ("free_cstring", [p.toNat])
  | readText p => ("read_cstring", [p.toNat])
  | readRecord p => ("read_evaluation_result", [p.toNat])

/-- Answers that are replaced on their way from a backend to the host. -/
structure Overrides where
  /-- Parsing, evaluating or serializing makes nothing and leaves the slot as it is. -/
  noBook : Bool := false
  noEvaluation : Bool := false
  noVec : Bool := false
  vecLength : Option UInt64 := none
  vecCopied : Option UInt64 := none
  unreadableRecord : Bool := false
  unreadableText : Bool := false
  iterations : Option UInt64 := none
deriving DecidableEq, Repr, Inhabited

def Reply.map {σ α β : Type} (f : α → β) (r : Reply σ α) : Reply σ β := ⟨f r.value, r.state, r.log⟩

def Boundary.overridden {σ : Type} (b : Boundary σ) (o : Overrides) : Boundary σ :=
  { b with
    parse := fun source slot s =>
      if o.noBook then ⟨⟨0, slot⟩, s, []⟩ else b.parse source slot s
    evaluate := fun book i dump slot s =>
      if o.noEvaluation then ⟨⟨0, slot⟩, s, []⟩ else b.evaluate book i dump slot s
    serialize := fun book slot s =>
      if o.noVec then ⟨⟨0, slot⟩, s, []⟩ else b.serialize book slot s
    vecLength := fun p s => (b.vecLength p s).map fun n => o.vecLength.getD n
    vecCopy := fun p buffer s =>
      (b.vecCopy p buffer s).map fun (n, buf) => (o.vecCopied.getD n, buf)
    readText := fun p s => if o.unreadableText then ⟨none, s, []⟩ else b.readText p s
    readRecord := fun p s =>
      if o.unreadableRecord then ⟨none, s, []⟩
      else (b.readRecord p s).map fun r =>
        r.map fun rec => { rec with iterations := o.iterations.getD rec.iterations } }

end EngineHost
