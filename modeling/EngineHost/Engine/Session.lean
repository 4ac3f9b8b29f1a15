import EngineHost.Engine.Basic

/-!
# Sessions

A session is one engine with the books that it has parsed and the native texts that the host
holds, and a history of operations on them.
-/

namespace EngineHost

variable {σ : Type}

inductive BookRef
  /-- The n-th book that was parsed. -/
  | parsed (index : Nat)
  /-- A book that no engine has made. -/
  | foreign
deriving DecidableEq, Repr

/-- A call made at the boundary itself, past the engine. A call that can fail is given what its
error slot holds. -/
inductive RawCall
  | parse (source : Bytes) (slot : Ptr)
  | evaluate (book : Ptr) (interpreter : Interpreter) (dump : UInt32) (slot : Ptr)
  | serialize (book : Ptr) (slot : Ptr)
  | freeBook (p : Ptr)
  | freeEvaluation (p : Ptr)
  | freeVec (p : Ptr)
  | freeText (p : Ptr)
  | vecLength (p : Ptr)
  | vecCopy (p : Ptr) (buffer : Bytes)
  | readText (p : Ptr)
  | readRecord (p : Ptr)
deriving DecidableEq, Repr

inductive Operation
  | parse (source : Bytes)
  /-- Parses with an engine that was never made. -/
  | parseForeign
  /-- Makes an engine without a boundary. -/
  | newForeign
  | evaluate (book : BookRef) (options : EvaluateOptions)
  | serialize (book : BookRef)
  | serializeTo (book : BookRef) (buffer : Bytes)
  | serializedLength (book : BookRef)
  | close (book : BookRef)
  | released (book : BookRef)
  | finalize (book : BookRef)
  | newText (p : Ptr)
  | textHasValue (index : Nat)
  | textText (index : Nat)
  | textRelease (index : Nat)
  | decode (p : Ptr)
  | raw (call : RawCall)
deriving DecidableEq, Repr

inductive Answer
  | book (index : Nat)
  | evaluation (outcome : Except Fault Evaluation)
  | bytes (outcome : Except Fault Bytes)
  | filled (f : Engine.Filled)
  | length (outcome : Except Fault UInt64)
  | failed (f : Fault)
  | closed
  | finalized
  | flag (b : Bool)
  | index (n : Nat)
  | text (s : Bytes)
  | textReleased
  | noBook
  | noText
  | made (m : Made)
  | done
  | number (n : UInt64)
  | copied (n : UInt64) (buffer : Bytes)
  | readText (s : Option Bytes)
  | readRecord (r : Option Record)

structure Session (σ : Type) where
  world : World σ
  books : List Book := []
  texts : List NativeText := []

namespace Session

/-- The fault of an operation on a book that no engine has made. -/
def foreignBook (op : Bytes) : Fault := .misuse op "book was not created by Engine.Parse"

def lift {α : Type} (s : Session σ) (f : HostM σ α) : α × Session σ :=
  let (a, w) := f s.world
  (a, { s with world := w })

def onBook (s : Session σ) (ref : BookRef) (foreign : Answer)
    (f : Nat → Book → Session σ → Answer × Session σ) : Answer × Session σ :=
  match ref with
  | .foreign => (foreign, s)
  | .parsed i =>
    match s.books[i]? with
    | none => (.noBook, s)
    | some b => f i b s

def setBook (s : Session σ) (i : Nat) (b : Book) : Session σ := { s with books := s.books.set i b }

def onText (s : Session σ) (i : Nat) (f : NativeText → Session σ → Answer × Session σ) :
    Answer × Session σ :=
  match s.texts[i]? with
  | none => (.noText, s)
  | some t => f t s

def rawStep (b : Boundary σ) : RawCall → HostM σ Answer
  | .parse source slot => do
    return .made (← World.call (b.parse source slot) fun m => .parse m.ptr m.slot)
  | .evaluate book i dump slot => do
    return .made (← World.call (b.evaluate book i dump slot) fun m =>
      .evaluate book i dump m.ptr m.slot)
  | .serialize book slot => do
    return .made (← World.call (b.serialize book slot) fun m => .serialize book m.ptr m.slot)
  | .freeBook p => do
    World.call (b.freeBook p) fun _ => .freeBook p
    return .done
  | .freeEvaluation p => do
    World.call (b.freeEvaluation p) fun _ => .freeEvaluation p
    return .done
  | .freeVec p => do
    World.call (b.freeVec p) fun _ => .freeVec p
    return .done
  | .freeText p => do
    World.call (b.freeText p) fun _ => .freeText p
    return .done
  | .vecLength p => do
    return .number (← World.call (b.vecLength p) fun n => .vecLength p n)
  | .vecCopy p buffer => do
    let (n, after) ← World.call (b.vecCopy p buffer) fun r => .vecCopy p buffer.length r.1
    return .copied n after
  | .readText p => do
    return .readText (← World.call (b.readText p) fun _ => .readText p)
  | .readRecord p => do
    return .readRecord (← World.call (b.readRecord p) fun _ => .readRecord p)

def step (e : Engine σ) (s : Session σ) : Operation → Answer × Session σ
  | .parse source =>
    match s.lift (e.parse source) with
    | (.ok b, s) => (.book s.books.length, { s with books := s.books ++ [b] })
    | (.error f, s) => (.failed f, s)
  | .parseForeign => (.failed (.misuse "Engine.Parse" "engine was not created by hvm.New"), s)
  | .newForeign => (.failed (.misuse "hvm.New" "boundary is nil"), s)
  | .evaluate ref options => s.onBook ref (.failed (foreignBook "Book.Evaluate")) fun _ b s =>
      let (r, s) := s.lift (e.evaluate b options)
      (.evaluation r, s)
  | .serialize ref => s.onBook ref (.failed (foreignBook "Book.Serialize")) fun _ b s =>
      let (r, s) := s.lift (e.serialize b)
      (.bytes r, s)
  | .serializeTo ref buffer =>
    s.onBook ref (.failed (foreignBook "Book.SerializeTo")) fun _ b s =>
      let (r, s) := s.lift (e.serializeTo b buffer)
      (.filled r, s)
  | .serializedLength ref =>
    s.onBook ref (.failed (foreignBook "Book.SerializedLen")) fun _ b s =>
      let (r, s) := s.lift (e.serializedLength b)
      (.length r, s)
  | .close ref => s.onBook ref .closed fun i b s =>
      let (b, s) := s.lift (e.close b)
      (.closed, s.setBook i b)
  | .released ref => s.onBook ref (.flag true) fun _ b s => (.flag b.released, s)
  | .finalize ref => s.onBook ref .finalized fun i b s =>
      let (b, s) := s.lift (e.finalize b)
      (.finalized, s.setBook i b)
  | .newText p => (.index s.texts.length, { s with texts := s.texts ++ [{ ptr := p }] })
  | .textHasValue i => s.onText i fun t s => (.flag t.hasValue, s)
  | .textText i => s.onText i fun t s =>
      let ((text, t), s) := s.lift (t.text e.boundary)
      (.text text, { s with texts := s.texts.set i t })
  | .textRelease i => s.onText i fun t s =>
      let (t, s) := s.lift (t.release e.boundary)
      (.textReleased, { s with texts := s.texts.set i t })
  | .decode p =>
    let (text, s) := s.lift (e.boundary.decodeText p)
    (.text text, s)
  | .raw call => s.lift (rawStep e.boundary call)

def run (e : Engine σ) (s : Session σ) : List Operation → List Answer × Session σ
  | [] => ([], s)
  | op :: rest =>
    let (a, s) := step e s op
    let (as, s) := run e s rest
    (a :: as, s)

end Session

end EngineHost
