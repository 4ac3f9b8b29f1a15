import EngineHost.Engine.Evaluation
import EngineHost.Engine.NativeText

/-!
# Engines and books

An engine turns program texts into books, which live in engine memory until they are closed. Every
operation releases whatever else it was handed, whether it succeeds or fails, and a released book
refuses every further use.
-/

namespace EngineHost

variable {σ : Type}

structure Engine (σ : Type) where
  boundary : Boundary σ
  /-- Whether transitions are passed to an observer. -/
  observed : Bool := true
  /-- The length of the longest buffer that the host can make. No 64-bit length exceeds the
  default. -/
  room : Nat := 2 ^ 64

/-- An operation that failed: why, and the value that is returned beside the fault. -/
structure Failed (ρ : Type) where
  fault : Fault
  value : ρ

/-- A parsed program. Its address is zero once it has been released. -/
structure Book where
  ptr : Ptr
deriving DecidableEq, Repr, Inhabited

def Book.released (b : Book) : Bool := b.ptr == 0

structure EvaluateOptions where
  interpreter : Interpreter := .rust
  memDump : Bool := false
deriving DecidableEq, Repr, Inhabited

inductive EvaluateSetting
  | interpreter (i : Interpreter)
  | memDump (on : Bool)
deriving DecidableEq, Repr

def EvaluateOptions.set (o : EvaluateOptions) : EvaluateSetting → EvaluateOptions
  | .interpreter i => { o with interpreter := i }
  | .memDump on => { o with memDump := on }

/-- The options of a list of settings, later ones winning. -/
def EvaluateOptions.ofSettings (settings : List EvaluateSetting) : EvaluateOptions :=
  settings.foldl EvaluateOptions.set {}

namespace Engine

/-- Logs a transition and passes it to the observer. -/
def track (e : Engine σ) (r : Resource) (t : Transition) : HostM σ Unit := do
  World.emit ⟨.debug, "hvm: native resource", [⟨"kind", .other r.name⟩, ⟨"event", .other t.name⟩]⟩
  if e.observed then World.observe ⟨r, t⟩

/-- The fault in an error slot. The error text is decoded and released. -/
def checkSlot (e : Engine σ) (op : Bytes) (slot : Ptr) : HostM σ (Option Fault) := do
  let message : NativeText := { ptr := slot }
  if !message.hasValue then return none
  e.track .text .allocated
  let (text, message) ← message.text e.boundary
  let _ ← message.release e.boundary
  e.track .text .released
  return some (.interop op text)

def freeBook (e : Engine σ) (p : Ptr) : HostM σ Unit := do
  World.call (e.boundary.freeBook p) fun _ => .freeBook p
  e.track .book .released

def parseReturning (e : Engine σ) (source : Bytes) :
    HostM σ (Except (Failed (Option Book)) Book) := do
  let made ← World.call (e.boundary.parse source 0) fun m => .parse m.ptr m.slot
  if made.ptr ≠ 0 then e.track .book .allocated
  match ← e.checkSlot "book_parse" made.slot with
  | some fault =>
    if made.ptr ≠ 0 then e.freeBook made.ptr
    return .error ⟨fault, none⟩
  | none =>
    if made.ptr = 0 then return .error ⟨.interop "book_parse" "engine returned no book", none⟩
    else return .ok ⟨made.ptr⟩

def parse (e : Engine σ) (source : Bytes) : HostM σ (Except Fault Book) := do
  return (← e.parseReturning source).mapError Failed.fault

/-- Releases a book unless it is released already. -/
def close (e : Engine σ) (b : Book) : HostM σ Book := do
  if b.ptr = 0 then return b
  e.freeBook b.ptr
  return ⟨0⟩

/-- Releases a book that was forgotten, with a warning. -/
def finalize (e : Engine σ) (b : Book) : HostM σ Book := do
  if b.ptr = 0 then return b
  e.freeBook b.ptr
  e.track .book .finalized
  World.emit ⟨.warn,
    "hvm: book released by finalizer; call Close to release it deterministically", []⟩
  return ⟨0⟩

/-- Runs an operation on the address of a book that is still live. If it is not, `out` is returned
beside the fault. -/
def withBook {ρ α : Type} (op : Bytes) (b : Book) (out : ρ)
    (f : Ptr → HostM σ (Except (Failed ρ) α)) : HostM σ (Except (Failed ρ) α) :=
  if b.ptr = 0 then return .error ⟨.wrap op (.condition .released), out⟩ else f b.ptr

/-- Copies an evaluation record into a value that the host owns. -/
def copyRecord (e : Engine σ) (p : Ptr) : HostM σ (Except (Failed Evaluation) Evaluation) := do
  match ← World.call (e.boundary.readRecord p) fun _ => .readRecord p with
  | none => return .error ⟨.plain
      ("book_evaluate: evaluation record at " ++ Bytes.ofAddress p ++ " is not readable"), {}⟩
  | some record =>
    let result ← e.boundary.decodeText record.result
    let memDump ← e.boundary.decodeText record.memDump
    return .ok ⟨result, memDump, record.iterations, Duration.ofSeconds record.seconds⟩

def freeEvaluation (e : Engine σ) (p : Ptr) : HostM σ Unit := do
  World.call (e.boundary.freeEvaluation p) fun _ => .freeEvaluation p
  e.track .evaluation .released

/-- The outcome of an evaluation call that made the record at `p`. -/
def evaluationOf (e : Engine σ) (p slot : Ptr) :
    HostM σ (Except (Failed Evaluation) Evaluation) := do
  match ← e.checkSlot "book_evaluate" slot with
  | some fault => return .error ⟨fault, {}⟩
  | none =>
    if p = 0 then
      return .error ⟨.interop "book_evaluate" "engine returned no evaluation result", {}⟩
    else e.copyRecord p

def evaluateReturning (e : Engine σ) (b : Book) (options : EvaluateOptions) :
    HostM σ (Except (Failed Evaluation) Evaluation) :=
  withBook "Book.Evaluate" b {} fun book => do
    let dump : UInt32 := if options.memDump then 1 else 0
    let made ← World.call (e.boundary.evaluate book options.interpreter dump 0) fun m =>
      .evaluate book options.interpreter dump m.ptr m.slot
    if made.ptr ≠ 0 then e.track .evaluation .allocated
    let outcome ← e.evaluationOf made.ptr made.slot
    if made.ptr ≠ 0 then e.freeEvaluation made.ptr
    return outcome

def evaluate (e : Engine σ) (b : Book) (options : EvaluateOptions) :
    HostM σ (Except Fault Evaluation) := do
  return (← e.evaluateReturning b options).mapError Failed.fault

def freeVec (e : Engine σ) (p : Ptr) : HostM σ Unit := do
  World.call (e.boundary.freeVec p) fun _ => .freeVec p
  e.track .vec .released

/-- Encodes a book and uses the byte vector, which is released afterwards. If there is none, `out`
is returned beside the fault. -/
def withVec {ρ α : Type} (e : Engine σ) (book : Ptr) (out : ρ)
    (use : Ptr → HostM σ (Except (Failed ρ) α)) : HostM σ (Except (Failed ρ) α) := do
  let made ← World.call (e.boundary.serialize book 0) fun m => .serialize book m.ptr m.slot
  if made.ptr ≠ 0 then e.track .vec .allocated
  match ← e.checkSlot "book_serialize" made.slot with
  | some fault =>
    if made.ptr ≠ 0 then e.freeVec made.ptr
    return .error ⟨fault, out⟩
  | none =>
    if made.ptr = 0 then
      return .error ⟨.interop "book_serialize" "engine returned no buffer", out⟩
    else
      let outcome ← use made.ptr
      e.freeVec made.ptr
      return outcome

def vecLength (e : Engine σ) (p : Ptr) : HostM σ UInt64 :=
  World.call (e.boundary.vecLength p) fun n => .vecLength p n

/-- Copies the `want` bytes of a vector over a buffer, and reports the buffer afterwards. An empty
vector is not asked for. -/
def vecCopy (e : Engine σ) (p : Ptr) (want : UInt64) (buffer : Bytes) :
    HostM σ (Option Fault × Bytes) := do
  if want = 0 then return (none, buffer)
  let (got, after) ← World.call (e.boundary.vecCopy p buffer) fun r =>
    .vecCopy p buffer.length r.1
  if got = want then return (none, after)
  return (some (.plain ("vec_copy: copied " ++ Bytes.ofNat got.toNat ++ " of " ++
    Bytes.ofNat want.toNat ++ " bytes")), after)

/-- The encoding in a vector. A buffer that cannot be made brings the host down. -/
def vecBytes (e : Engine σ) (p : Ptr) : HostM σ (Except (Failed (Option Bytes)) Bytes) := do
  let n ← e.vecLength p
  if e.room < n.toNat then return .error ⟨.crash "makeslice: len out of range", none⟩
  let (fault, buffer) ← e.vecCopy p n (List.replicate n.toNat 0)
  match fault with
  | some f => return .error ⟨f, none⟩
  | none => return .ok buffer

/-- A buffer that a book was to be encoded into, with the number of bytes written and whether the
encoding fitted. -/
structure Filling where
  written : UInt64 := 0
  fits : Bool := false
  buffer : Bytes

/-- Copies the encoding in a vector over a buffer if it is large enough. -/
def vecFill (e : Engine σ) (buffer : Bytes) (p : Ptr) :
    HostM σ (Except (Failed Filling) Filling) := do
  let n ← e.vecLength p
  if buffer.length < n.toNat then return .ok { buffer := buffer }
  let (fault, after) ← e.vecCopy p n buffer
  match fault with
  | some f => return .error ⟨f, { buffer := after }⟩
  | none => return .ok { written := n, fits := true, buffer := after }

def serializedLengthReturning (e : Engine σ) (b : Book) :
    HostM σ (Except (Failed UInt64) UInt64) :=
  withBook "Book.SerializedLen" b 0 fun book => e.withVec book 0 fun vec => do
    return .ok (← e.vecLength vec)

/-- The size of a book's encoding. -/
def serializedLength (e : Engine σ) (b : Book) : HostM σ (Except Fault UInt64) := do
  return (← e.serializedLengthReturning b).mapError Failed.fault

def serializeReturning (e : Engine σ) (b : Book) :
    HostM σ (Except (Failed (Option Bytes)) Bytes) :=
  withBook "Book.Serialize" b none fun book => e.withVec book none e.vecBytes

def serialize (e : Engine σ) (b : Book) : HostM σ (Except Fault Bytes) := do
  return (← e.serializeReturning b).mapError Failed.fault

/-- What became of a buffer that a book was to be encoded into. -/
structure Filled where
  /-- The number of bytes written, absent when the buffer was too small. -/
  outcome : Except Fault (Option UInt64)
  buffer : Bytes

def Filled.ofReturned : Except (Failed Filling) Filling → Filled
  | .error f => ⟨.error f.fault, f.value.buffer⟩
  | .ok r => ⟨.ok (if r.fits then some r.written else none), r.buffer⟩

/-- A failure tells of no bytes that were written, whatever has become of the buffer. -/
def serializeToReturning (e : Engine σ) (b : Book) (buffer : Bytes) :
    HostM σ (Except (Failed Filling) Filling) := do
  let outcome ← withBook "Book.SerializeTo" b { buffer := buffer } fun book =>
    e.withVec book { buffer := buffer } (e.vecFill buffer)
  return outcome.mapError fun f => ⟨f.fault, { buffer := f.value.buffer }⟩

/-- Encodes a book into a buffer if it is large enough. -/
def serializeTo (e : Engine σ) (b : Book) (buffer : Bytes) : HostM σ Filled := do
  return .ofReturned (← e.serializeToReturning b buffer)

end Engine

end EngineHost
