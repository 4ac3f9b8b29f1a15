import EngineHost.Proofs.History
import EngineHost.Simulator.Engine

/-!
# The answers of the simulated engine

What the simulated engine makes of a program depends on the program and on the options that it was
given, and on nothing else: not on addresses, not on other books, not on what it was asked before.
The functions here say what that is, without a ledger.
-/

namespace EngineHost.Simulator

variable {α : Type}

/-- A text of the engine as the host gets to see it: up to the first zero byte, and repaired. -/
def shown (s : Bytes) : Bytes := Utf8.repair (s.takeWhile (· != 0))

/-- What the host makes of a refusal by a call. -/
def reply (call : Bytes) : Except Bytes α → Except Fault α :=
  Except.mapError fun message => .interop call (shown message)

def refusal? : Except Bytes α → Option Bytes
  | .error message => some message
  | .ok _ => none

namespace Options

/-- The program of a text, or the message with which it is refused. -/
def parsed (o : Options) (source : Bytes) : Except Bytes Program :=
  if !o.parseError.isEmpty && !o.errorWithBook then .error o.parseError
  else match Program.parse source with
    | .error e => .error e.message
    | .ok program => if o.errorWithBook then .error o.parseError else .ok program

def evaluated (o : Options) (program : Program) (options : EvaluateOptions) :
    Except Bytes Evaluation :=
  match refusedInterpreter? o options.interpreter with
  | some message => .error message
  | none =>
    if !program.hasDef "main" then .error "No main function found"
    else match injected o.evaluateError with
      | some message => .error message
      | none => .ok {
          result := shown (resultText o program)
          memDump := shown (if options.memDump then program.memDump else [])
          iterations := program.iterations
          duration := Duration.ofSeconds o.seconds }

def encoded (o : Options) (program : Program) : Except Bytes Bytes :=
  match injected o.serializeError with
  | some message => .error message
  | none => .ok program.encode

end Options

/-- The program of a book, unless the book is released. -/
def opened (op : Bytes) : Option Program → Except Fault Program
  | none => .error (.wrap op (.condition .released))
  | some program => .ok program

def filled (buffer : Bytes) : Except Fault Bytes → Engine.Filled
  | .error f => ⟨.error f, buffer⟩
  | .ok data =>
    if buffer.length < data.length then ⟨.ok none, buffer⟩
    else ⟨.ok (some (.ofNat data.length)), data ++ buffer.drop data.length⟩

/-- What a book answers to an operation, as long as it has its program and once it is released. -/
def respond (o : Options) (book : Option Program) : Operation → Answer
  | .evaluate _ options => .evaluation do
      let program ← opened "Book.Evaluate" book
      reply "book_evaluate" (o.evaluated program options)
  | .serialize _ => .bytes do
      let program ← opened "Book.Serialize" book
      reply "book_serialize" (o.encoded program)
  | .serializeTo _ buffer => .filled <| filled buffer do
      let program ← opened "Book.SerializeTo" book
      reply "book_serialize" (o.encoded program)
  | .serializedLength _ => .length do
      let program ← opened "Book.SerializedLen" book
      let data ← reply "book_serialize" (o.encoded program)
      return .ofNat data.length
  | .close _ => .closed
  | .released _ => .flag book.isNone
  | .finalize _ => .finalized
  | _ => .noBook

theorem reply_error (call message : Bytes) :
    reply call (.error message : Except Bytes α) = .error (.interop call (shown message)) :=
  rfl

theorem reply_ok (call : Bytes) (a : α) : reply call (.ok a) = .ok a := rfl

theorem opened_some (op : Bytes) (program : Program) (f : Program → Except Fault α) :
    (opened op (some program) >>= f) = f program :=
  rfl

theorem parse_of_parsed {o : Options} {source : Bytes} {program : Program}
    (h : o.parsed source = .ok program) : Program.parse source = .ok program := by
  unfold Options.parsed at h
  split at h
  · simp at h
  · split at h
    · simp at h
    · rename_i hprogram
      split at h
      · simp at h
      · rw [hprogram, Except.ok.inj h]

theorem eq_of_evaluated {o : Options} {program : Program} {options : EvaluateOptions}
    {evaluation : Evaluation} (h : o.evaluated program options = .ok evaluation) :
    evaluation = ⟨shown (resultText o program),
      shown (if options.memDump then program.memDump else []), program.iterations,
      Duration.ofSeconds o.seconds⟩ := by
  unfold Options.evaluated at h
  split at h
  · simp at h
  · split at h
    · simp at h
    · split at h
      · simp at h
      · exact (Except.ok.inj h).symm

theorem eq_of_encoded {o : Options} {program : Program} {data : Bytes}
    (h : o.encoded program = .ok data) : data = program.encode := by
  unfold Options.encoded at h
  split at h
  · simp at h
  · exact (Except.ok.inj h).symm

theorem takeWhile_terminated (s : Bytes) :
    (s ++ [0]).takeWhile (· != 0) = s.takeWhile (· != 0) := by
  induction s with
  | nil => rfl
  | cons b s ih => simp [List.takeWhile_cons, ih]

end EngineHost.Simulator
