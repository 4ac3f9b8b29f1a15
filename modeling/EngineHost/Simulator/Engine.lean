import EngineHost.Engine.Boundary
import EngineHost.Simulator.Ledger

/-!
# The simulated engine

An engine that lives in the host's memory. It follows the ownership rules of the boundary, can be
told to fail, and keeps a ledger of everything that it was asked to do.
-/

namespace EngineHost.Simulator

structure Options where
  /-- The message of an injected parse error. -/
  parseError : Bytes := []
  /-- Whether the parse error comes together with a book. -/
  errorWithBook : Bool := false
  evaluateError : Bytes := []
  serializeError : Bytes := []
  /-- The bytes of every result, which need not be well-formed text. -/
  result : Option Bytes := none
  /-- The seconds that every evaluation reports. -/
  seconds : Binary64 := ⟨0x3fd0000000000000⟩
  /-- Whether the second interpreter exists. -/
  hasC : Bool := false
deriving DecidableEq, Repr, Inhabited

inductive Setting
  | hasC
  | seconds (x : Binary64)
  | result (s : Bytes)
  | parseError (s : Bytes)
  | parseErrorWithBook (s : Bytes)
  | evaluateError (s : Bytes)
  | serializeError (s : Bytes)
deriving DecidableEq, Repr

def Options.set (o : Options) : Setting → Options
  | .hasC => { o with hasC := true }
  | .seconds x => { o with seconds := x }
  | .result s => { o with result := some s }
  | .parseError s => { o with parseError := s, errorWithBook := false }
  | .parseErrorWithBook s => { o with parseError := s, errorWithBook := true }
  | .evaluateError s => { o with evaluateError := s }
  | .serializeError s => { o with serializeError := s }

/-- The options of a list of settings, later ones winning. -/
def Options.ofSettings (settings : List Setting) : Options := settings.foldl Options.set {}

/-- The answer that makes nothing and reports an error text. -/
def refuse (l : Ledger) (message : Bytes) : Reply Ledger Made :=
  let (p, l) := l.allocateText message
  ⟨⟨0, p⟩, l, []⟩

/-- The answer that hands over an allocation, with an error text when one is injected. -/
def handOver (l : Ledger) (p : Ptr) (error : Option Bytes) : Reply Ledger Made :=
  match error with
  | none => ⟨⟨p, 0⟩, l, []⟩
  | some message =>
    let (slot, l) := l.allocateText message
    ⟨⟨p, slot⟩, l, []⟩

/-- An injected error; the empty message is none. -/
def injected (message : Bytes) : Option Bytes := if message.isEmpty then none else some message

def parse (o : Options) (source : Bytes) (l : Ledger) : Reply Ledger Made :=
  let l := l.count .bookParse
  if !o.parseError.isEmpty && !o.errorWithBook then refuse l o.parseError
  else match Program.parse source with
    | .error e => refuse l e.message
    | .ok program =>
      let (p, l) := l.allocate (.book program)
      handOver l p (if o.errorWithBook then some o.parseError else none)

def refusedInterpreter? (o : Options) (i : Interpreter) : Option Bytes :=
  if i = .rust then none
  else if i = .c then (if o.hasC then none else some "C runtime not supported")
  else some ("Invalid runtime type: " ++ Bytes.ofNat i.code.toNat)

def resultText (o : Options) (program : Program) : Bytes :=
  o.result.getD ("#" ++ Bytes.ofNat program.defs.length)

/-- Enters the record of an evaluation with the texts it owns. -/
def enterRecord (o : Options) (program : Program) (dump : UInt32) (l : Ledger) : Ptr × Ledger :=
  let (result, l) := l.allocateRecordText (resultText o program)
  let (memDump, l) := l.allocateRecordText (if dump = 0 then [] else program.memDump)
  l.allocate (.evaluation ⟨program.iterations, o.seconds, result, memDump, 0xdea110c⟩)

def evaluate (o : Options) (book : Ptr) (i : Interpreter) (dump : UInt32) (l : Ledger) :
    Reply Ledger Made :=
  match (l.count .bookEvaluate).lookup .bookEvaluate book .book with
  | (some (.book program), l) =>
    match refusedInterpreter? o i with
    | some message => refuse l message
    | none =>
      if !program.hasDef "main" then refuse l "No main function found"
      else
        let (p, l) := enterRecord o program dump l
        handOver l p (injected o.evaluateError)
  | (_, l) => refuse l "invalid book pointer"

/-- Releases an evaluation record with the texts it owns. -/
def freeEvaluation (p : Ptr) (l : Ledger) : Reply Ledger Unit :=
  match (l.count .freeEvaluation).lookup .freeEvaluation p .evaluation with
  | (some (.evaluation record), l) =>
    ⟨(), ((l.erase record.result).erase record.memDump).erase p, []⟩
  | (_, l) => ⟨(), l, []⟩

def serialize (o : Options) (book : Ptr) (l : Ledger) : Reply Ledger Made :=
  match (l.count .bookSerialize).lookup .bookSerialize book .book with
  | (some (.book program), l) =>
    let (p, l) := l.allocate (.vec program.encode)
    handOver l p (injected o.serializeError)
  | (_, l) => refuse l "invalid book pointer"

def vecLength (p : Ptr) (l : Ledger) : Reply Ledger UInt64 :=
  match (l.count .vecLength).lookup .vecLength p .vec with
  | (some (.vec data), l) => ⟨UInt64.ofNat data.length, l, []⟩
  | (_, l) => ⟨0, l, []⟩

/-- Copies a vector over the front of a buffer that is large enough. -/
def vecCopy (p : Ptr) (buffer : Bytes) (l : Ledger) : Reply Ledger (UInt64 × Bytes) :=
  match (l.count .vecCopy).lookup .vecCopy p .vec with
  | (some (.vec data), l) =>
    if buffer.length < data.length then
      ⟨(0, buffer), l.violate (.shortBuffer buffer.length data.length), []⟩
    else ⟨(UInt64.ofNat data.length, data ++ buffer.drop data.length), l, []⟩
  | (_, l) => ⟨(0, buffer), l, []⟩

/-- The bytes of a live text before its terminator. -/
def readText (p : Ptr) (l : Ledger) : Reply Ledger (Option Bytes) :=
  match l.find? p with
  | some (.text data) => ⟨some (data.takeWhile (· != 0)), l, []⟩
  | some (.recordText data) => ⟨some (data.takeWhile (· != 0)), l, []⟩
  | _ => ⟨none, l.violate (.notText p), []⟩

def readRecord (p : Ptr) (l : Ledger) : Reply Ledger (Option Record) :=
  match l.find? p with
  | some (.evaluation record) => ⟨some record, l, []⟩
  | _ => ⟨none, l.violate (.notRecord p), []⟩

/-- The boundary of the simulated engine. It sets the error slot on every fallible call. -/
def boundary (o : Options) : Boundary Ledger where
  parse source _ l := parse o source l
  freeBook p l := ⟨(), (l.count .freeBook).free .freeBook p .book, []⟩
  evaluate book i dump _ l := evaluate o book i dump l
  freeEvaluation := freeEvaluation
  serialize book _ l := serialize o book l
  vecLength := vecLength
  vecCopy := vecCopy
  freeVec p l := ⟨(), (l.count .freeVec).free .freeVec p .vec, []⟩
  freeText p l := ⟨(), (l.count .freeText).free .freeText p .text, []⟩
  readText := readText
  readRecord := readRecord

end EngineHost.Simulator
