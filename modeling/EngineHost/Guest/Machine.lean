import EngineHost.Fault
import EngineHost.Guest.Memory

/-!
# Guest modules

An engine compiled for a guest machine is reached through the functions that the module exports.
A call prints, writes memory and announces log lines, and then returns or traps; what it does may
depend on the module's own state and on its memory.
-/

namespace EngineHost.Guest

inductive Export
  | bookParse | freeBook | bookEvaluate | freeEvaluation | bookSerialize
  | vecLength | vecCopy | freeVec | freeText | allocate | deallocate
deriving DecidableEq, Repr

def Export.name : Export → Bytes
  | bookParse => "book_parse"
  | freeBook => "free_book"
  | bookEvaluate => "book_evaluate"
  | freeEvaluation => "free_evaluation_result"
  | bookSerialize => "book_serialize"
  | vecLength => "vec_get_length"
  | vecCopy => "vec_copy"
  | freeVec => "free_vec"
  | freeText => "free_cstring"
  | allocate => "allocate"
  | deallocate => "deallocate"

/-- All exported functions, in the order in which they are looked up. -/
def Export.all : List Export :=
  [bookParse, freeBook, bookEvaluate, freeEvaluation, bookSerialize, vecLength, vecCopy, freeVec,
    freeText, allocate, deallocate]

def memoryName : Bytes := "memory"

def missingExports (hasFunction : Bytes → Bool) (hasMemory : Bool) : List Bytes :=
  (Export.all.map Export.name).filter (fun name => !hasFunction name) ++
    if hasMemory then [] else [memoryName]

/-- Refuses a module that lacks a required export. -/
def checkExports (hasFunction : Bytes → Bool) (hasMemory : Bool) : Except Fault Unit :=
  match missingExports hasFunction hasMemory with
  | [] => .ok ()
  | missing => .error (.plain
      ("module is missing required exports: " ++ Bytes.join ", " missing))

inductive Effect
  /-- Writes memory; a write that does not fit is ignored. -/
  | store (addr : UInt32) (data : Bytes)
  /-- Replaces the whole memory, which may become greater. -/
  | replace (data : Bytes)
  /-- Prints to the error output. -/
  | print (text : Bytes)
  /-- Announces a log line. -/
  | log (word : UInt64)
deriving DecidableEq, Repr

/-- A finished call: what it did in order, how it ended, and the module's state afterwards. -/
structure Run (γ : Type) where
  effects : List Effect := []
  /-- The results, or the text of the trap. -/
  outcome : Except Bytes (List UInt64)
  state : γ

/-- A call whose state is seen as part of another. -/
def Run.map {γ δ : Type} (f : γ → δ) (r : Run γ) : Run δ := ⟨r.effects, r.outcome, f r.state⟩

structure Machine (γ : Type) where
  /-- Runs an exported function. -/
  run : Export → (args : List UInt64) → γ → Memory → Run γ
  /-- The name of a function in error texts. -/
  label : Export → Bytes := Export.name
  /-- The longest log line that is read. -/
  maxLog : UInt32 := 65536

end EngineHost.Guest
