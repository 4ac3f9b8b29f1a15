import EngineHost.Guest.Machine
import EngineHost.Guest.System

/-!
# Running modules

The functions of a module that has been instantiated are called with words and give words back. A
call can trap, close the module, or nest too deeply; a call of a closed module fails after it has been
carried out.
-/

namespace EngineHost.Guest

structure Running where
  program : Wasm.Program
  store : Wasm.Store
  /-- The code with which it has been closed. -/
  closed : Option UInt32 := none

inductive CallFailure
  | failed (text : Bytes)
  /-- The module has been closed. -/
  | closed (code : UInt32)
deriving DecidableEq, Repr

namespace CallFailure

/-- The text of a closed module. Two codes stand for a call that was called off. -/
def exitText (code : UInt32) : Bytes :=
  if code = 0xffffffff then "module closed with context canceled"
  else if code = 0xefffffff then "module closed with context deadline exceeded"
  else "module closed with exit_code(" ++ Bytes.ofNat code.toNat ++ ")"

def text : CallFailure → Bytes
  | failed text => text
  | closed code => exitText code

end CallFailure

namespace Running

variable {σ : Type}

def call (r : Running) (h : Wasm.Host σ) (function : Nat) (words : List UInt64) (s : σ) :
    Except CallFailure (List UInt64) × Running × σ :=
  let m := r.program.module
  let type := (m.typeOf? function).getD {}
  if type.paramWords ≠ words.length then
    (.error (.failed ("expected " ++ Bytes.ofNat type.paramWords ++ " params, but passed " ++
      Bytes.ofNat words.length)), r, s)
  else
    let (ending, store, s) :=
      r.program.invoke h function (Wasm.Value.ofWords type.params words) r.store s
    let r := { r with store }
    let finish (results : List UInt64) : Except CallFailure (List UInt64) :=
      match r.closed with
      | some code => .error (.closed code)
      | none => .ok results
    match ending with
    | .results values => (finish (values.flatMap Wasm.Value.toWords), r, s)
    | .unfinished => (finish [], r, s)
    | .trap t functions => (.error (.failed (m.trapText t functions)), r, s)
    | .exit code => (.error (.closed code), { r with closed := some code }, s)
    | .overflow => (.error (.failed "stack overflow"), r, s)

/-- A listener that notes effects in their order. What a log line announces is read from the memory as
it is then. -/
def recorder : Listener (List Effect) where
  print text effects := if text.isEmpty then effects else effects ++ [.print text]
  log word s effects :=
    effects ++ [.replace ((s.memory.map Wasm.LinearMemory.toBytes).getD []), .log word]

/-- Calls an exported function of an engine module on a memory. -/
def run (f : Export) (words : List UInt64) (r : Running) (m : Memory) : Run Running :=
  let store := { r.store with memory := r.store.memory.map (·.ofBytes m.bytes) }
  let function := (r.program.module.exported? f.name).getD 0
  let (outcome, r, effects) := { r with store }.call recorder.host function words []
  { effects :=
      effects ++ [.replace ((r.store.memory.map Wasm.LinearMemory.toBytes).getD [])]
    outcome := outcome.mapError CallFailure.text
    state := r }

/-- The name of an exported function in error texts: the first under which it is exported. -/
def label (r : Running) (f : Export) : Bytes :=
  let m := r.program.module
  let index := (m.exported? f.name).getD 0
  ((m.exports.find? fun e => e.kind == .function && e.index == index).map (·.name)).getD f.name

def memory (r : Running) : Memory :=
  .ofBytes ((r.store.memory.map Wasm.LinearMemory.toBytes).getD [])

end Running

end EngineHost.Guest
