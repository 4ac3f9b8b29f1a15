import EngineHost.Engine.Boundary
import EngineHost.Guest.Capture
import EngineHost.Guest.LogLine
import EngineHost.Guest.Machine

/-!
# Engine modules as backends

A guest module serves the boundary through its exported functions. Texts travel through memory
that the guest allocates and the host gives back. A trap is reported through the error slot as a
text that the host itself writes into guest memory and later releases itself.
-/

namespace EngineHost.Guest

variable {γ : Type}

/-- A guest call as the host saw it: its arguments, its first result or the text of its failure,
and the memory that it left. -/
structure GuestCall where
  function : Export
  args : List UInt64
  ending : Except Bytes UInt64
  memory : Memory

/-- A running module and what the host keeps about it. -/
structure Instance (γ : Type) where
  guest : γ
  memory : Memory
  /-- What the guest printed during the current call. -/
  stderr : Capture
  /-- The texts that the host wrote itself, by address, with their sizes. -/
  hostTexts : List (Ptr × UInt32) := []
  closed : Bool := false
  /-- The guest calls so far. -/
  history : List GuestCall := []
  /-- The records of the current boundary call. -/
  log : List Log.Record := []

def Instance.calls (i : Instance γ) : List (Export × List UInt64) :=
  i.history.map fun c => (c.function, c.args)

/-- A step of the host on a running module. -/
abbrev InstanceM (γ : Type) := StateM (Instance γ)

def emit (r : Log.Record) : InstanceM γ Unit := fun i => ((), { i with log := i.log ++ [r] })

def complain (message : String) (attrs : List Log.Attr) : InstanceM γ Unit :=
  emit ⟨.error, Bytes.ofString message, attrs⟩

def errorAttr (text : Bytes) : Log.Attr := ⟨"error", .other text⟩

def Instance.apply (maxLog : UInt32) (i : Instance γ) : Effect → Instance γ
  | .store addr data => { i with memory := i.memory.store addr data }
  | .replace data => { i with memory := .ofBytes data }
  | .print text => { i with stderr := (i.stderr.write text).2 }
  | .log word => { i with log := i.log ++ [logLine maxLog (some i.memory) word] }

/-- The text with which every call of a closed module ends. -/
def closedText : Bytes := "module closed with exit_code(0)"

/-- How a call ends: a closed module still runs, but no call of it succeeds. -/
def endOf (closed : Bool) (outcome : Except Bytes (List UInt64)) : Except Bytes UInt64 :=
  match outcome with
  | .error trap => .error trap
  | .ok results => if closed then .error closedText else .ok (results.headD 0)

/-- Calls an exported function; a failure names the function. -/
def invoke (m : Machine γ) (f : Export) (args : List UInt64) : InstanceM γ (Except Bytes UInt64) :=
  fun i =>
    let r := m.run f args i.guest i.memory
    let i := r.effects.foldl (Instance.apply m.maxLog) { i with guest := r.state }
    let ending := endOf i.closed r.outcome
    (ending.mapError (m.label f ++ ": " ++ ·),
      { i with history := i.history ++ [⟨f, args, ending, i.memory⟩] })

def guestAddress (p : Ptr) : UInt32 := p.toUInt32

def allocate (m : Machine γ) (size : UInt32) : InstanceM γ (Option UInt32) := do
  match ← invoke m .allocate [size.toUInt64] with
  | .error text =>
    complain "wazero: failed to call guest allocate" [errorAttr text]
    return none
  | .ok result =>
    if result.toUInt32 = 0 then
      complain "wazero: guest allocate returned null" [wordAttr "size" size]
      return none
    return some result.toUInt32

def deallocate (m : Machine γ) (addr size : UInt32) : InstanceM γ Unit := do
  match ← invoke m .deallocate [addr.toUInt64, size.toUInt64] with
  | .error text => complain "wazero: failed to call guest deallocate" [errorAttr text]
  | .ok _ => pure ()

/-- Writes a range of guest memory; false if it does not fit. -/
def writeMemory (addr : UInt32) (data : Bytes) : InstanceM γ Bool := fun i =>
  match i.memory.write? addr data with
  | some memory => (true, { i with memory := memory })
  | none => (false, i)

/-- Copies a text with its terminator into newly reserved guest memory. -/
def writeText (m : Machine γ) (s : Bytes) : InstanceM γ (Option (UInt32 × UInt32)) := do
  if 2 ^ 32 - 1 < s.length + 1 then return none
  let size := UInt32.ofNat (s.length + 1)
  match ← allocate m size with
  | none => return none
  | some addr =>
    if ← writeMemory addr (s ++ [0]) then return some (addr, size)
    complain "wazero: failed to write string to guest memory"
      [wordAttr "ptr" addr, wordAttr "len" size]
    deallocate m addr size
    return none

/-- Puts a message of the host where the guest's error texts are; zero if there is no room. -/
def hostError (m : Machine γ) (message : Bytes) : InstanceM γ Ptr := do
  complain "wazero: guest call failed" [⟨"error", .string message⟩]
  match ← writeText m message with
  | none => return 0
  | some (addr, size) =>
    modify fun i => { i with
      hostTexts := (addr.toUInt64, size) :: i.hostTexts.filter (·.1 != addr.toUInt64) }
    return addr.toUInt64

/-- The answer of a fallible call once it has ended, with its error slot at the given address. -/
def answerOf (m : Machine γ) (slot : UInt32) (ending : Except Bytes UInt64) :
    InstanceM γ Made := do
  match ending with
  | .error trap =>
    let printed := (← get).stderr
    return ⟨0, ← hostError m (Capture.explain trap printed)⟩
  | .ok result =>
    let content := ((← get).memory.readWord? slot).getD 0
    return ⟨result.toUInt32.toUInt64, content.toUInt64⟩

/-- Runs a fallible call with a cleared error slot at the given address. -/
def inSlot (m : Machine γ) (slot : UInt32) (call : InstanceM γ (Except Bytes UInt64)) :
    InstanceM γ Made := do
  if !(← writeMemory slot (Bytes.toLittleEndian 4 0)) then
    return ⟨0, ← hostError m "could not clear error slot in guest memory"⟩
  modify fun i => { i with stderr := i.stderr.reset }
  answerOf m slot (← call)

/-- Runs a fallible call with an error slot in guest memory. -/
def withSlot (m : Machine γ) (call : (slot : UInt32) → InstanceM γ (Except Bytes UInt64)) :
    InstanceM γ Made := do
  match ← allocate m 4 with
  | none => return ⟨0, ← hostError m "could not allocate error slot in guest memory"⟩
  | some slot =>
    let made ← inSlot m slot (call slot)
    deallocate m slot 4
    return made

def bookParse (m : Machine γ) (source : Bytes) : InstanceM γ Made := do
  match ← writeText m source with
  | none => return ⟨0, ← hostError m "could not copy program text into guest memory"⟩
  | some (addr, size) =>
    let made ← withSlot m fun slot => invoke m .bookParse [addr.toUInt64, slot.toUInt64]
    deallocate m addr size
    return made

def bookEvaluate (m : Machine γ) (book : Ptr) (i : Interpreter) (dump : UInt32) :
    InstanceM γ Made :=
  withSlot m fun slot => invoke m .bookEvaluate
    [(guestAddress book).toUInt64, i.code.toUInt64, dump.toUInt64, slot.toUInt64]

def bookSerialize (m : Machine γ) (book : Ptr) : InstanceM γ Made :=
  withSlot m fun slot => invoke m .bookSerialize [(guestAddress book).toUInt64, slot.toUInt64]

def release (m : Machine γ) (f : Export) (p : Ptr) : InstanceM γ Unit := do
  match ← invoke m f [(guestAddress p).toUInt64] with
  | .error text => complain "wazero: guest free failed" [errorAttr text]
  | .ok _ => pure ()

/-- The number of bytes in a vector; zero if the guest traps. -/
def vecLength (m : Machine γ) (vec : Ptr) : InstanceM γ UInt64 := do
  match ← invoke m .vecLength [(guestAddress vec).toUInt64] with
  | .error text =>
    complain "wazero: vec_get_length failed" [errorAttr text]
    return 0
  | .ok n => return n

/-- Copies a vector through guest memory at `scratch` over the front of a buffer. -/
def copyThrough (m : Machine γ) (vec : Ptr) (scratch size : UInt32) (buffer : Bytes) :
    InstanceM γ (UInt64 × Bytes) := do
  match ← invoke m .vecCopy [(guestAddress vec).toUInt64, scratch.toUInt64, size.toUInt64] with
  | .error text =>
    complain "wazero: vec_copy failed" [errorAttr text]
    return (0, buffer)
  | .ok _ =>
    match (← get).memory.read? scratch size.toNat with
    | none =>
      complain "wazero: failed to read copied vector" [wordAttr "ptr" scratch, wordAttr "len" size]
      return (0, buffer)
    | some data => return (UInt64.ofNat data.length, data ++ buffer.drop data.length)

/-- Copies a vector through newly reserved guest memory of its size. -/
def copySized (m : Machine γ) (vec : Ptr) (size : UInt32) (buffer : Bytes) :
    InstanceM γ (UInt64 × Bytes) := do
  match ← allocate m size with
  | none => return (0, buffer)
  | some scratch =>
    let copied ← copyThrough m vec scratch size buffer
    deallocate m scratch size
    return copied

/-- Copies a vector over the front of a buffer that is large enough. -/
def vecCopy (m : Machine γ) (vec : Ptr) (buffer : Bytes) : InstanceM γ (UInt64 × Bytes) := do
  let n ← vecLength m vec
  if n = 0 ∨ buffer.length < n.toNat ∨ 2 ^ 32 - 1 < n.toNat then return (0, buffer)
  copySized m vec n.toUInt32 buffer

/-- Releases an error text; the host's own texts go back to the guest's allocator. -/
def freeText (m : Machine γ) (p : Ptr) : InstanceM γ Unit := do
  match (← get).hostTexts.find? (·.1 == p) with
  | some (_, size) =>
    modify fun i => { i with hostTexts := i.hostTexts.filter (·.1 != p) }
    deallocate m (guestAddress p) size
  | none => release m .freeText p

/-- Whether an address can be one of the guest's. -/
def fitsGuest (p : Ptr) : Bool := p.toNat ≤ 2 ^ 32 - 1

def readText (p : Ptr) : InstanceM γ (Option Bytes) := do
  if !fitsGuest p then return none
  return (← get).memory.readText? (guestAddress p)

def readRecord (p : Ptr) : InstanceM γ (Option Record) := do
  if !fitsGuest p then return none
  return (← get).memory.readRecord? (guestAddress p)

/-- A step as the answer to a boundary call. -/
def reply {α : Type} (step : InstanceM γ α) (i : Instance γ) : Reply (Instance γ) α :=
  let (value, i) := step i
  ⟨value, { i with log := [] }, i.log⟩

def boundary (m : Machine γ) : Boundary (Instance γ) where
  parse source _ := reply (bookParse m source)
  freeBook p := reply (release m .freeBook p)
  evaluate book i dump _ := reply (bookEvaluate m book i dump)
  freeEvaluation p := reply (release m .freeEvaluation p)
  serialize book _ := reply (bookSerialize m book)
  vecLength p := reply (vecLength m p)
  vecCopy p buffer := reply (vecCopy m p buffer)
  freeVec p := reply (release m .freeVec p)
  freeText p := reply (freeText m p)
  readText p := reply (readText p)
  readRecord p := reply (readRecord p)

end EngineHost.Guest
