import EngineHost.Wasm.Code
import EngineHost.Wasm.Store

/-!
# Execution

A machine carries out one instruction after the other. Each call has a frame with its variables, its
operands and its open blocks; the frames of the calls that wait lie below. Functions that a module
imports are carried out by a host, which keeps a state of its own and may end the whole run.

The code is known to be typed, so that an instruction finds the operands that it needs; where it would
not, they count as zero.
-/

namespace EngineHost.Wasm

inductive HostAnswer
  | results (values : List Value)
  /-- The instance is closed with a code. -/
  | exit (code : UInt32)
deriving DecidableEq, Repr

structure Host (σ : Type) where
  /-- Carries out the function of a name in the module of a name. -/
  call : (source name : Bytes) → (arguments : List Value) → Store → σ → HostAnswer × Store × σ

structure Function where
  type : FunctionType
  locals : List (Nat × ValueType)
  code : List Instruction
deriving Inhabited

structure Program where
  module : Module
  /-- The imported functions. -/
  imports : List Import
  /-- The module's own functions. -/
  functions : Array Function

namespace Program

def ofModule (m : Module) : Program where
  module := m
  imports := m.imports.filter (·.item.kind == .function)
  functions := ((m.functions.zip m.bodies).map fun (t, b) =>
    ⟨m.types.getD t {}, b.locals, Code.ofBody m b⟩).toArray

end Program

structure Label where
  /-- How many values a branch takes along. -/
  arity : Nat
  /-- How many values lie below the block. -/
  height : Nat
  /-- Where a branch goes on. -/
  target : List Instruction
  /-- What follows the block. -/
  after : List Instruction

structure Frame where
  /-- The function that is called. -/
  function : Nat
  /-- How many results it has. -/
  arity : Nat
  locals : Array Value := #[]
  /-- The operands, the topmost first. -/
  values : List Value := []
  /-- The open blocks, the innermost first. -/
  labels : List Label := []
  /-- What is to be carried out in the innermost block. -/
  code : List Instruction := []

namespace Frame

def push (f : Frame) (v : Value) : Frame := { f with values := v :: f.values }

def pop (f : Frame) : Value × Frame := (f.values.headD default, { f with values := f.values.tail })

def popNat (f : Frame) : Nat × Frame :=
  let (v, f) := f.pop
  (v.word.toNat, f)

/-- Takes three numbers from the stack, the topmost one last. -/
def popThree (f : Frame) : Nat × Nat × Nat × Frame :=
  let (c, f) := f.popNat
  let (b, f) := f.popNat
  let (a, f) := f.popNat
  (a, b, c, f)

def enter (f : Frame) (params arity : Nat) (target body : List Instruction) : Frame :=
  { f with
    labels := ⟨arity, f.values.length - params, target, f.code⟩ :: f.labels
    code := body }

end Frame

/-- What an instruction does that neither branches nor calls. -/
abbrev Action := Frame → Store → Except Trap (Frame × Store)

namespace Action

/-- The number that an access reads, widened to a type. -/
def loaded (a : Access) (data : Bytes) : Value :=
  let n := Bytes.littleEndian data
  if a.mode = .loadSigned then
    .ofBits a.type ((BitVec.ofNat (8 * a.width) n).signExtend 64).toNat
  else .ofBits a.type n

/-- Moves a value between the stack and the memory. -/
def access (a : Access) (offset : Nat) : Action := fun f s => do
  let memory ← (s.memory.elim (.error .outsideMemory) .ok : Except Trap LinearMemory)
  if a.mode = .store then
    let (v, f) := f.pop
    let (address, f) := f.popNat
    match memory.write? (address + offset) (v.toBytes.take a.width) with
    | some memory => return (f, { s with memory := some memory })
    | none => throw .outsideMemory
  else
    let (address, f) := f.popNat
    match memory.read? (address + offset) a.width with
    | some data => return (f.push (loaded a data), s)
    | none => throw .outsideMemory

/-- Makes a vector from some bytes of the memory. -/
def vectorLoad (width : Nat) (g : BitVec 128 → BitVec 128) (offset : Nat) : Action := fun f s =>
  let (address, f) := f.popNat
  match s.memory.bind fun m => m.read? (address + offset) width with
  | some data => .ok (f.push (.v128 (g (BitVec.ofNat 128 (Bytes.littleEndian data)))), s)
  | none => .error .outsideMemory

/-- Fills one place of a vector from the memory. -/
def laneLoad (width place offset : Nat) : Action := fun f s =>
  let (v, f) := f.pop
  let (address, f) := f.popNat
  match s.memory.bind fun m => m.read? (address + offset) width with
  | some data =>
    let lane := BitVec.ofNat (8 * width) (Bytes.littleEndian data)
    .ok (f.push (.v128 (Lanes.set v.vector place lane)), s)
  | none => .error .outsideMemory

/-- Copies one place of a vector to the memory. -/
def laneStore (width place offset : Nat) : Action := fun f s =>
  let (v, f) := f.pop
  let (address, f) := f.popNat
  let data := Bytes.toLittleEndian width (Lanes.get (8 * width) v.vector place).toNat
  match s.memory.bind fun m => m.write? (address + offset) data with
  | some memory => .ok (f, { s with memory := some memory })
  | none => .error .outsideMemory

def compute (o : Operation) : Action := fun f s => do
  let n := o.operands.length
  let v ← o.apply (f.values.take n)
  return ({ f with values := v :: f.values.drop n }, s)

def number (n : Nat) : Value := .i32 (BitVec.ofNat 32 n)

/-- Makes the memory greater, and tells its size before, or that it could not be done. -/
def memoryGrow : Action := fun f s =>
  let (pages, f) := f.popNat
  match s.memory.bind fun m => (m.grow? pages).map fun grown => (m.pages, grown) with
  | some (before, grown) => .ok (f.push (number before), { s with memory := some grown })
  | none => .ok (f.push (.i32 (-1)), s)

def writeMemory (f : Frame) (s : Store) (address : Nat) (data : Option Bytes) :
    Except Trap (Frame × Store) :=
  match data.bind fun d => s.memory.bind fun m => m.write? address d with
  | some m => .ok (f, { s with memory := some m })
  | none => .error .outsideMemory

/-- A range of a list that lies inside it. -/
def range? {α : Type} (xs : List α) (start count : Nat) : Option (List α) :=
  if start + count ≤ xs.length then some ((xs.drop start).take count) else none

def memoryInit (segment : Nat) : Action := fun f s =>
  let (target, source, count, f) := f.popThree
  writeMemory f s target (range? (s.data.getD segment []) source count)

def memoryCopy : Action := fun f s =>
  let (target, source, count, f) := f.popThree
  writeMemory f s target (s.memory.bind fun m => m.read? source count)

def memoryFill : Action := fun f s =>
  let (target, b, count, f) := f.popThree
  if s.memory.all fun m => m.size < target + count then .error .outsideMemory
  else writeMemory f s target (some (List.replicate count b.toUInt8))

def tableAt (s : Store) (table : Nat) : References := s.tables.getD table ⟨0, none, {}⟩

/-- Writes references from a place of a table on. -/
def writeTable (f : Frame) (s : Store) (table place : Nat) (refs : Option (List (Option Nat))) :
    Except Trap (Frame × Store) :=
  match refs.bind ((tableAt s table).write? place) with
  | some t => .ok (f, { s with tables := s.tables.set table t })
  | none => .error .outsideTable

def tableGet (table : Nat) : Action := fun f s =>
  let (place, f) := f.popNat
  match (tableAt s table).get? place with
  | some r => .ok (f.push (.reference r), s)
  | none => .error .outsideTable

def tableSet (table : Nat) : Action := fun f s =>
  let (v, f) := f.pop
  let (place, f) := f.popNat
  writeTable f s table place (some [v.function?])

def tableInit (segment table : Nat) : Action := fun f s =>
  let (target, source, count, f) := f.popThree
  writeTable f s table target (range? (s.elements.getD segment []) source count)

def tableCopy (target source : Nat) : Action := fun f s =>
  let (place, start, count, f) := f.popThree
  writeTable f s target place ((tableAt s source).read? start count)

/-- Makes a table greater, and tells its size before, or that it could not be done. -/
def tableGrow (table : Nat) : Action := fun f s =>
  let (count, f) := f.popNat
  let (v, f) := f.pop
  let t := tableAt s table
  match t.grow? count v.function? with
  | some grown => .ok (f.push (number t.size), { s with tables := s.tables.set table grown })
  | none => .ok (f.push (.i32 (-1)), s)

def tableFill (table : Nat) : Action := fun f s =>
  let (count, f) := f.popNat
  let (v, f) := f.pop
  let (place, f) := f.popNat
  if (tableAt s table).size < place + count then .error .outsideTable
  else writeTable f s table place (some (List.replicate count v.function?))

def select : Action := fun f s =>
  let (c, f) := f.popNat
  let (second, f) := f.pop
  let (first, f) := f.pop
  .ok (f.push (if c = 0 then second else first), s)

def localSet (index : Nat) : Action := fun f s =>
  let (v, f) := f.pop
  .ok ({ f with locals := f.locals.setIfInBounds index v }, s)

def globalSet (index : Nat) : Action := fun f s =>
  let (v, f) := f.pop
  .ok (f, { s with globals := s.globals.set index v })

/-- What an instruction does that neither branches nor calls; nothing for the others. -/
def ofInstruction : Instruction → Action
  | .access a offset => access a offset
  | .compute o => compute o
  | .vectorLoad width g offset => vectorLoad width g offset
  | .laneLoad width place offset => laneLoad width place offset
  | .laneStore width place offset => laneStore width place offset
  | .constant v => fun f s => .ok (f.push v, s)
  | .drop => fun f s => .ok (f.pop.2, s)
  | .select => select
  | .localGet i => fun f s => .ok (f.push (f.locals.getD i default), s)
  | .localSet i => localSet i
  | .localTee i => fun f s =>
    .ok ({ f with locals := f.locals.setIfInBounds i f.pop.1 }, s)
  | .globalGet i => fun f s => .ok (f.push (s.globals.getD i default), s)
  | .globalSet i => globalSet i
  | .tableGet t => tableGet t
  | .tableSet t => tableSet t
  | .memorySize => fun f s => .ok (f.push (number ((s.memory.map (·.pages)).getD 0)), s)
  | .memoryGrow => memoryGrow
  | .isNull => fun f s =>
    let (v, f) := f.pop
    .ok (f.push (.ofBool v.function?.isNone), s)
  | .memoryInit segment => memoryInit segment
  | .dataDrop segment => fun f s => .ok (f, { s with data := s.data.set segment [] })
  | .memoryCopy => memoryCopy
  | .memoryFill => memoryFill
  | .tableInit segment table => tableInit segment table
  | .elementDrop segment => fun f s => .ok (f, { s with elements := s.elements.set segment [] })
  | .tableCopy target source => tableCopy target source
  | .tableGrow table => tableGrow table
  | .tableSize table => fun f s => .ok (f.push (number (tableAt s table).size), s)
  | .tableFill table => tableFill table
  | _ => fun f s => .ok (f, s)

end Action

inductive Ending
  | results (values : List Value)
  /-- A function stops; the functions that were being called, the innermost first. -/
  | trap (t : Trap) (functions : List Nat)
  /-- The host has closed the instance. -/
  | exit (code : UInt32)
  /-- Too many calls wait for each other. -/
  | overflow
  /-- The run has not come to an end. -/
  | unfinished
deriving DecidableEq, Repr

structure RunState (σ : Type) where
  store : Store
  host : σ
  /-- The call that is carried out. -/
  frame : Frame
  /-- The calls that wait, the innermost first. -/
  waiting : List Frame := []
  /-- The number of calls that wait. -/
  depth : Nat := 0

inductive Progress (σ : Type)
  | next (s : RunState σ)
  | stopped (e : Ending) (store : Store) (host : σ)

/-- The greatest number of calls that wait for each other. -/
def depthBound : Nat := 2 ^ 19

namespace RunState

variable {σ : Type}

def stop (s : RunState σ) (e : Ending) : Progress σ := .stopped e s.store s.host

/-- Stops the run in a trap. The lowest frame belongs to the host. -/
def trap (s : RunState σ) (t : Trap) : Progress σ :=
  s.stop (.trap t ((s.frame :: s.waiting).dropLast.map (·.function)))

/-- Returns to the call that waits with the results of the present one. -/
def leave (s : RunState σ) : Progress σ :=
  let results := s.frame.values.take s.frame.arity
  match s.waiting with
  | [] => s.stop (.results results.reverse)
  | caller :: waiting =>
    .next { s with
      frame := { caller with values := results ++ caller.values }
      waiting
      depth := s.depth - 1 }

/-- Goes on behind, or at the beginning of, an open block; behind the outermost one the call ends. -/
def branch (s : RunState σ) (depth : Nat) : Progress σ :=
  match s.frame.labels[depth]? with
  | none => s.leave
  | some l =>
    let values := s.frame.values
    .next { s with frame := { s.frame with
      labels := s.frame.labels.drop (depth + 1)
      values := values.take l.arity ++ values.drop (values.length - l.height)
      code := l.target } }

/-- Goes on behind the innermost block, all of whose instructions have been carried out. -/
def finishBlock (s : RunState σ) : Progress σ :=
  match s.frame.labels with
  | [] => s.leave
  | l :: labels => .next { s with frame := { s.frame with labels, code := l.after } }

def callOwn (s : RunState σ) (index : Nat) (f : Function) : Progress σ :=
  if depthBound ≤ s.depth then s.stop .overflow
  else
    let n := f.type.params.length
    let arguments := (s.frame.values.take n).reverse
    let locals := f.locals.flatMap fun (count, t) => List.replicate count (Value.zero t)
    .next { s with
      frame :=
        { function := index
          arity := f.type.results.length
          locals := (arguments ++ locals).toArray
          code := f.code }
      waiting := { s.frame with values := s.frame.values.drop n } :: s.waiting
      depth := s.depth + 1 }

def callHost (s : RunState σ) (h : Host σ) (i : Import) (t : FunctionType) : Progress σ :=
  let n := t.params.length
  let (answer, store, host) :=
    h.call i.source i.name (s.frame.values.take n).reverse s.store s.host
  match answer with
  | .exit code => .stopped (.exit code) store host
  | .results values =>
    .next { s with
      store, host
      frame := { s.frame with values := values.reverse ++ s.frame.values.drop n } }

def call (s : RunState σ) (p : Program) (h : Host σ) (index : Nat) : Progress σ :=
  match p.imports[index]? with
  | some i => s.callHost h i ((p.module.typeOf? index).getD {})
  | none =>
    match p.functions[index - p.imports.length]? with
    | some f => s.callOwn index f
    | none => s.trap .unreachable

def callTable (s : RunState σ) (p : Program) (h : Host σ) (type table : Nat) : Progress σ :=
  let (place, frame) := s.frame.popNat
  match ((s.store.tables.getD table ⟨0, none, {}⟩).get? place).bind id with
  | none => s.trap .outsideTable
  | some f =>
    if (p.module.typeOf? f).getD {} = p.module.types.getD type {} then
      { s with frame }.call p h f
    else s.trap .wrongType

def step (p : Program) (h : Host σ) (s : RunState σ) : Progress σ :=
  match s.frame.code with
  | [] => s.finishBlock
  | i :: code =>
    let s := { s with frame := { s.frame with code } }
    match i with
    | .unreachable => s.trap .unreachable
    | .block t body =>
      .next { s with frame := s.frame.enter t.params.length t.results.length code body }
    | .loop t body =>
      .next { s with
        frame := s.frame.enter t.params.length t.params.length (.loop t body :: code) body }
    | .choice t yes no =>
      let (c, frame) := s.frame.popNat
      let body := if c = 0 then no else yes
      .next { s with frame := frame.enter t.params.length t.results.length code body }
    | .branch depth => s.branch depth
    | .branchIf depth =>
      let (c, frame) := s.frame.popNat
      let s := { s with frame }
      if c = 0 then .next s else s.branch depth
    | .branchTable depths last =>
      let (n, frame) := s.frame.popNat
      { s with frame }.branch (depths.getD n last)
    | .leave => s.leave
    | .call f => s.call p h f
    | .callTable type table => s.callTable p h type table
    | i =>
      match Action.ofInstruction i s.frame s.store with
      | .ok (frame, store) => .next { s with frame, store }
      | .error t => s.trap t

/-- Carries out instructions, `steps` at most. -/
def run (p : Program) (h : Host σ) : (steps : Nat) → RunState σ → Ending × Store × σ
  | 0, s => (.unfinished, s.store, s.host)
  | steps + 1, s =>
    match s.step p h with
    | .next s => run p h steps s
    | .stopped e store host => (e, store, host)

end RunState

namespace Program

/-- The greatest number of instructions in a run. -/
def stepBound : Nat := 10 ^ 9

def invoke {σ : Type} (p : Program) (h : Host σ) (function : Nat) (arguments : List Value)
    (store : Store) (host : σ) : Ending × Store × σ :=
  let arity := ((p.module.typeOf? function).getD {}).results.length
  RunState.run p h stepBound
    { store, host
      frame := { function, arity, values := arguments.reverse, code := [.call function] } }

end Program

/-- The greatest number of functions in a stack trace. -/
def traceBound : Nat := 30

/-- The text of a trap with the functions that were being called. -/
def Module.trapText (m : Module) (t : Trap) (functions : List Nat) : Bytes :=
  let lines := (functions.take traceBound).map m.traceName ++
    if traceBound ≤ functions.length then
      [Bytes.ofString "... maybe followed by omitted frames"] else []
  "wasm error: " ++ t.message ++ "\nwasm stack trace:\n\t" ++ Bytes.join "\n\t" lines

end EngineHost.Wasm
