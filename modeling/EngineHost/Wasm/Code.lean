import EngineHost.Wasm.Instruction
import EngineHost.Wasm.Reader
import EngineHost.Wasm.VectorInstruction

/-!
# Code

The instructions of a body that has been checked, with their blocks nested. Since the bytes are known
to be well formed, reading them back cannot fail; where it would, the instructions end.
-/

namespace EngineHost.Wasm

inductive Instruction
  | unreachable
  | nop
  | block (type : FunctionType) (body : List Instruction)
  | loop (type : FunctionType) (body : List Instruction)
  /-- One of two blocks. -/
  | choice (type : FunctionType) (yes no : List Instruction)
  /-- Goes on behind, or at the beginning of, a block around. -/
  | branch (depth : Nat)
  | branchIf (depth : Nat)
  /-- A branch to one of several blocks, the last one if the number is too great. -/
  | branchTable (depths : List Nat) (last : Nat)
  /-- Leaves the function. -/
  | leave
  | call (function : Nat)
  /-- Calls the function of a type in a table. -/
  | callTable (type table : Nat)
  | drop
  | select
  | localGet (index : Nat)
  | localSet (index : Nat)
  | localTee (index : Nat)
  | globalGet (index : Nat)
  | globalSet (index : Nat)
  | tableGet (table : Nat)
  | tableSet (table : Nat)
  | access (a : Access) (offset : Nat)
  | memorySize
  | memoryGrow
  | constant (v : Value)
  | compute (o : Operation)
  /-- Asks whether a reference is one to nothing. -/
  | isNull
  | memoryInit (segment : Nat)
  | dataDrop (segment : Nat)
  | memoryCopy
  | memoryFill
  | tableInit (segment table : Nat)
  | elementDrop (segment : Nat)
  | tableCopy (target source : Nat)
  | tableGrow (table : Nat)
  | tableSize (table : Nat)
  | tableFill (table : Nat)
  /-- Makes a vector from some bytes of the memory. -/
  | vectorLoad (width : Nat) (f : BitVec 128 → BitVec 128) (offset : Nat)
  /-- Fills one place of a vector from the memory. -/
  | laneLoad (width place offset : Nat)
  /-- Copies one place of a vector to the memory. -/
  | laneStore (width place offset : Nat)
deriving Inhabited

namespace Code

open Reader

/-- The alignment and the offset of an access; only the offset matters. -/
def accessOffset : Reader Nat := do
  let _ ← unsigned
  unsigned

/-- The instructions on whole pieces of memories and tables, by the number behind their code. -/
def bulk (code : Nat) : Reader Instruction :=
  match code with
  | 8 => do
    let segment ← unsigned
    let _ ← byte
    return .memoryInit segment
  | 9 => do return .dataDrop (← unsigned)
  | 10 => do
    let _ ← bytes 2
    return .memoryCopy
  | 11 => do
    let _ ← byte
    return .memoryFill
  | 12 => do return .tableInit (← unsigned) (← unsigned)
  | 13 => do return .elementDrop (← unsigned)
  | 14 => do return .tableCopy (← unsigned) (← unsigned)
  | 15 => do return .tableGrow (← unsigned)
  | 16 => do return .tableSize (← unsigned)
  | _ => do return .tableFill (← unsigned)

def vector : Reader Instruction := do
  let v := VectorInstruction.all.getD (← byte).toNat ⟨[], .missing⟩
  match v.form with
  | .load width f => return .vectorLoad width f (← accessOffset)
  | .store => return .access ⟨v.name, .v128, 16, .store⟩ (← accessOffset)
  | .const => return .constant (.ofBits .v128 (Bytes.littleEndian (← bytes 16)))
  | .shuffle =>
    let places := (← bytes 16).map UInt8.toNat
    return .compute (v.shuffled places)
  | .extract _ type f =>
    let place := (← byte).toNat
    return .compute (v.extracted type (f · place))
  | .replace _ type f =>
    let place := (← byte).toNat
    return .compute (v.replaced type (f · place))
  | .loadLane width =>
    let offset ← accessOffset
    return .laneLoad width (← byte).toNat offset
  | .storeLane width =>
    let offset ← accessOffset
    return .laneStore width (← byte).toNat offset
  | .compute operands result f => return .compute (v.operation operands result f)
  | .missing => return .nop

/-- The instructions that belong to no family and open no block. -/
def single (code : UInt8) : Reader Instruction :=
  match code with
  | 0x00 => return .unreachable
  | 0x0c => do return .branch (← unsigned)
  | 0x0d => do return .branchIf (← unsigned)
  | 0x0e => do
    let n ← unsigned
    let depths ← repeated (fun _ => unsigned) n 0
    return .branchTable depths (← unsigned)
  | 0x0f => return .leave
  | 0x10 => do return .call (← unsigned)
  | 0x11 => do return .callTable (← unsigned) (← unsigned)
  | 0x1a => return .drop
  | 0x1b => return .select
  | 0x1c => do
    let _ ← bytes 2
    return .select
  | 0x20 => do return .localGet (← unsigned)
  | 0x21 => do return .localSet (← unsigned)
  | 0x22 => do return .localTee (← unsigned)
  | 0x23 => do return .globalGet (← unsigned)
  | 0x24 => do return .globalSet (← unsigned)
  | 0x25 => do return .tableGet (← unsigned)
  | 0x26 => do return .tableSet (← unsigned)
  | 0x3f => do
    let _ ← byte
    return .memorySize
  | 0x40 => do
    let _ ← byte
    return .memoryGrow
  | 0x41 => do return .constant (.ofBits .i32 (← signed 32))
  | 0x42 => do return .constant (.ofBits .i64 (← signed 64))
  | 0x43 => do return .constant (.ofBits .f32 (Bytes.littleEndian (← bytes 4)))
  | 0x44 => do return .constant (.ofBits .f64 (Bytes.littleEndian (← bytes 8)))
  | 0xd0 => do
    let _ ← byte
    return .constant (.reference none)
  | 0xd1 => return .isNull
  | 0xd2 => do return .constant (.reference (some (← unsigned)))
  | 0xfc => do
    let code ← unsigned
    match Operation.saturating[code]? with
    | some o => return .compute o
    | none => bulk code
  | 0xfd => vector
  | _ => return .nop

def plain (code : UInt8) : Reader Instruction :=
  match tableEntry? Access.all Access.firstCode code with
  | some a => do return .access a (← accessOffset)
  | none =>
    match tableEntry? Operation.all Operation.firstCode code with
    | some o => return .compute o
    | none => single code

structure Opened where
  /-- The instruction that opened it. -/
  code : UInt8
  type : FunctionType
  /-- The first part of a block with two parts. -/
  first : Option (List Instruction) := none
  /-- The instructions before the block, the last one first. -/
  before : List Instruction

/-- The block with its last part. -/
def Opened.close (o : Opened) (last : List Instruction) : Instruction :=
  if o.code = 0x03 then .loop o.type last
  else if o.code = 0x04 then
    match o.first with
    | some first => .choice o.type first last
    | none => .choice o.type last []
  else .block o.type last

/-- The instructions of a body; `done` are those of the innermost open block, the last one first. -/
def instructions (m : Module) : (steps : Nat) → (opened : List Opened) →
    (done : List Instruction) → Bytes → List Instruction
  | 0, _, done, _ => done.reverse
  | _ + 1, _, done, [] => done.reverse
  | steps + 1, opened, done, code :: rest =>
    if code = 0x0b then
      match opened with
      | [] => done.reverse
      | o :: opened => instructions m steps opened (o.close done.reverse :: o.before) rest
    else if code = 0x05 then
      match opened with
      | [] => done.reverse
      | o :: opened => instructions m steps ({ o with first := some done.reverse } :: opened) [] rest
    else if 0x02 ≤ code && code ≤ 0x04 then
      match signed33 rest with
      | .error _ => done.reverse
      | .ok (n, rest) =>
        let type := (m.blockType? n).getD {}
        instructions m steps ({ code, type, before := done } :: opened) [] rest
    else
      match plain code rest with
      | .error _ => done.reverse
      | .ok (i, rest) => instructions m steps opened (i :: done) rest

def ofBody (m : Module) (b : Body) : List Instruction := instructions m b.code.length [] [] b.code

end Code

end EngineHost.Wasm
