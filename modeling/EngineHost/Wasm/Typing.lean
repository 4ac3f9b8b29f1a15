import EngineHost.Wasm.Instruction
import EngineHost.Wasm.Operands
import EngineHost.Wasm.Reader
import EngineHost.Wasm.VectorInstruction

/-!
# Typing of bodies

The instructions of a body are checked one after the other: each must find operands of its types on
the stack, refer only to what the module and the body declare, and stand in blocks that are closed
properly. The first fault decides.
-/

namespace EngineHost.Wasm.Typing

inductive BlockKind
  /-- The body itself or a block from which branches go forward. -/
  | plain
  /-- A block from which branches go back to its beginning. -/
  | loop
  /-- The first part of a conditional block. -/
  | condition
  /-- The second part of a conditional block. -/
  | alternative
deriving DecidableEq, Repr

/-- The name of a kind of block in messages; a plain block has none. -/
def BlockKind.name : BlockKind → Bytes
  | plain => []
  | loop => "loop"
  | condition => "if"
  | alternative => "else"

structure Block where
  kind : BlockKind
  type : FunctionType
  /-- The floor of the block around it. -/
  outerFloor : Nat := 0
deriving DecidableEq, Repr

def codes (types : List ValueType) : List UInt8 := types.map ValueType.code

namespace Block

def params (b : Block) : List UInt8 := codes b.type.params

def results (b : Block) : List UInt8 := codes b.type.results

/-- What a branch to the block takes along. -/
def label (b : Block) : List UInt8 := if b.kind = .loop then b.params else b.results

end Block

structure Scope where
  module : Module
  type : FunctionType
  body : Body

namespace Scope

/-- The number of parameters and local variables. -/
def variableCount (s : Scope) : Nat := s.type.params.length + s.body.localCount

def variableType (s : Scope) (index : Nat) : ValueType :=
  match s.type.params[index]? with
  | some t => t
  | none => (Body.typeAt? s.body.locals (index - s.type.params.length)).getD .i32

end Scope

structure State where
  /-- The instructions that follow. -/
  rest : Bytes
  operands : Operands := {}
  /-- The open blocks, the innermost first. -/
  blocks : List Block
deriving Repr

/-- Checks that read instructions; a fault is its message. -/
abbrev Check := StateT State (Except Bytes)

namespace Check

/-- Puts a text before the fault of a check. -/
def inside {α : Type} (part : Bytes) (c : Check α) : Check α := fun s =>
  match c s with
  | .ok r => .ok r
  | .error text => .error (part ++ ": " ++ text)

def orElse {α : Type} (text : Bytes) (c : Check α) : Check α := fun s =>
  match c s with
  | .ok r => .ok r
  | .error _ => .error text

/-- Reads what stands behind an instruction. -/
def immediate {α : Type} (part : Bytes) (r : Reader α) : Check α := fun s =>
  match r s.rest with
  | .ok (a, rest) => .ok (a, { s with rest })
  | .error f => .error (part ++ ": " ++ f.message)

/-- The byte behind an instruction; the last instruction of a body has none behind it. -/
def nextByte : Check UInt8 := fun s =>
  match s.rest with
  | [] => .ok (0, s)
  | b :: rest => .ok (b, { s with rest })

def skip (n : Nat) : Check Unit := modify fun s => { s with rest := s.rest.drop n }

def left : Check Nat := return (← get).rest.length

def change (f : Operands → Operands) : Check Unit :=
  modify fun s => { s with operands := f s.operands }

def attempt (f : Operands → Except Bytes Operands) : Check Unit := fun s =>
  match f s.operands with
  | .ok operands => .ok ((), { s with operands })
  | .error text => .error text

def push (code : UInt8) : Check Unit := change (·.push code)

def give (t : ValueType) : Check Unit := push t.code

def pop : Check UInt8 := fun s =>
  match s.operands.pop with
  | .ok (code, operands) => .ok (code, { s with operands })
  | .error text => .error text

/-- Takes an operand of a type from the stack. -/
def expect (code : UInt8) : Check Unit := attempt (·.expect code)

def takeValue (t : ValueType) : Check Unit := expect t.code

/-- Takes an operand for an instruction; `word` is what messages call it. -/
def operandFor (name word : Bytes) (code : UInt8) : Check Unit :=
  inside ("cannot pop the " ++ word ++ " for " ++ name) (expect code)

def operand (name : Bytes) (t : ValueType) : Check Unit := operandFor name "operand" t.code

def require (role : Role) (context : Bytes) (wanted : List UInt8) (alone : Bool) : Check Unit :=
  attempt (·.require role context wanted alone)

/-- The instructions that follow cannot be reached. -/
def unreachable : Check Unit := change Operands.unreachable

def index : Check Nat := immediate "read immediate" Reader.unsigned

end Check

open Check

def memoryFor (s : Scope) (name : Bytes) : Check Unit := do
  if s.module.memory?.isNone then throw ("memory must exist for " ++ name)

/-- The alignment of an access to the memory, as an exponent of two; its offset is left out. -/
def alignment : Check Nat := do
  let align ← immediate "read memory align" Reader.unsigned
  if 32 ≤ align then throw (Bytes.ofString "invalid memory alignment")
  let _ ← immediate "read memory offset" Reader.unsigned
  return align

/-- Moves a value between the stack and the memory. -/
def access (s : Scope) (a : Access) : Check Unit := do
  memoryFor s a.name
  let align ← alignment
  if a.width < 2 ^ align then throw (Bytes.ofString "invalid memory alignment")
  if a.mode = .store then
    takeValue a.type
    takeValue .i32
  else
    takeValue .i32
    give a.type

def operation (o : Operation) : Check Unit := do
  o.operands.forM fun (word, t) => operandFor o.name word t.code
  give o.result

/-- The mark of the only memory, one byte that is zero. -/
def zeroByte (part fault : Bytes) : Check Unit := do
  let before ← left
  let n ← immediate part Reader.unsigned
  if n ≠ 0 || before - (← left) ≠ 1 then throw fault

def memorySize (s : Scope) : Check Unit := do
  memoryFor s "memory.size"
  zeroByte "read immediate" "memory instruction reserved bytes not zero with 1 byte"
  give .i32

def memoryGrow (s : Scope) : Check Unit := do
  memoryFor s "memory.grow"
  zeroByte "read immediate" "memory instruction reserved bytes not zero with 1 byte"
  takeValue .i32
  give .i32

def variableFor (s : Scope) (name : Bytes) : Check ValueType := do
  let i ← index
  if s.variableCount ≤ i then
    throw ("invalid local index for " ++ name ++ " " ++ Bytes.ofNat i ++ " >= " ++
      Bytes.ofNat s.variableCount ++ "(=len(locals)+len(parameters))")
  return s.variableType i

def globalGet (s : Scope) : Check Unit := do
  match s.module.allGlobals[← index]? with
  | some g => give g.type
  | none => throw (Bytes.ofString "invalid index for global.get")

def globalSet (s : Scope) : Check Unit := do
  match s.module.allGlobals[← index]? with
  | none => throw (Bytes.ofString "invalid global index")
  | some g =>
    if !g.mutable then throw (Bytes.ofString "global.set when not mutable")
    takeValue g.type

def depth : Check Nat := return (← get).blocks.length

/-- What a branch to an open block takes along. -/
def labelOf? (i : Nat) : Check (Option (List UInt8)) := return ((← get).blocks[i]?).map Block.label

def branch : Check Unit := do
  match ← labelOf? (← index) with
  | none => throw (Bytes.ofString "invalid br operation: index out of range")
  | some label =>
    require .results "br" label false
    unreachable

/-- A branch leads out of fewer blocks than are open. -/
def farBranch (name word : Bytes) (i : Nat) : Check Bytes := do
  return "invalid ln param given for " ++ name ++ ": " ++ word ++ "=" ++ Bytes.ofNat i ++ " with " ++
    Bytes.ofNat (← depth) ++ " for the current label stack length"

def branchIf : Check Unit := do
  let i ← index
  match ← labelOf? i with
  | none => throw (← farBranch "br_if" "index" i)
  | some label =>
    orElse "cannot pop the required operand for br_if" (takeValue .i32)
    require .results "br_if" label false
    change (·.pushAll label)

/-- Takes what the last of several branches takes along, the topmost operand first, and says what of
it is known. -/
def tableLabel : (label : List UInt8) → (place : Nat) → Check (List UInt8)
  | [], _ => return []
  | wanted :: label, place => do
    let found ← pop
    if found = anyType then return anyType :: (← tableLabel label (place + 1))
    if found ≠ wanted then throw (Role.params.typeMessage "br_table" found wanted place)
    return wanted :: (← tableLabel label (place + 1))

def byteList (bytes : List UInt8) : Bytes :=
  "[" ++ Bytes.join " " (bytes.map fun b => Bytes.ofNat b.toNat) ++ "]"

/-- One of several branches takes along what the last one does. -/
def tableEntry (last : Nat) (known : List UInt8) (i : Nat) : Check Unit := do
  match ← labelOf? i with
  | none => throw (Bytes.ofString "invalid l param given for br_table")
  | some label =>
    if known.length ≠ label.length then
      throw ("inconsistent block type length for br_table at " ++ Bytes.ofNat i ++ "; " ++
        byteList known ++ " (ln=" ++ Bytes.ofNat last ++ ") != " ++ byteList label ++ " (l=" ++
        Bytes.ofNat i ++ ")")
    if (known.zip label).any fun (k, l) => k != anyType && k != l then
      throw ("incosistent block type for br_table at " ++ Bytes.ofNat i)

def branchTable : Check Unit := do
  let n ← index
  let entries ← immediate "read immediate" (Reader.repeated (fun _ => Reader.unsigned) n 0)
  let last ← index
  match ← labelOf? last with
  | none => throw (← farBranch "br_table" "ln" last)
  | some label =>
    orElse "cannot pop the required operand for br_table" (takeValue .i32)
    let known := (← tableLabel label.reverse 0).reverse
    entries.forM (tableEntry last known)
    unreachable

/-- Takes the arguments of a function, the last one first, and leaves its results. -/
def apply (t : FunctionType) : Check Unit := do
  t.params.reverse.forM takeValue
  t.results.forM give

/-- Calls a function; `name` is that of the instruction. -/
def call (s : Scope) (name : Bytes) : Check Unit := do
  match s.module.allFunctions[← index]? with
  | none => throw (Bytes.ofString "invalid function index")
  | some t =>
    inside ("type mismatch on " ++ name ++ " operation param type")
      (apply (s.module.types.getD t {}))

/-- Calls a function from a table; `name` is that of the instruction. -/
def callIndirect (s : Scope) (name : Bytes) : Check Unit := do
  let i ← index
  match s.module.types[i]? with
  | none => throw ("invalid type index at " ++ name ++ ": " ++ Bytes.ofNat i)
  | some t =>
    let n ← immediate "read table index" Reader.unsigned
    match s.module.allTables[n]? with
    | none => throw ("unknown table index: " ++ Bytes.ofNat n)
    | some table =>
      if table.kind ≠ 0x70 then
        throw ("table is not funcref type but was " ++ referenceName table.kind ++ " for " ++ name)
      orElse ("cannot pop the offset in table for " ++ name) (takeValue .i32)
      orElse ("type mismatch on " ++ name ++ " operation input type") (apply t)

def refNull : Check Unit := do
  let kind ← nextByte
  if !isReference kind then
    throw ("unknown type for ref.null: 0x" ++ Bytes.ofHex kind.toNat)
  push kind

def refIsNull : Check Unit := do
  let found ← inside "cannot pop the operand for ref.is_null" pop
  if !isReference found && found ≠ anyType then
    throw ("type mismatch: expected reference type but was " ++ typeName found)
  give .i32

def refFunc (s : Scope) : Check Unit := do
  let i ← immediate "failed to read function index for ref.func" Reader.unsigned
  if !s.module.declared.contains i then
    throw ("undeclared function index " ++ Bytes.ofNat i ++ " for ref.func")
  give .funcref

def tableAt (s : Scope) (i : Nat) : Check Table :=
  match s.module.allTables[i]? with
  | some t => return t
  | none => throw ("table of index " ++ Bytes.ofNat i ++ " not found")

def tableGet (s : Scope) : Check Unit := do
  let t ← tableAt s (← index)
  operand "table.get" .i32
  push t.kind

def tableSet (s : Scope) : Check Unit := do
  let t ← tableAt s (← index)
  operandFor "table.set" "operand" t.kind
  operand "table.set" .i32

/-- A segment for the memory to which an instruction refers. -/
def dataFor (s : Scope) (name : Bytes) : Check Unit := do
  if s.module.dataCount.isNone then throw (name ++ " requires data count section")
  let i ← immediate ("failed to read data segment index for " ++ name) Reader.unsigned
  if s.module.data.length ≤ i then
    throw ("index " ++ Bytes.ofNat i ++ " out of range of data section(len=" ++
      Bytes.ofNat s.module.data.length ++ ")")

def onlyMemory (name : Bytes) : Check Unit :=
  zeroByte ("failed to read memory index for " ++ name)
    (name ++ " reserved byte must be zero encoded with 1 byte")

/-- A segment for a table to which an instruction refers. -/
def elementsFor (s : Scope) (name : Bytes) : Check ElementSegment := do
  let i ← immediate ("failed to read element segment index for " ++ name) Reader.unsigned
  match s.module.elements[i]? with
  | some e => return e
  | none => throw ("index " ++ Bytes.ofNat i ++ " out of range of element section(len=" ++
      Bytes.ofNat s.module.elements.length ++ ")")

/-- A table to which an instruction refers; `word` is what messages call it. -/
def tableFor (s : Scope) (name word : Bytes) : Check Table := do
  tableAt s (← immediate ("failed to read " ++ word ++ " index for " ++ name) Reader.unsigned)

def threeNumbers (name : Bytes) : Check Unit := do
  operand name .i32
  operand name .i32
  operand name .i32

def tableInit (s : Scope) : Check Unit := do
  let e ← elementsFor s "table.init"
  let t ← tableFor s "table.init" "source table"
  if e.kind ≠ t.kind then
    throw ("type mismatch for table.init: element type " ++ referenceName e.kind ++
      " does not match table type " ++ referenceName t.kind)
  threeNumbers "table.init"

def tableCopy (s : Scope) : Check Unit := do
  let target ← tableFor s "table.copy" "destination table"
  let source ← tableFor s "table.copy" "source table"
  if source.kind ≠ target.kind then
    throw ("table type mismatch for table.copy: " ++ referenceName source.kind ++ " (src) != " ++
      referenceName target.kind ++ " (dst)")
  threeNumbers "table.copy"

/-- The instructions on whole pieces of memories and tables. -/
def bulk (s : Scope) (code : Nat) : Check Unit :=
  match code with
  | 8 => do
    memoryFor s "memory.init"
    dataFor s "memory.init"
    onlyMemory "memory.init"
    threeNumbers "memory.init"
  | 9 => dataFor s "data.drop"
  | 10 => do
    memoryFor s "memory.copy"
    onlyMemory "memory.copy"
    onlyMemory "memory.copy"
    threeNumbers "memory.copy"
  | 11 => do
    memoryFor s "memory.fill"
    onlyMemory "memory.fill"
    threeNumbers "memory.fill"
  | 12 => tableInit s
  | 13 => do
    let _ ← elementsFor s "elem.drop"
  | 14 => tableCopy s
  | 15 => do
    let t ← tableFor s "table.grow" "table"
    operand "table.grow" .i32
    operandFor "table.grow" "operand" t.kind
    give .i32
  | 16 => do
    let _ ← tableFor s "table.size" "table"
    give .i32
  | 17 => do
    let t ← tableFor s "table.fill" "table"
    operand "table.fill" .i32
    operandFor "table.fill" "operand" t.kind
    operand "table.fill" .i32
  | code => throw ("unknown misc opcode 0x" ++ Bytes.ofHex code)

/-- An instruction with a number behind its code. -/
def extended (s : Scope) : Check Unit := do
  let code ← immediate "failed to read misc opcode" Reader.unsigned
  if 256 ≤ code then throw ("invalid misc opcode: 0x" ++ Bytes.ofHex code)
  match Operation.saturating[code]? with
  | some o => operation o
  | none => bulk s code

/-- The place in a vector to which an instruction refers. `holder` is the name of the instruction in
the message that there is none. -/
def lane (name holder : Bytes) (lanes : Nat) : Check Unit := do
  if (← left) = 0 then throw ("lane for " ++ holder ++ " not found")
  let n ← nextByte
  if lanes ≤ n.toNat then
    throw ("invalid lane index " ++ Bytes.ofNat n.toNat ++ " >= " ++ Bytes.ofNat lanes ++ " for " ++
      name)

def vectorAccess (s : Scope) (name : Bytes) (width : Nat) : Check Unit := do
  memoryFor s name
  let align ← alignment
  if width < 2 ^ align then
    throw ("invalid memory alignment " ++ Bytes.ofNat align ++ " for " ++ name)

/-- Sixteen places in two vectors. -/
def shuffle (name : Bytes) : Check Unit := do
  if (← left) < 16 then throw ("16 lane indexes for " ++ name ++ " not found")
  (List.range 16).forM fun i => do
    let n ← nextByte
    if 32 ≤ n then
      throw ("invalid lane index[" ++ Bytes.ofNat i ++ "] " ++ Bytes.ofNat n.toNat ++
        " >= 32 for " ++ name)

def vectorInstruction (s : Scope) (v : VectorInstruction) : Check Unit :=
  match v.form with
  | .load width _ => do
    vectorAccess s v.name width
    operand v.name .i32
    give .v128
  | .store => do
    vectorAccess s v.name 16
    operand v.name .v128
    operand v.name .i32
  | .const => do
    if (← left) < 16 then throw ("cannot read constant vector value for " ++ v.name)
    skip 16
    give .v128
  | .shuffle => do
    shuffle v.name
    operand v.name .v128
    operand v.name .v128
    give .v128
  | .extract lanes t _ => do
    lane v.name v.name lanes
    operand v.name .v128
    give t
  | .replace lanes t _ => do
    lane v.name v.name lanes
    operand v.name t
    operand v.name .v128
    give .v128
  | .loadLane width => do
    vectorAccess s v.name width
    lane v.name "v128.load64_lane" (16 / width)
    operand v.name .v128
    operand v.name .i32
    give .v128
  | .storeLane width => do
    vectorAccess s v.name width
    lane v.name v.name (16 / width)
    operand v.name .v128
    operand v.name .i32
  | .compute operands result f => operation (v.operation operands result f)
  | .missing => throw ("unknown SIMD instruction " ++ v.name)

/-- An instruction on vectors, by the byte behind its code. -/
def vector (s : Scope) : Check Unit := do
  match VectorInstruction.all[(← nextByte).toNat]? with
  | some v => vectorInstruction s v
  | none => return

/-- An instruction that is known but not offered. -/
def disabled (name : Bytes) : Check Unit :=
  throw (name ++ " invalid as feature \"\" is disabled")

def blockType (s : Scope) : Check FunctionType := do
  let n ← immediate "read block: decode int33" Reader.signed33
  match s.module.blockType? n with
  | some t => return t
  | none => throw ("read block: type index out of range: " ++ Bytes.ofInt n)

/-- Opens a block; `name` is that of its instruction. -/
def openBlock (name : Bytes) (kind : BlockKind) (t : FunctionType) : Check Unit := do
  let params := codes t.params
  require .params name params false
  change (·.pushAll params)
  modify fun s => { s with
    blocks := ⟨kind, t, s.operands.floor⟩ :: s.blocks
    operands := { s.operands with floor := s.operands.height - params.length } }

def place (s : Scope) : Check Nat := return s.body.code.length - (← left) - 1

/-- Goes on to the second part of a conditional block. -/
def alternative (s : Scope) : Check Unit := do
  match (← get).blocks with
  | b :: blocks =>
    if b.kind ≠ .condition then
      throw ("else instruction must be used in if block: 0x" ++ Bytes.ofHex (← place s))
    modify fun s => { s with blocks := { b with kind := .alternative } :: blocks }
    require .results "if" b.results true
    change fun o => o.clear.pushAll b.params
  | [] => return

def closeBlock : Check Unit := do
  match (← get).blocks with
  | b :: blocks =>
    if b.kind = .condition && b.params ≠ b.results then
      throw (Role.results.countMessage "else" b.params b.results)
    require .results b.kind.name b.results true
    change fun o => { o.clear.pushAll b.results with floor := b.outerFloor }
    modify fun s => { s with blocks }
  | [] => return

/-- Takes one of two operands; with `typed`, their type stands behind the instruction. -/
def select (typed : Bool) : Check Unit := do
  inside "type mismatch on 3rd select operand" (takeValue .i32)
  let second ← inside "invalid select" pop
  let first ← inside "invalid select" pop
  if typed then
    if (← nextByte) ≠ 1 then throw (Bytes.ofString "too many type immediates for typed_select")
    let code ← nextByte
    if (ValueType.ofByte? code).isNone then
      throw ("invalid type " ++ typeName code ++ " for typed_select")
  else if isReference second || isReference first then
    throw (Bytes.ofString "reference types cannot be used for non typed select instruction")
  if !fits second first then
    throw (Bytes.ofString "type mismatch on 1st and 2nd select operands")
  push (if second = anyType then first else second)

def single (s : Scope) (code : UInt8) : Check Unit :=
  match code with
  | 0x00 => unreachable
  | 0x01 => return
  | 0x02 => do openBlock "block" .plain (← blockType s)
  | 0x03 => do openBlock "loop" .loop (← blockType s)
  | 0x04 => do
    let t ← blockType s
    inside "cannot pop the operand for 'if'" (takeValue .i32)
    openBlock "if" .condition t
  | 0x05 => alternative s
  | 0x0b => closeBlock
  | 0x0c => branch
  | 0x0d => branchIf
  | 0x0e => branchTable
  | 0x0f => do
    require .results [] (codes s.type.results) false
    unreachable
  | 0x10 => call s "call"
  | 0x11 => callIndirect s "call_indirect"
  | 0x12 => do
    call s "return_call"
    disabled "return_call"
  | 0x13 => do
    callIndirect s "return_call_indirect"
    disabled "return_call_indirect"
  | 0x1a => do
    let _ ← inside "invalid drop" pop
  | 0x1b => select false
  | 0x1c => select true
  | 0x20 => do give (← variableFor s "local.get")
  | 0x21 => do takeValue (← variableFor s "local.set")
  | 0x22 => do
    let t ← variableFor s "local.tee"
    takeValue t
    give t
  | 0x23 => globalGet s
  | 0x24 => globalSet s
  | 0x25 => tableGet s
  | 0x26 => tableSet s
  | 0x3f => memorySize s
  | 0x40 => memoryGrow s
  | 0x41 => do
    let _ ← immediate "read i32 immediate" (Reader.signed 32)
    give .i32
  | 0x42 => do
    let _ ← immediate "read i64 immediate" (Reader.signed 64)
    give .i64
  | 0x43 => do
    skip 4
    give .f32
  | 0x44 => do
    skip 8
    give .f64
  | 0xd0 => refNull
  | 0xd1 => refIsNull
  | 0xd2 => refFunc s
  | 0xfc => extended s
  | 0xfd => vector s
  | 0xfe => do disabled (atomicNames.getD (← nextByte).toNat [])
  | code => throw ("invalid instruction 0x" ++ Bytes.ofHex code.toNat)

def instruction (s : Scope) (code : UInt8) : Check Unit :=
  match tableEntry? Access.all Access.firstCode code with
  | some a => access s a
  | none =>
    match tableEntry? Operation.all Operation.firstCode code with
    | some o => operation o
    | none => single s code

/-- The instructions that follow; each takes a byte at least. -/
def instructions (s : Scope) : (steps : Nat) → Check Unit
  | 0 => return
  | steps + 1 => do
    match (← get).rest with
    | [] => return
    | code :: rest =>
      modify fun state => { state with rest }
      if (← get).blocks.isEmpty then
        throw ("unexpected end of function at pc=0x" ++ Bytes.ofHex (← place s))
      instruction s code
      instructions s steps

def operandBound : Nat := 2 ^ 27

def check (s : Scope) : Except Bytes Unit := do
  let start : State := { rest := s.body.code, blocks := [⟨.plain, s.type, 0⟩] }
  let ((), last) ← (instructions s s.body.code.length).run start
  if !last.blocks.isEmpty then throw (Bytes.ofString "ill-nested block exists")
  if operandBound < last.operands.highest then
    throw ("function may have " ++ Bytes.ofNat last.operands.highest ++
      " stack values, which exceeds limit " ++ Bytes.ofNat operandBound)

end EngineHost.Wasm.Typing
