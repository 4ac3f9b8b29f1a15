import EngineHost.Wasm.Binary
import EngineHost.Wasm.Typing

/-!
# Validation

A module must refer only to what it declares, its constant expressions must have the types of what
they give values to, its start function must take and give nothing, and the bodies of its functions
must be typed.
-/

namespace EngineHost.Wasm.Module

def checkStart (m : Module) : Except Bytes Unit :=
  match m.start with
  | none => .ok ()
  | some f =>
    let here : Bytes := "invalid start function: func[" ++ Bytes.ofNat f ++ "]"
    match m.typeOf? f with
    | none => .error (here ++ " has an invalid type")
    | some t =>
      if t = {} then .ok ()
      else .error (here ++ " must have an empty (nullary) signature: " ++ t.text)

/-- There is one memory at most. -/
def checkMemoryCount (m : Module) : Except Bytes Unit :=
  if m.memory.isSome && m.importedMemory?.isSome then
    .error "at most one table allowed in module"
  else .ok ()

def checkImports (m : Module) : Except Bytes Unit :=
  m.imports.zipIdx.forM fun (i, number) => do
    if i.source.isEmpty then
      throw ("import[" ++ Bytes.ofNat number ++ "] has an empty module name")
    if let .function t := i.item then
      if m.types.length ≤ t then
        throw ("invalid import[" ++ Quoted.text i.source ++ "." ++ Quoted.text i.name ++
          "] function: type index out of range")

/-- A constant expression gives a value of a type, with the globals and the number of functions that
it may refer to. -/
def checkConstant (globals : List GlobalType) (functions : Nat) (wanted : ValueType)
    (c : Constant) : Except Bytes Unit := do
  let found ← match c with
    | .i32 _ => pure ValueType.i32
    | .i64 _ => pure .i64
    | .f32 _ => pure .f32
    | .f64 _ => pure .f64
    | .v128 _ => pure .v128
    | .global n =>
      match globals[n]? with
      | some g => pure g.type
      | none => throw (Bytes.ofString "global index out of range")
    | .nullReference kind => pure (if kind = 0x70 then .funcref else .externref)
    | .function n =>
      if n < functions then pure .funcref
      else throw ("ref.func index out of range [" ++ Bytes.ofNat n ++ "] with length " ++
        Bytes.ofNat ((functions + 2 ^ 32 - 1) % 2 ^ 32))
  if found ≠ wanted then
    throw ("const expression type mismatch expected " ++ wanted.name ++ " but got " ++ found.name)

def checkGlobals (m : Module) : Except Bytes Unit :=
  m.globals.forM fun (g, c) =>
    checkConstant m.importedGlobals m.allFunctions.length g.type c

/-- Active segments for the memory have a memory and an offset into it. -/
def checkData (m : Module) : Except Bytes Unit := do
  let offsets := m.data.filterMap (·.offset)
  if !offsets.isEmpty && m.memory?.isNone then throw (Bytes.ofString "unknown memory")
  offsets.forM fun c =>
    match checkConstant m.importedGlobals 0 .i32 c with
    | .ok () => .ok ()
    | .error text => .error ("calculate offset: " ++ text)

def checkExports (m : Module) : Except Bytes Unit :=
  m.exports.forM fun e =>
    let name := "export[" ++ Quoted.text e.name ++ "]"
    match e.kind with
    | .function =>
      if e.index < m.allFunctions.length then .ok ()
      else .error ("unknown function for " ++ name)
    | .global =>
      if e.index < m.allGlobals.length then .ok () else .error ("unknown global for " ++ name)
    | .memory =>
      if e.index = 0 && m.memory?.isSome then .ok ()
      else .error ("memory for " ++ name ++ " out of range")
    | .table =>
      if e.index < m.allTables.length then .ok ()
      else .error ("table for " ++ name ++ " out of range")

/-- The module's own functions have types, and their bodies fit them. -/
def checkFunctions (m : Module) : Except Bytes Unit :=
  (m.functions.zip m.bodies).zipIdx.forM fun ((t, body), number) =>
    let here : Bytes := "invalid " ++ m.describe number ++ ": "
    match m.types[t]? with
    | none => .error (here ++ "type section index " ++ Bytes.ofNat t ++ " out of range")
    | some type =>
      match Typing.check ⟨m, type, body⟩ with
      | .ok () => .ok ()
      | .error text => .error (here ++ text)

/-- The global that gives an offset is imported and a number. -/
def checkOffsetGlobal (m : Module) (number index : Nat) : Except Bytes Unit :=
  let here : Bytes :=
    "element[" ++ Bytes.ofNat number ++ "] (global.get " ++ Bytes.ofNat index ++ "): "
  let globals := m.imports.zipIdx.filterMap fun (i, place) => match i.item with
    | .global g => some (g, place)
    | _ => none
  match globals[index]? with
  | none => .error (here ++ "out of range of imported globals")
  | some (g, place) =>
    if g.type = .i32 then .ok ()
    else .error (here ++ "import[" ++ Bytes.ofNat place ++ "].global.ValType != i32")

/-- An element of a segment for a table exists and fits the segment. -/
def checkElement (m : Module) (s : ElementSegment) (here : Bytes) : Element → Except Bytes Unit
  | .null => .ok ()
  | .global n =>
    if n < m.allGlobals.length then .ok ()
    else .error (here ++ " global index " ++ Bytes.ofNat n ++ " out of range")
  | .function n =>
    if s.kind = 0x6f then .error (here ++ " must be ref.null but was " ++ Bytes.ofNat n)
    else if n < m.allFunctions.length then .ok ()
    else .error (here ++ " func index " ++ Bytes.ofNat n ++ " out of range")

/-- The target of an active segment for a table has room for its kind, and the offset is a number. -/
def checkTarget (m : Module) (s : ElementSegment) (number target : Nat) (offset : Constant) :
    Except Bytes Unit :=
  match m.allTables[target]? with
  | none => .error ("unknown table " ++ Bytes.ofNat target ++ " as active element target")
  | some t =>
    if t.kind ≠ s.kind then
      .error ("element type mismatch: table has " ++ referenceName t.kind ++ " but element has " ++
        referenceName s.kind)
    else match offset with
      | .i32 _ => .ok ()
      | .global n => m.checkOffsetGlobal number n
      | c => .error ("element[" ++ Bytes.ofNat number ++ "] has an invalid const expression: " ++
          c.instruction)

/-- Segments for tables have existing elements and targets. -/
def checkElements (m : Module) : Except Bytes Unit :=
  m.elements.zipIdx.forM fun (s, number) => do
    s.items.zipIdx.forM fun (e, i) =>
      m.checkElement s ("element[" ++ Bytes.ofNat number ++ "].init[" ++ Bytes.ofNat i ++ "]") e
    if let some (target, offset) := s.active then m.checkTarget s number target offset

/-- The announced number of segments is right. -/
def checkDataCount (m : Module) : Except Bytes Unit :=
  match m.dataCount with
  | some n =>
    if n = m.data.length then .ok ()
    else .error ("data count section (" ++ Bytes.ofNat n ++
      ") doesn't match the length of data section (" ++ Bytes.ofNat m.data.length ++ ")")
  | none => .ok ()

/-- All checks, in their order. -/
def check (m : Module) : Except Bytes Unit := do
  m.checkStart
  m.checkMemoryCount
  m.checkImports
  m.checkGlobals
  m.checkData
  m.checkExports
  m.checkFunctions
  m.checkElements
  m.checkDataCount

def ofBytes (data : Bytes) : Except Bytes Module := do
  match Binary.decode data with
  | .error f => throw f.message
  | .ok m =>
    m.check
    return m

end EngineHost.Wasm.Module
