import EngineHost.Wasm.Module
import EngineHost.Wasm.Reader

/-!
# The binary format

A file begins with a mark and a version. Sections follow in a fixed order, each with its number, its
length and its contents; only those that the format leaves open may stand anywhere.
-/

namespace EngineHost.Wasm.Binary

open Reader

/-- A byte or a number as messages show it. -/
def hex (n : Nat) : Bytes := "0x" ++ Bytes.ofHex n

def valueTypes (n : Nat) : Reader (List ValueType) := do
  (← bytes n).mapM fun b =>
    match ValueType.ofByte? b with
    | some t => pure t
    | none => throw (.plain ("invalid value type: " ++ Bytes.ofNat b.toNat))

def functionType : Reader FunctionType := do
  let b ← inside "read leading byte" byte
  if b != 0x60 then throw (.invalidByte (": " ++ hex b.toNat ++ " != 0x60"))
  let n ← inside "could not read parameter count" unsigned
  let params ← inside "could not read parameter types" (valueTypes n)
  let n ← inside "could not read result count" unsigned
  let results ← inside "could not read result types" (valueTypes n)
  return ⟨params, results⟩

def limits : Reader (Nat × Option Nat × Bool) := do
  let flag ← inside "read leading byte" byte
  if 3 < flag then
    throw (.invalidByte (" for limits: " ++ hex flag.toNat ++ " not in (0x00, 0x01, 0x02, 0x03)"))
  let least ← inside "read min of limit" unsigned
  let most ←
    if flag &&& 1 = 0 then pure none else do pure (some (← inside "read max of limit" unsigned))
  return (least, most, 2 ≤ flag)

def functionBound : Nat := 2 ^ 27

def table : Reader Table := do
  let kind ← inside "read leading byte" byte
  let (least, most, shared) ← inside "read limits" limits
  if functionBound < least then
    throw (.plain ("table min must be at most " ++ Bytes.ofNat functionBound))
  if most.any (· < least) then
    throw (.plain "table size minimum must not be greater than maximum")
  if shared then throw (.plain "tables cannot be marked as shared")
  return ⟨kind, least, most⟩

/-- The greatest size of a memory in pages. -/
def pageBound : Nat := 65536

def pages (n : Nat) : Bytes :=
  let kilo := n * 64 % 2 ^ 32
  let size : Bytes :=
    if kilo < 1024 then Bytes.ofNat kilo ++ " Ki"
    else if kilo / 1024 < 1024 then Bytes.ofNat (kilo / 1024) ++ " Mi"
    else if kilo / 1024 ^ 2 < 1024 then Bytes.ofNat (kilo / 1024 ^ 2) ++ " Gi"
    else Bytes.ofNat (kilo / 1024 ^ 3) ++ " Ti"
  Bytes.ofNat n ++ " pages (" ++ size ++ ")"

def memory : Reader MemoryType := do
  let (least, most, shared) ← limits
  if shared then throw (.plain "shared memory requested but threads feature not enabled")
  let most := most.getD pageBound
  if pageBound < most then
    throw (.plain ("max " ++ pages most ++ " over limit of " ++ pages pageBound))
  if pageBound < least then
    throw (.plain ("min " ++ pages least ++ " over limit of " ++ pages pageBound))
  if most < least then throw (.plain ("min " ++ pages least ++ " > max " ++ pages most))
  return ⟨least, most⟩

def globalType : Reader GlobalType := do
  let types ← inside "read value type" (valueTypes 1)
  let b ← inside "read mutablity" byte
  if 1 < b then
    throw (.invalidByte (" for mutability: " ++ hex b.toNat ++ " != 0x00 or 0x01"))
  return ⟨types.headD .i32, b == 1⟩

def constantInstruction (code : UInt8) : Reader Constant :=
  match code with
  | 0x41 => do return .i32 (← inside "read value" (signed 32))
  | 0x42 => do return .i64 (← inside "read value" (signed 64))
  | 0x43 => do
    return .f32 (Bytes.littleEndian (← inside "read f32 constant" (bytes 4)))
  | 0x44 => do
    return .f64 (Bytes.littleEndian (← inside "read f64 constant" (bytes 8)))
  | 0x23 => do return .global (← inside "read value" unsigned)
  | 0xd0 => do
    let kind ← inside "read reference type for ref.null" byte
    if kind != 0x70 && kind != 0x6f then
      throw (.plain ("invalid type for ref.null: " ++ hex kind.toNat))
    return .nullReference kind
  | 0xd2 => do return .function (← inside "read value" unsigned)
  | 0xfd => do
    let code ← inside "read vector instruction opcode suffix" byte
    if code != 0x0c then
      throw (.plain ("invalid vector opcode for const expression: " ++ hex code.toNat))
    let part : Bytes := "read vector const instruction immediates"
    let value ← inside part (someBytes 16)
    if value.length != 16 then
      throw (.within part
        (.plain ("needs 16 bytes but was " ++ Bytes.ofNat value.length ++ " bytes")))
    return .v128 (Bytes.littleEndian value)
  | code => throw (.invalidByte (" for const expression opt code: " ++ hex code.toNat))

def constant : Reader Constant := do
  let code ← inside "read opcode" byte
  let c ← constantInstruction code
  let last ← inside "look for end opcode" byte
  if last != 0x0b then throw (.plain "constant expression has been not terminated")
  return c

def item : (kind : ItemKind) → Reader ImportItem
  | .function => do return .function (← unsigned)
  | .table => do return .table (← table)
  | .memory => do return .memory (← memory)
  | .global => do return .global (← globalType)

def importEntry (number : Nat) : Reader Import := do
  let here : Bytes := "import[" ++ Bytes.ofNat number ++ "]"
  let source ← inside (here ++ " error decoding module") (text "import module")
  let name ← inside (here ++ " error decoding name") (text "import name")
  let b ← inside (here ++ " error decoding type") byte
  let part (kind : Bytes) : Bytes := here ++ " " ++ kind ++ "[" ++ source ++ "." ++ name ++ "]"
  match ItemKind.ofByte? b with
  | some kind => return ⟨source, name, ← inside (part kind.name) (item kind)⟩
  | none =>
    throw (.within (part (hex b.toNat))
      (.invalidByte (": invalid byte for importdesc: " ++ hex b.toNat)))

def exportEntry : Reader Export := do
  let name ← text "export name"
  let b ← inside "error decoding export kind" byte
  match ItemKind.ofByte? b with
  | some kind => return ⟨name, kind, ← inside "error decoding export index" unsigned⟩
  | none => throw (.invalidByte (": invalid byte for exportdesc: " ++ hex b.toNat))

/-- The exports from the one with the given number on; no name of those before it may come again. -/
def exportsFrom : (n number : Nat) → (names : List Bytes) → Reader (List Export)
  | 0, _, _ => return []
  | n + 1, number, names => do
    let e ← inside "read export" exportEntry
    if names.contains e.name then
      throw (.plain ("export[" ++ Bytes.ofNat number ++ "] duplicates name " ++ Quoted.text e.name))
    return e :: (← exportsFrom n (number + 1) (e.name :: names))

def functionElements : Reader (List Element) :=
  vector fun _ => do
    let n ← inside "read function index" unsigned
    if functionBound ≤ n then
      throw (.plain ("too large function index in Element init: " ++ Bytes.ofNat n))
    return .function n

/-- The global to which an element refers, by the bytes behind its instruction. They are read as a
signed number, and one bit of it is lost. -/
def elementGlobal (s : Bytes) : Nat :=
  let n := match signed 32 s with
    | .ok (n, _) => n
    | .error _ => 0
  if n.testBit 30 then n - 2 ^ 30 else n

/-- A constant expression as an element of a table for references of one kind. -/
def constantElement (kind : UInt8) : Reader Element := do
  let here ← get
  match ← constant with
  | .function n =>
    if kind != 0x70 then
      throw (.plain ("element type mismatch: want " ++ referenceName kind ++
        ", but constexpr has funcref"))
    if functionBound ≤ n then
      throw (.plain ("too large function index in Element init: " ++ Bytes.ofNat n))
    return .function n
  | .nullReference found =>
    if kind != found then
      throw (.plain ("element type mismatch: want " ++ referenceName kind ++
        ", but constexpr has " ++ referenceName found))
    return .null
  | .global _ => return .global (elementGlobal (here.drop 1))
  | c => throw (.plain ("const expr must be either ref.null or ref.func but was " ++ c.instruction))

def constantElements (kind : UInt8) : Reader (List Element) := do
  let n ← inside "failed to get the size of constexpr vector" unsigned
  repeated (fun _ => constantElement kind) n 0

def functionMark : Reader Unit := do
  let b ← inside "read element prefix" byte
  if b != 0 then throw (.plain ("element kind must be zero but was " ++ hex b.toNat))

def referenceKind : Reader UInt8 := do
  let b ← inside "read element ref type" byte
  if b != 0x70 && b != 0x6f then
    throw (.plain "ref type must be funcref or externref for element as of WebAssembly 2.0")
  return b

/-- A segment for a table. The lowest bit of its form says that it has no target, the next one that
the target or the mode is written, and the third that its elements are constant expressions. -/
def elementSegment : Reader ElementSegment := do
  let form ← inside "read element prefix" unsigned
  if 7 < form then throw (.plain ("invalid element segment prefix: " ++ hex form))
  let active ←
    if form % 2 = 1 then pure none
    else do
      let target ← if form / 2 % 2 = 1 then inside "get size of vector" unsigned else pure 0
      pure (some (target, ← inside "read expr for offset" constant))
  let passive := form % 4 == 1
  if form < 4 then
    if form != 0 then functionMark
    return ⟨0x70, active, passive, ← functionElements⟩
  else
    let kind ← if form = 4 then pure 0x70 else referenceKind
    return ⟨kind, active, passive, ← constantElements kind⟩

/-- The declarations of a function's local variables, and how many bytes they take. -/
def locals (n : Nat) : Reader (List (Nat × ValueType) × Nat) := do
  let before ← left
  let runs ← repeated (fun _ => do
    let count ← inside "read n of locals" unsigned
    let b ← inside "read type of local" byte
    match ValueType.ofByte? b with
    | some t => return (count, t)
    | none => throw (.plain ("invalid local type: " ++ hex b.toNat))) n 0
  return (runs, before - (← left))

def body : Reader Body := do
  let size ← inside "get the size of code" unsigned
  let before ← left
  let n ← inside "get the size locals" unsigned
  let used := before - (← left)
  if size < used then throw .ended
  let (runs, width) ← locals n
  let count := Body.localCount { locals := runs }
  if 2 ^ 32 ≤ count then throw (.plain ("too many locals: " ++ Bytes.ofNat count))
  if size < used + width then throw .ended
  let code ← inside "read body" (bytes (size - used - width))
  if code.getLast? != some 0x0b then throw (.plain "expr not end with OpcodeEnd")
  return ⟨runs, code⟩

def dataSegment : Reader DataSegment := do
  let form ← inside "read data segment prefix" unsigned
  if 2 < form then throw (.plain ("invalid data segment prefix: " ++ hex form))
  if form = 2 then
    let index ← inside "read memory index" unsigned
    if index != 0 then
      throw (.plain ("memory index must be zero but was " ++ Bytes.ofNat index))
  let offset ←
    if form = 1 then pure none else do pure (some (← inside "read offset expression" constant))
  let size ← inside "get the size of vector" unsigned
  return ⟨offset, ← inside "read bytes for init" (bytes size)⟩

def namedFunction (part : Nat) : Reader Nat :=
  inside ("failed to read a function index in subsection[" ++ Bytes.ofNat part ++ "]") unsigned

/-- The number of functions in a part of the section of names. -/
def namedCount (part : Nat) : Reader Nat :=
  inside ("failed to read the function count of subsection[" ++ Bytes.ofNat part ++ "]") unsigned

def functionNames : Reader (List (Nat × Bytes)) := do
  repeated (fun _ => do
    let index ← namedFunction 1
    return (index, ← text ("function[" ++ Bytes.ofNat index ++ "] name"))) (← namedCount 1) 0

/-- The names of local variables, which are not kept. -/
def localNames : Reader Unit := do
  let _ ← repeated (fun _ => do
    let index ← namedFunction 2
    let here : Bytes := "function[" ++ Bytes.ofNat index ++ "]"
    let n ← inside ("failed to read the local count for " ++ here) unsigned
    repeated (fun _ => do
      let variable_ ← inside ("failed to read a local index of " ++ here) unsigned
      text (here ++ " local[" ++ Bytes.ofNat variable_ ++ "] name")) n 0) (← namedCount 2) 0

def namesPart (part size : Nat) (names : Names) : Reader Names :=
  match part with
  | 0 => do return { names with module := ← text "module name" }
  | 1 => do return { names with functions := ← functionNames }
  | 2 => do
    localNames
    return names
  | _ => do
    let here : Bytes := "failed to skip subsection[" ++ Bytes.ofNat part ++ "]"
    if (← left) < size then
      throw (.within here .ended)
    let _ ← bytes size
    return names

/-- The section of names, of which `limit` bytes are announced to be left. Parts count with their
announced sizes, and a size beyond the limit lets the section go on to the end of the file. -/
def namesFrom : (steps : Nat) → (limit : Int) → Names → Reader Names
  | 0, _, names => return names
  | steps + 1, limit, names => do
    if limit = 0 || (← left) = 0 then return names
    let part := (← byte).toNat
    let before ← left
    let size ← inside ("failed to read the size of subsection[" ++ Bytes.ofNat part ++ "]") unsigned
    let width := before - (← left)
    let names ← namesPart part size names
    namesFrom steps (limit - 1 - width - size) names

def sectionNames : List String :=
  ["custom", "type", "import", "function", "table", "memory", "global", "export", "start",
    "element", "code", "data", "data_count"]

def sectionName (number : UInt8) : Bytes := (sectionNames[number.toNat]?).getD "unknown"

/-- A section that the format leaves open; only the one with names is understood. -/
def customSection (size : Nat) (m : Module) : Reader (Except Fault Module) := do
  let before ← left
  let name ← text "custom section name"
  let width := before - (← left)
  if size < width then throw (.plain ("malformed custom section " ++ name))
  if name = Bytes.ofString "name" then
    if m.names.isSome then throw (.plain ("redundant custom section " ++ name))
    let names ← namesFrom ((← left) + 1) (size - width : Nat) {}
    return .ok { m with names := some names }
  else if (← left) = 0 then
    return .error (.within ("failed to read custom section name[" ++ name ++ "]") .ended)
  else
    let _ ← someBytes (size - width)
    return .ok m

/-- Runs a reader whose faults do not name the section. -/
def unnamed {α : Type} (m : Reader α) : Reader (Except Fault α) := fun s =>
  match m s with
  | .ok (a, rest) => .ok (.ok a, rest)
  | .error f => .ok (.error f, s)

/-- The announced number of segments; a file that ends before the number does announces none. -/
def dataCount : Reader Nat := fun s =>
  match unsigned s with
  | .error .ended => .ok (0, [])
  | r => r

/-- The order of the sections by their numbers, those apart that the format leaves open. -/
def sectionOrder : List UInt8 := [1, 2, 3, 4, 5, 6, 7, 8, 9, 12, 10, 11]

/-- A section stands where it may not stand, or is none of the format. -/
def outOfOrder : Fault := .plain "invalid section order"

/-- The contents of a section, added to a module. A fault inside the result does not name the
section. -/
def sectionContents (number : UInt8) (size : Nat) (m : Module) : Reader (Except Fault Module) :=
  match number with
  | 0 => customSection size m
  | 1 => do
    let types ← vector fun i => inside ("read " ++ Bytes.ofNat i ++ "-th type") functionType
    return .ok { m with types }
  | 2 => unnamed do return { m with imports := ← vector importEntry }
  | 3 => do
    return .ok { m with functions := ← vector fun _ => inside "get type index" unsigned }
  | 4 => do
    match ← unnamed unsigned with
    | .error _ => throw (.plain "error reading size")
    | .ok n => return .ok { m with tables := ← repeated (fun _ => table) n 0 }
  | 5 => do
    match ← unnamed unsigned with
    | .error _ => throw (.plain "error reading size")
    | .ok 0 => return .ok { m with memory := none }
    | .ok 1 => return .ok { m with memory := some (← memory) }
    | .ok n =>
      throw (.plain ("at most one memory allowed in module, but read " ++ Bytes.ofNat n))
  | 6 => unnamed do
    return { m with
      globals := ← vector fun i => inside ("global[" ++ Bytes.ofNat i ++ "]") do
        return (← globalType, ← constant) }
  | 7 => do
    let n ← inside "get size of vector" unsigned
    return .ok { m with exports := ← exportsFrom n 0 [] }
  | 8 => do
    return .ok { m with start := some (← inside "get function index" unsigned) }
  | 9 => do
    return .ok { m with elements := ← vector fun _ => inside "read element" elementSegment }
  | 10 => do
    let bodies ← vector fun i => inside ("read " ++ Bytes.ofNat i ++ "-th code segment") body
    return .ok { m with bodies }
  | 11 => do
    return .ok { m with data := ← vector fun _ => inside "read data segment" dataSegment }
  | 12 => do return .ok { m with dataCount := some (← dataCount) }
  | _ => return .error outOfOrder

/-- The contents of a section, which must have the announced size. -/
def sizedContents (number : UInt8) (size : Nat) (m : Module) : Reader (Except Fault Module) := do
  let before ← left
  let found ← sectionContents number size m
  let width := before - (← left)
  if found.isOk && width != size then
    throw (.plain ("invalid section length: expected to be " ++ Bytes.ofNat size ++
      " but got " ++ Bytes.ofNat width))
  return found

/-- The sections that may follow a section, those apart that the format leaves open. -/
def allowedAfter (number : UInt8) (allowed : List UInt8) : Option (List UInt8) :=
  if number = 0 then some allowed
  else match allowed.dropWhile (· != number) with
    | [] => none
    | _ :: later => some later

/-- A section with its number and its size, and the sections that may follow it. -/
def sectionEntry (m : Module) (allowed : List UInt8) : Reader (Module × List UInt8) := do
  let number ← byte
  let name := sectionName number
  let size ← inside ("get size of section " ++ name) unsigned
  match allowedAfter number allowed with
  | none => throw outOfOrder
  | some allowed =>
    match ← inside ("section " ++ name) (sizedContents number size m) with
    | .ok m => return (m, allowed)
    | .error f => throw f

def sections : (steps : Nat) → Module → (allowed : List UInt8) → Reader Module
  | 0, m, _ => return m
  | steps + 1, m, allowed => do
    if (← left) = 0 then return m
    let (m, allowed) ← sectionEntry m allowed
    sections steps m allowed

def magic : Bytes := [0x00, 0x61, 0x73, 0x6d]

def version : Bytes := [0x01, 0x00, 0x00, 0x00]

def decode (data : Bytes) : Except Fault Module := do
  if data.take 4 ≠ magic then throw (.plain "invalid magic number")
  if (data.drop 4).take 4 ≠ version then throw (.plain "invalid version header")
  let (m, _) ← (sections data.length {} sectionOrder).run (data.drop 8)
  if m.functions.length ≠ m.bodies.length then
    throw (.plain ("function and code section have inconsistent lengths: " ++
      Bytes.ofNat m.functions.length ++ " != " ++ Bytes.ofNat m.bodies.length))
  return m

end EngineHost.Wasm.Binary
