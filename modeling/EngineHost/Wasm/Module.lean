import EngineHost.Text.Quoted

/-!
# Modules

A module as its file describes it: types, imports, functions, tables, a memory, globals, exports and
segments. Functions are given by their types and bodies, whose instructions are kept as bytes.
-/

namespace EngineHost.Wasm

inductive ValueType
  | i32 | i64 | f32 | f64 | v128 | funcref | externref
deriving DecidableEq, Inhabited, Repr

namespace ValueType

def code : ValueType → UInt8
  | i32 => 0x7f
  | i64 => 0x7e
  | f32 => 0x7d
  | f64 => 0x7c
  | v128 => 0x7b
  | funcref => 0x70
  | externref => 0x6f

def all : List ValueType := [i32, i64, f32, f64, v128, funcref, externref]

def ofByte? (b : UInt8) : Option ValueType := all.find? (·.code == b)

def name : ValueType → Bytes
  | i32 => "i32"
  | i64 => "i64"
  | f32 => "f32"
  | f64 => "f64"
  | v128 => "v128"
  | funcref => "funcref"
  | externref => "externref"

/-- The name of a type in a stack trace, which knows no vectors and no references to functions. -/
def traceName (t : ValueType) : Bytes := if t = v128 || t = funcref then "unknown" else t.name

/-- The number of words that a value takes when it is passed. -/
def words (t : ValueType) : Nat := if t = v128 then 2 else 1

end ValueType

structure FunctionType where
  params : List ValueType := []
  results : List ValueType := []
deriving DecidableEq, Inhabited, Repr

namespace FunctionType

def text (t : FunctionType) : Bytes :=
  let names (types : List ValueType) : Bytes :=
    if types.isEmpty then "v" else types.flatMap ValueType.name
  names t.params ++ "_" ++ names t.results

def signature (t : FunctionType) : Bytes :=
  let names (types : List ValueType) : Bytes := Bytes.join "," (types.map ValueType.traceName)
  "(" ++ names t.params ++ ")" ++ match t.results with
    | [] => ([] : Bytes)
    | [r] => " " ++ r.traceName
    | rs => " (" ++ names rs ++ ")"

def paramWords (t : FunctionType) : Nat := (t.params.map ValueType.words).sum

end FunctionType

def referenceName (kind : UInt8) : Bytes :=
  if kind = 0x70 then "funcref" else if kind = 0x6f then "externref"
  else "unknown(0x" ++ Bytes.ofHex kind.toNat ++ ")"

/-- A table: the kind of its references and the bounds of its size. -/
structure Table where
  kind : UInt8
  least : Nat
  most : Option Nat
deriving DecidableEq, Inhabited, Repr

structure MemoryType where
  least : Nat
  most : Nat
deriving DecidableEq, Inhabited, Repr

structure GlobalType where
  type : ValueType
  mutable : Bool
deriving DecidableEq, Inhabited, Repr

inductive Constant
  | i32 (bits : Nat)
  | i64 (bits : Nat)
  | f32 (bits : Nat)
  | f64 (bits : Nat)
  | v128 (bits : Nat)
  /-- The value of a global. -/
  | global (index : Nat)
  | nullReference (kind : UInt8)
  | function (index : Nat)
deriving DecidableEq, Inhabited, Repr

/-- The name of the instruction of a constant expression. A vector goes by the instruction whose code is
the byte behind the one that vectors begin with. -/
def Constant.instruction : Constant → Bytes
  | i32 _ => "i32.const"
  | i64 _ => "i64.const"
  | f32 _ => "f32.const"
  | f64 _ => "f64.const"
  | v128 _ => "br"
  | global _ => "global.get"
  | nullReference _ => "ref.null"
  | function _ => "ref.func"

inductive ImportItem
  | function (type : Nat)
  | table (t : Table)
  | memory (m : MemoryType)
  | global (g : GlobalType)
deriving DecidableEq, Repr

inductive ItemKind
  | function | table | memory | global
deriving DecidableEq, Inhabited, Repr

namespace ItemKind

def ofByte? (b : UInt8) : Option ItemKind :=
  if b = 0 then some function else if b = 1 then some table
  else if b = 2 then some memory else if b = 3 then some global else none

def name : ItemKind → Bytes
  | function => "func"
  | table => "table"
  | memory => "memory"
  | global => "global"

end ItemKind

def ImportItem.kind : ImportItem → ItemKind
  | function _ => .function
  | table _ => .table
  | memory _ => .memory
  | global _ => .global

structure Import where
  source : Bytes
  name : Bytes
  item : ImportItem
deriving DecidableEq, Repr

structure Export where
  name : Bytes
  kind : ItemKind
  index : Nat
deriving DecidableEq, Repr

inductive Element
  | null
  | function (index : Nat)
  | global (index : Nat)
deriving DecidableEq, Repr

/-- The number that stands for an element among the indices of functions; a global is marked by a
bit that no index of a function has. -/
def Element.number? : Element → Option Nat
  | null => none
  | function index => some index
  | global index => some (index + 2 ^ 30)

/-- A segment for a table. An active one has a target and an offset; of the others, only the passive
ones can be copied later. -/
structure ElementSegment where
  kind : UInt8
  active : Option (Nat × Constant)
  passive : Bool
  items : List Element
deriving DecidableEq, Repr

/-- A segment for the memory; an active one has an offset. -/
structure DataSegment where
  offset : Option Constant
  data : Bytes
deriving DecidableEq, Repr

structure Body where
  /-- The local variables behind the parameters, in runs of one type. -/
  locals : List (Nat × ValueType) := []
  /-- The instructions. -/
  code : Bytes := []
deriving DecidableEq, Inhabited, Repr

namespace Body

def localCount (b : Body) : Nat := (b.locals.map (·.1)).sum

/-- The type at a place in runs of types. -/
def typeAt? : (runs : List (Nat × ValueType)) → (place : Nat) → Option ValueType
  | [], _ => none
  | (n, t) :: runs, place => if place < n then some t else typeAt? runs (place - n)

end Body

structure Names where
  module : Bytes := []
  functions : List (Nat × Bytes) := []
deriving DecidableEq, Inhabited, Repr

/-- The name of a function. Names are expected in the order of the functions, so that an entry of a
later function hides what stands behind it. -/
def Names.function? (n : Names) (function : Nat) : Option Bytes :=
  match n.functions.find? fun e => function ≤ e.1 with
  | some (index, name) => if index = function then some name else none
  | none => none

structure Module where
  types : List FunctionType := []
  imports : List Import := []
  /-- The types of the module's own functions. -/
  functions : List Nat := []
  tables : List Table := []
  memory : Option MemoryType := none
  globals : List (GlobalType × Constant) := []
  exports : List Export := []
  start : Option Nat := none
  elements : List ElementSegment := []
  bodies : List Body := []
  data : List DataSegment := []
  /-- The announced number of segments for the memory. -/
  dataCount : Option Nat := none
  names : Option Names := none
deriving Inhabited, Repr

namespace Module

def importedFunctions (m : Module) : List Nat := m.imports.filterMap fun i =>
  match i.item with
  | .function type => some type
  | _ => none

def importedGlobals (m : Module) : List GlobalType := m.imports.filterMap fun i =>
  match i.item with
  | .global g => some g
  | _ => none

/-- All tables, the imported ones first. -/
def allTables (m : Module) : List Table :=
  (m.imports.filterMap fun i => match i.item with
    | .table t => some t
    | _ => none) ++ m.tables

def importedMemory? (m : Module) : Option MemoryType :=
  (m.imports.filterMap fun i => match i.item with
    | .memory t => some t
    | _ => none).getLast?

/-- The memory, imported or the module's own. -/
def memory? (m : Module) : Option MemoryType := m.memory.or m.importedMemory?

/-- The types of all functions, the imported ones first. -/
def allFunctions (m : Module) : List Nat := m.importedFunctions ++ m.functions

/-- The types of all globals, the imported ones first. -/
def allGlobals (m : Module) : List GlobalType := m.importedGlobals ++ m.globals.map (·.1)

def typeOf? (m : Module) (function : Nat) : Option FunctionType :=
  (m.allFunctions[function]?).bind fun t => m.types[t]?

/-- The functions to which references may be made: those that are exported, that globals start with
and that stand in segments. -/
def declared (m : Module) : List Nat :=
  ((m.exports.filter (·.kind == .function)).map (·.index)) ++
    (m.globals.filterMap fun (_, c) => match c with
      | .function index => some index
      | _ => none) ++
    m.elements.flatMap fun s => s.items.filterMap Element.number?

/-- The type of a block by its number: none, one result of a value type, or one of the module's
types. -/
def blockType? (m : Module) (n : Int) : Option FunctionType :=
  if 0 ≤ n then m.types[n.toNat]?
  else if n = -64 then some {}
  else if -128 ≤ n then
    (ValueType.ofByte? (128 + n).toNat.toUInt8).map fun t => { results := [t] }
  else none

def exported? (m : Module) (name : Bytes) : Option Nat :=
  (m.exports.find? fun e => e.name == name && e.kind == .function).map (·.index)

/-- The description of one of the module's own functions, with the names under which it is
exported. -/
def describe (m : Module) (own : Nat) : Bytes :=
  let index := own + m.importedFunctions.length
  let names := (m.exports.filter fun e => e.index == index && e.kind == .function).map fun e =>
    Quoted.text e.name
  let sorted := names.mergeSort fun a b => !Bytes.less b a
  "function[" ++ Bytes.ofNat own ++ "]" ++
    if names.isEmpty then ([] : Bytes) else " export[" ++ Bytes.join "," sorted ++ "]"

def traceName (m : Module) (function : Nat) : Bytes :=
  let names := m.names.getD {}
  let name : Bytes := match names.function? function with
    | some name => if name.isEmpty then "$" ++ Bytes.ofNat function else name
    | none => "$" ++ Bytes.ofNat function
  names.module ++ "." ++ name ++ ((m.typeOf? function).getD {}).signature

end Module

end EngineHost.Wasm
