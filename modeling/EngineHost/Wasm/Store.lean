import EngineHost.Wasm.Value
import Std.Data.HashMap

/-!
# The store of an instance

What the functions of an instance share: its memory, its globals, its tables and the segments that
have not been dropped. Bytes that were never written are zero, and places that were never filled refer
to nothing.
-/

namespace EngineHost.Wasm

def pageWidth : Nat := 65536

structure LinearMemory where
  /-- Its size in pages. -/
  pages : Nat
  /-- The greatest size in pages. -/
  most : Nat
  /-- The bytes that have been written, by their addresses. -/
  written : Std.HashMap Nat UInt8 := {}

namespace LinearMemory

def size (m : LinearMemory) : Nat := m.pages * pageWidth

/-- The memory whose bytes are given; its size stays. -/
def ofBytes (m : LinearMemory) (data : Bytes) : LinearMemory :=
  { m with
    written := data.zipIdx.foldl
      (fun written (b, i) => if b = 0 then written else written.insert i b) {} }

def byteAt (m : LinearMemory) (address : Nat) : UInt8 := (m.written[address]?).getD 0

/-- The bytes of a range that lies inside the memory. -/
def read? (m : LinearMemory) (address count : Nat) : Option Bytes :=
  if address + count ≤ m.size then some ((List.range count).map fun i => m.byteAt (address + i))
  else none

def toBytes (m : LinearMemory) : Bytes := (List.range m.size).map m.byteAt

def replaced (m : LinearMemory) (address : Nat) (data : Bytes) : LinearMemory :=
  { m with
    written := data.zipIdx.foldl (fun written (b, i) => written.insert (address + i) b) m.written }

/-- The memory with a range replaced that lies inside it. -/
def write? (m : LinearMemory) (address : Nat) (data : Bytes) : Option LinearMemory :=
  if address + data.length ≤ m.size then some (m.replaced address data) else none

def grow? (m : LinearMemory) (pages : Nat) : Option LinearMemory :=
  if m.pages + pages ≤ m.most then some { m with pages := m.pages + pages } else none

end LinearMemory

structure References where
  size : Nat
  most : Option Nat
  /-- The functions to which places refer. -/
  filled : Std.HashMap Nat Nat := {}

namespace References

def get? (t : References) (place : Nat) : Option (Option Nat) :=
  if place < t.size then some t.filled[place]? else none

/-- The references of a range that lies inside the table. -/
def read? (t : References) (place count : Nat) : Option (List (Option Nat)) :=
  if place + count ≤ t.size then some ((List.range count).map fun i => t.filled[place + i]?)
  else none

def put (t : References) (place : Nat) : Option Nat → References
  | some f => { t with filled := t.filled.insert place f }
  | none => { t with filled := t.filled.erase place }

/-- The table with a range replaced that lies inside it. -/
def write? (t : References) (place : Nat) (refs : List (Option Nat)) : Option References :=
  if place + refs.length ≤ t.size then
    some (refs.zipIdx.foldl (fun t (r, i) => t.put (place + i) r) t)
  else none

/-- The table with more places, all of which hold one reference. -/
def grow? (t : References) (count : Nat) (r : Option Nat) : Option References :=
  let size := t.size + count
  if count = 0 then some t
  else if 2 ^ 32 - 1 ≤ size || t.most.any (· < size) then none
  else if r.isNone then some { t with size }
  else { t with size }.write? t.size (List.replicate count r)

end References

structure Store where
  memory : Option LinearMemory := none
  globals : List Value := []
  tables : List References := []
  /-- The segments for the memory. -/
  data : List Bytes := []
  /-- The segments for tables. -/
  elements : List (List (Option Nat)) := []

namespace Store

/-- The value of a constant expression, with the globals before it. -/
def constantValue (globals : List Value) : Constant → Value
  | .i32 n => .ofBits .i32 n
  | .i64 n => .ofBits .i64 n
  | .f32 n => .ofBits .f32 n
  | .f64 n => .ofBits .f64 n
  | .v128 n => .ofBits .v128 n
  | .global n => globals.getD n default
  | .nullReference _ => .reference none
  | .function f => .reference (some f)

def references (globals : List Value) (s : ElementSegment) : List (Option Nat) :=
  s.items.map fun
    | .null => none
    | .function f => some f
    | .global n => (globals.getD n default).function?

/-- Fills the tables from the active segments up to the first that does not fit. Nothing in a segment
leaves what is already there. -/
def fillTables (globals : List Value) : List ElementSegment → List References → List References
  | [], tables => tables
  | s :: segments, tables =>
    match s.active with
    | none => fillTables globals segments tables
    | some (target, offset) =>
      let place := (constantValue globals offset).word.toNat
      let refs := references globals s
      let t := tables.getD target ⟨0, none, {}⟩
      if refs.isEmpty then fillTables globals segments tables
      else if t.size < place + refs.length then tables
      else
        let t := refs.zipIdx.foldl (fun t (r, i) => if r.isSome then t.put (place + i) r else t) t
        fillTables globals segments (tables.set target t)

def fillMemory (globals : List Value) (segments : List DataSegment) (m : LinearMemory) :
    LinearMemory :=
  segments.foldl (fun m s => match s.offset with
    | some c => m.replaced (constantValue globals c).word.toNat s.data
    | none => m) m

/-- The store of a fresh instance of a module that imports nothing but functions. -/
def ofModule (m : Module) : Store :=
  let globals := m.globals.foldl (fun vs (_, c) => vs ++ [constantValue vs c]) []
  { memory := m.memory.map fun t => fillMemory globals m.data { pages := t.least, most := t.most }
    globals
    tables := fillTables globals m.elements (m.tables.map fun t => ⟨t.least, t.most, {}⟩)
    data := m.data.map (·.data)
    elements := m.elements.map fun s =>
      if s.passive && s.kind = 0x70 then references globals s else [] }

end Store

end EngineHost.Wasm
