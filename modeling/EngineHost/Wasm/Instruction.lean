import EngineHost.Wasm.Operation

/-!
# Families of instructions

Most instructions fall into families that differ only in names, types and sizes. Each family is a
table in the order of the codes of its members.
-/

namespace EngineHost.Wasm

/-- The entry of a code in a table whose first entry belongs to the code `first`. -/
def tableEntry? {α : Type} (table : List α) (first : Nat) (code : UInt8) : Option α :=
  if first ≤ code.toNat then table[code.toNat - first]? else none

inductive AccessMode
  | load
  /-- Loads a number whose highest bit is its sign. -/
  | loadSigned
  | store
deriving DecidableEq, Repr

/-- An instruction that moves a value between the stack and the memory. -/
structure Access where
  name : Bytes
  type : ValueType
  /-- How many bytes of the memory it touches. -/
  width : Nat
  mode : AccessMode
deriving DecidableEq, Repr

namespace Access

def firstCode : Nat := 0x28

/-- The instructions that move values between the stack and the memory, in the order of their
codes. -/
def all : List Access :=
  [⟨"i32.load", .i32, 4, .load⟩, ⟨"i64.load", .i64, 8, .load⟩, ⟨"f32.load", .f32, 4, .load⟩,
   ⟨"f64.load", .f64, 8, .load⟩, ⟨"i32.load8_s", .i32, 1, .loadSigned⟩,
   ⟨"i32.load8_u", .i32, 1, .load⟩, ⟨"i32.load16_s", .i32, 2, .loadSigned⟩,
   ⟨"i32.load16_u", .i32, 2, .load⟩, ⟨"i64.load8_s", .i64, 1, .loadSigned⟩,
   ⟨"i64.load8_u", .i64, 1, .load⟩, ⟨"i64.load16_s", .i64, 2, .loadSigned⟩,
   ⟨"i64.load16_u", .i64, 2, .load⟩, ⟨"i64.load32_s", .i64, 4, .loadSigned⟩,
   ⟨"i64.load32_u", .i64, 4, .load⟩, ⟨"i32.store", .i32, 4, .store⟩,
   ⟨"i64.store", .i64, 8, .store⟩, ⟨"f32.store", .f32, 4, .store⟩, ⟨"f64.store", .f64, 8, .store⟩,
   ⟨"i32.store8", .i32, 1, .store⟩, ⟨"i32.store16", .i32, 2, .store⟩,
   ⟨"i64.store8", .i64, 1, .store⟩, ⟨"i64.store16", .i64, 2, .store⟩,
   ⟨"i64.store32", .i64, 4, .store⟩]

end Access

/-- The names of the instructions for shared memories in the order of the bytes behind their code. -/
def atomicNames : List Bytes :=
  ["memory.atomic.notify", "memory.atomic.wait32", "memory.atomic.wait64", "atomic.fence"].map
    Bytes.ofString ++
  List.replicate 12 [] ++
  ["i32.atomic.load", "i64.atomic.load", "i32.atomic.load8_u", "i32.atomic.load16_u",
   "i64.atomic.load8_u", "i64.atomic.load16_u", "i64.atomic.load32_u", "i32.atomic.store",
   "i64.atomic.store", "i32.atomic.store8", "i32.atomic.store16", "i64.atomic.store8",
   "i64.atomic.store16", "i64.atomic.store32"].map Bytes.ofString ++
  ["add", "sub", "and", "or", "xor", "xchg", "cmpxchg"].flatMap fun name =>
    [("i32.atomic.rmw.", ""), ("i64.atomic.rmw.", ""), ("i32.atomic.rmw8.", "_u"),
      ("i32.atomic.rmw16.", "_u"), ("i64.atomic.rmw8.", "_u"), ("i64.atomic.rmw16.", "_u"),
      ("i64.atomic.rmw32.", "_u")].map fun (start, last) => Bytes.ofString (start ++ name ++ last)

end EngineHost.Wasm
