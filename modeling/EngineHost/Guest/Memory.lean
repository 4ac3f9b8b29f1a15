import EngineHost.Engine.Record
import EngineHost.Text.Bytes

/-!
# Guest memory

The linear memory of a guest module: a sequence of bytes addressed by 32-bit numbers. Ranges are
compared without wrapping around, so an access that reaches past the end is refused whole. Most of a
memory is never touched, so its bytes are kept up to the last one that was written.
-/

namespace EngineHost.Guest

def pageSize : Nat := 65536

structure Memory where
  front : Bytes
  /-- How many bytes there are behind the front, each of them `byte`. -/
  rest : Nat := 0
  byte : UInt8 := 0
deriving DecidableEq, Inhabited

namespace Memory

def bytes (m : Memory) : Bytes := m.front ++ List.replicate m.rest m.byte

def ofBytes (data : Bytes) : Memory := { front := data }

/-- A memory of whole pages with one byte everywhere. -/
def filled (pages : Nat) (byte : UInt8) : Memory := ⟨[], pages * pageSize, byte⟩

def length (m : Memory) : Nat := m.front.length + m.rest

/-- The size as the guest interface reports it, a 32-bit number. -/
def size (m : Memory) : UInt32 := UInt32.ofNat m.length

/-- Whether `count` bytes at an address lie inside the memory. -/
def holds (m : Memory) (addr : UInt32) (count : Nat) : Bool := addr.toNat + count ≤ m.length

def read? (m : Memory) (addr : UInt32) (count : Nat) : Option Bytes :=
  if m.holds addr count then
    some ((m.front.drop addr.toNat).take count ++
      List.replicate (count - (m.front.length - addr.toNat)) m.byte)
  else none

/-- The memory with a range replaced. The front grows up to the range. -/
def write? (m : Memory) (addr : UInt32) (data : Bytes) : Option Memory :=
  if m.holds addr data.length then
    let before := m.front.take addr.toNat ++ List.replicate (addr.toNat - m.front.length) m.byte
    some
      { m with
        front := before ++ data ++ m.front.drop (addr.toNat + data.length)
        rest := m.rest - (addr.toNat + data.length - m.front.length) }
  else none

/-- The memory after a write that is ignored when it does not fit. -/
def store (m : Memory) (addr : UInt32) (data : Bytes) : Memory := (m.write? addr data).getD m

def readNat? (m : Memory) (addr : UInt32) (count : Nat) : Option Nat :=
  (m.read? addr count).map Bytes.littleEndian

def readWord? (m : Memory) (addr : UInt32) : Option UInt32 := (m.readNat? addr 4).map UInt32.ofNat

/-- The text at an address, up to its terminating zero byte. -/
def readText? (m : Memory) (addr : UInt32) : Option Bytes :=
  if addr = 0 ∨ m.size ≤ addr then none
  else
    (m.read? addr (m.size - addr).toNat).bind fun view =>
      if view.any (· == 0) then some (view.takeWhile (· != 0)) else none

def recordSize : Nat := 28

/-- The evaluation record at an address: iterations, seconds, then three 32-bit addresses. -/
def readRecord? (m : Memory) (addr : UInt32) : Option Record :=
  if addr = 0 ∨ m.size.toNat < addr.toNat + recordSize then none
  else do
    let iterations ← m.readNat? addr 8
    let seconds ← m.readNat? (addr + 8) 8
    let result ← m.readNat? (addr + 16) 4
    let memDump ← m.readNat? (addr + 20) 4
    let deallocator ← m.readNat? (addr + 24) 4
    return ⟨UInt64.ofNat iterations, ⟨UInt64.ofNat seconds⟩, UInt64.ofNat result,
      UInt64.ofNat memDump, UInt64.ofNat deallocator⟩

end Memory

end EngineHost.Guest
