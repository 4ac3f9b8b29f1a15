import EngineHost.Guest.Memory
import EngineHost.Log.Forward

/-!
# Log lines in guest memory

A guest announces a log line by one 64-bit word, the address in the upper and the length in the
lower half. The host reads the line if it is short enough and lies inside the memory.
-/

namespace EngineHost.Guest

/-- Packs an address and a length into one word. -/
def packRange (addr length : UInt32) : UInt64 := (addr.toUInt64 <<< 32) ||| length.toUInt64

def unpackRange (word : UInt64) : UInt32 × UInt32 :=
  ((word >>> 32).toUInt32, (word &&& 0xffffffff).toUInt32)

def wordAttr (key : String) (n : UInt32) : Log.Attr := ⟨Bytes.ofString key, .uint64 n.toUInt64⟩

/-- The record of a log line that a guest announced, or of the reason why it was not read. The memory
is given by what it holds in a range. -/
def logLineFrom (maxSize : UInt32) (read? : Option (UInt32 → Nat → Option Bytes)) (word : UInt64) :
    Log.Record :=
  let (addr, length) := unpackRange word
  if maxSize < length then
    ⟨.error, "wazero: guest log line too large", [wordAttr "size" length, wordAttr "max" maxSize]⟩
  else match read? with
    | none => ⟨.error, "wazero: guest log line from a module without memory", []⟩
    | some read? =>
      match read? addr length.toNat with
      | none => ⟨.error, "wazero: failed to read guest log line",
          [wordAttr "ptr" addr, wordAttr "len" length]⟩
      | some payload => Log.forward payload

def logLine (maxSize : UInt32) (memory : Option Memory) (word : UInt64) : Log.Record :=
  logLineFrom maxSize (memory.map Memory.read?) word

end EngineHost.Guest
