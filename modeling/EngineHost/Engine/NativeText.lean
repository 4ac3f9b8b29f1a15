import EngineHost.Engine.World
import EngineHost.Text.Utf8

/-!
# Native texts

Texts in engine memory. Decoding never fails: what is not readable is empty, and what is not
well-formed is repaired.
-/

namespace EngineHost

variable {σ : Type}

namespace Boundary

def readTextM (b : Boundary σ) (p : Ptr) : HostM σ (Option Bytes) :=
  World.call (b.readText p) fun _ => .readText p

def freeTextM (b : Boundary σ) (p : Ptr) : HostM σ Unit :=
  World.call (b.freeText p) fun _ => .freeText p

/-- The decoded text at an address; there is none at address zero, and nothing is read there. -/
def decodeText (b : Boundary σ) (p : Ptr) : HostM σ Bytes := do
  if p = 0 then return []
  match ← b.readTextM p with
  | none => return []
  | some data => return Utf8.repair data

end Boundary

/-- A native text that the host owns until it releases it. It is decoded when it is first asked
for, and the decoded text is kept. -/
structure NativeText where
  ptr : Ptr
  decoded : Option Bytes := none
deriving DecidableEq, Repr, Inhabited

namespace NativeText

def hasValue (t : NativeText) : Bool := t.ptr != 0

def text (t : NativeText) (b : Boundary σ) : HostM σ (Bytes × NativeText) := do
  match t.decoded with
  | some s => return (s, t)
  | none =>
    let s ← b.decodeText t.ptr
    return (s, { t with decoded := some s })

def release (t : NativeText) (b : Boundary σ) : HostM σ NativeText := do
  if t.ptr = 0 then return t
  b.freeTextM t.ptr
  return { t with ptr := 0 }

end NativeText

end EngineHost
