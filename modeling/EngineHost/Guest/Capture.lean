import EngineHost.Text.Blank

/-!
# Captured error output

What a guest prints to its error output during a call is kept up to a limit, because it explains a
trap that follows.
-/

namespace EngineHost.Guest

/-- The first bytes of an output, up to a limit. -/
structure Capture where
  limit : Nat
  text : Bytes := []
  /-- Whether anything was dropped. -/
  truncated : Bool := false
deriving DecidableEq, Repr, Inhabited

namespace Capture

/-- Appends what still fits. All bytes count as written, so that no guest sees a short write. -/
def write (c : Capture) (data : Bytes) : Nat × Capture :=
  let room := c.limit - c.text.length
  (data.length,
    { c with
      text := c.text ++ data.take room
      truncated := c.truncated || room < data.length })

def reset (c : Capture) : Capture := { c with text := [], truncated := false }

/-- A trap's text followed by what the guest printed, if that is more than white space. -/
def explain (trap : Bytes) (c : Capture) : Bytes :=
  let printed := Bytes.trim c.text
  if printed.isEmpty then trap
  else trap ++ ": " ++ printed ++ if c.truncated then "..." else ""

end Capture

end EngineHost.Guest
