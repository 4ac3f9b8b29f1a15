import EngineHost.Number.Layout
import EngineHost.Time.Instant
import EngineHost.Value.Dict

/-!
# Dynamic values

Parameters, error details and configuration values are dynamically typed. Integers keep the width
class they were read with, because it decides how they are converted and compared.
-/

namespace EngineHost

inductive Value
  /-- An integer of the default width. -/
  | int (n : Int64)
  /-- An integer that was read as signed 64-bit. -/
  | int64 (n : Int64)
  /-- An integer that was read as unsigned 64-bit. -/
  | uint64 (n : UInt64)
  | float (x : Binary64)
  | string (s : Bytes)
  | bool (b : Bool)
  | null
  | list (items : List Value)
  /-- A mapping whose keys are texts. -/
  | map (entries : List (Bytes × Value))
  /-- A mapping that was not given: it has no entries, and it equals null. -/
  | noMap
  /-- A mapping with a key that is not a text, in the order of the keys. -/
  | mixed (entries : List (Value × Value))
  | time (t : Instant)
deriving Inhabited, Repr

abbrev Params := Dict Value

namespace Value

mutual

/-- The text in which a value is displayed: texts as they are, lists in brackets, mappings as
`map[key:value …]` in key order. -/
def display : Value → Bytes
  | int n => Bytes.ofInt n.toInt
  | int64 n => Bytes.ofInt n.toInt
  | uint64 n => Bytes.ofNat n.toNat
  | float x => Layout.general x
  | string s => s
  | bool b => if b then "true" else "false"
  | null => "<nil>"
  | list items => "[" ++ Bytes.join " " (displayItems items) ++ "]"
  | map entries => "map[" ++ Bytes.join " " (displayEntries entries) ++ "]"
  | noMap => "map[]"
  | mixed entries => "map[" ++ Bytes.join " " (displayMixed entries) ++ "]"
  | time t => t.display

def displayItems : List Value → List Bytes
  | [] => []
  | v :: rest => display v :: displayItems rest

def displayEntries : List (Bytes × Value) → List Bytes
  | [] => []
  | (k, v) :: rest => (k ++ ":" ++ display v) :: displayEntries rest

/-- The texts of the entries of a mapping with keys of any type. -/
def displayMixed : List (Value × Value) → List Bytes
  | [] => []
  | (k, v) :: rest => (display k ++ ":" ++ display v) :: displayMixed rest

end

end Value

end EngineHost
