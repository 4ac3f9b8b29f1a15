import EngineHost.Value.Basic

/-!
# Values inside templates

A template works on values of known types, and on places that may hold any value: the entries of
mappings and the items of lists. The difference shows in messages, which name the type of a place
and not that of what it holds.
-/

namespace EngineHost.Template

inductive Datum
  | int (n : Int64)
  | int64 (n : Int64)
  | uint64 (n : UInt64)
  | byte (n : UInt8)
  | float (x : Binary64)
  | complex (re im : Binary64)
  | string (s : Bytes)
  | bool (b : Bool)
  /-- A list, and the items that follow it in the list that it is a part of. -/
  | list (items : List Value) (beyond : List Value)
  | map (entries : Params)
  /-- A mapping that was not given. -/
  | noMap
  | mixed (entries : List (Value × Value))
  | time (t : Instant)
deriving Inhabited, Repr

namespace Datum

/-- What a dynamic value is; nothing for null. -/
def ofValue? : Value → Option Datum
  | .int n => some (int n)
  | .int64 n => some (int64 n)
  | .uint64 n => some (uint64 n)
  | .float x => some (float x)
  | .string s => some (string s)
  | .bool b => some (bool b)
  | .null => none
  | .list items => some (list items [])
  | .map entries => some (map entries)
  | .noMap => some noMap
  | .mixed entries => some (mixed entries)
  | .time t => some (time t)

/-- The name of the type of places that hold any value. -/
def anyName : Bytes := "interface \x7b\x7d"

def typeName : Datum → Bytes
  | int _ => "int"
  | int64 _ => "int64"
  | uint64 _ => "uint64"
  | byte _ => "uint8"
  | float _ => "float64"
  | complex _ _ => "complex128"
  | string _ => "string"
  | bool _ => "bool"
  | list _ _ => "[]" ++ anyName
  | map _ | noMap => "map[string]" ++ anyName
  | mixed _ => "map[" ++ anyName ++ "]" ++ anyName
  | time _ => "time.Time"

/-- The number of items, entries or bytes of a value that has a length. -/
def length? : Datum → Option Nat
  | string s => some s.length
  | list items _ => some items.length
  | map entries => some entries.length
  | noMap => some 0
  | mixed entries => some entries.length
  | _ => none

/-- Whether a value counts as true: anything but a zero, an empty text or an empty collection. -/
def isTrue : Datum → Bool
  | int n => n != 0
  | int64 n => n != 0
  | uint64 n => n != 0
  | byte n => n != 0
  | float x => !x.isZero
  | complex re im => !(re.isZero && im.isZero)
  | bool b => b
  | time _ => true
  | d => (d.length?).getD 0 != 0

end Datum

/-- The outcome of an expression. -/
inductive Cell
  /-- No value at all, as of a missing argument or of a null that was looked into. -/
  | absent
  /-- A place that may hold any value. -/
  | place (v : Value)
  | datum (d : Datum)
deriving Inhabited, Repr

namespace Cell

def inside : Cell → Cell
  | place v => match Datum.ofValue? v with
    | some d => datum d
    | none => absent
  | c => c

/-- The value, once places are looked into. -/
def value? (c : Cell) : Option Datum :=
  match c.inside with
  | datum d => some d
  | _ => none

def isTrue (c : Cell) : Bool := (c.value?.map Datum.isTrue).getD false

def typeName : Cell → Bytes
  | absent => "nil"
  | place _ => Datum.anyName
  | datum d => d.typeName

end Cell

end EngineHost.Template
