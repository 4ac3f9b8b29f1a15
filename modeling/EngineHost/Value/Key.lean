import EngineHost.Value.Basic

/-!
# Keys of any type

A mapping may have keys of different types. Two keys are the same if they have one type and one
value. The entries of such a mapping are kept in the order of their keys: by type, and then by
value.
-/

namespace EngineHost.Value

/-- Whether two times are in one zone. Zones of a whole number of hours from 12 before to 14 behind
are shared by all times in them; every other zone that was given by its offset is one of its own. -/
def sameZone (a b : Instant) : Bool :=
  a.offset == b.offset && a.numbered == b.numbered &&
    (a.offset.tmod 3600 == 0 && -12 ≤ a.offset.tdiv 3600 && a.offset.tdiv 3600 ≤ 14)

def sameKey : Value → Value → Bool
  | int a, int b => a == b
  | int64 a, int64 b => a == b
  | uint64 a, uint64 b => a == b
  | float a, float b => Binary64.equal a b
  | string a, string b => a == b
  | bool a, bool b => a == b
  | null, null => true
  | time a, time b => a.seconds == b.seconds && a.nanos == b.nanos && sameZone a b
  | _, _ => false

/-- The place of a key's type in the order of the types. -/
def typeRank : Value → Nat
  | null => 0
  | bool _ => 1
  | float _ => 2
  | int _ => 3
  | int64 _ => 4
  | string _ => 5
  | uint64 _ => 6
  | time _ => 7
  | list _ | map _ | noMap | mixed _ => 8

/-- Whether a key comes before another one of its type. A value that is no number comes before the
numbers, and of two times that with the smaller fraction of a second comes first. -/
def valueLess : Value → Value → Bool
  | bool a, bool b => !a && b
  | float a, float b => if a.isNaN then !b.isNaN else Binary64.less a b
  | int a, int b => a < b
  | int64 a, int64 b => a < b
  | string a, string b => Bytes.less a b
  | uint64 a, uint64 b => a < b
  | time a, time b => a.nanos < b.nanos || (a.nanos == b.nanos && a.seconds < b.seconds)
  | _, _ => false

def keyLess (a b : Value) : Bool :=
  a.typeRank < b.typeRank || (a.typeRank == b.typeRank && valueLess a b)

/-- Adds an entry behind those whose keys do not come after its own. -/
def addEntry (k v : Value) : List (Value × Value) → List (Value × Value)
  | [] => [(k, v)]
  | (k', v') :: rest =>
    if keyLess k k' then (k, v) :: (k', v') :: rest else (k', v') :: addEntry k v rest

/-- Sets the value of a key. A key that is there already takes the new spelling. -/
def setEntry (k v : Value) (entries : List (Value × Value)) : List (Value × Value) :=
  if entries.any fun e => sameKey e.1 k then
    entries.map fun e => if sameKey e.1 k then (k, v) else e
  else addEntry k v entries

def isCompound : Value → Bool
  | list _ | map _ | noMap | mixed _ => true
  | _ => false

end EngineHost.Value
