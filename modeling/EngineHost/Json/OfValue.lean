import EngineHost.Json.Basic
import EngineHost.Value.Basic

/-!
# Values as JSON

Infinite numbers and NaN, mappings with keys that are not texts, and times outside the years 0 to
9999 have no JSON form. A key that is no text is told by the way to its mapping and by the number
of bytes that the text of the document has up to the first byte of a key there.
-/

namespace EngineHost.Json

inductive Unsupported
  | number (text : Bytes)
  /-- A key of a mapping that is no text, integer or instant. -/
  | key (path : Bytes) (offset : Nat)
  | year
  | zone
deriving DecidableEq, Repr

/-- The length beyond which a way is shortened. -/
def longestPath : Nat := 100

/-- A way without its middle, if it is too long. What is left out is whole steps where there are
several, and characters are never cut. -/
def shortenedPath (path : Bytes) : Bytes :=
  if path.length ≤ longestPath then path
  else
    let front := path.take (longestPath / 2)
    let back := path.drop (path.length - longestPath / 2)
    let front := match front.length - 1 - (front.reverse.takeWhile (· != 47)).length with
      | 0 => front
      | k => front.take k
    let back := match Bytes.cut 47 back with
      | some (_, rest) => rest
      | none => back
    let front := whole ((Utf8.pieces front).reverse.dropWhile isStray).reverse
    let back := whole ((Utf8.pieces back).dropWhile isStray)
    let gap := (path.drop front.length).take (path.length - front.length - back.length)
    let dots := Utf8.encode '\u2026'
    let middle : List Bytes := List.replicate (min 3 (1 + gap.count 47)) dots
    let middle := if gap.head? == some 47 then [] :: middle.drop 1 else middle
    let middle := if gap.getLast? == some 47 then middle.dropLast ++ [[]] else middle
    front ++ Bytes.join "/" middle ++ back
where
  /-- The bytes of pieces. -/
  whole (pieces : List Utf8.Piece) : Bytes := pieces.flatMap Utf8.Piece.bytes
  /-- Whether a piece is no character. -/
  isStray : Utf8.Piece → Bool
    | .stray _ => true
    | .char _ => false

namespace Unsupported

def message : Unsupported → Bytes
  | number text => "json: unsupported value: " ++ text
  | key path offset =>
    let place : Bytes :=
      if path.isEmpty then [] else " within " ++ Quoted.text (shortenedPath path)
    "json: unsupported value: jsontext: object member name must be a string" ++ place ++
      " after offset " ++ Bytes.ofNat offset
  | year => "json: error calling MarshalJSON for type *time.Time: " ++
      "year outside of range [0,9999]"
  | zone => "json: error calling MarshalJSON for type *time.Time: " ++
      "timezone hour outside of range [0,23]"

/-- The problem of a part as a problem of the whole, in which a step leads to the part and some
bytes stand in front of it. -/
def inside (step : Bytes) (before : Nat) : Unsupported → Unsupported
  | key path offset => key (step ++ path) (before + offset)
  | u => u

end Unsupported

/-- The step to a member, with the slash and the tilde of its name escaped. -/
def memberStep (name : Bytes) : Bytes :=
  47 :: (Utf8.scrub name).flatMap fun b => if b = 126 then "~0" else if b = 47 then "~1" else [b]

def itemStep (index : Nat) : Bytes := 47 :: Bytes.ofNat index

/-- An array behind some items. -/
def arrayOfParts (front : List Json) : List (Except Unsupported Json) → Except Unsupported Json
  | [] => .ok (array front.reverse)
  | .ok j :: rest => arrayOfParts (j :: front) rest
  | .error u :: _ =>
    .error (u.inside (itemStep front.length) (1 + (front.map fun j => (render j).length + 1).sum))

/-- An object behind some members. -/
def objectOfParts (front : List (Bytes × Json)) :
    List (Bytes × Except Unsupported Json) → Except Unsupported Json
  | [] => .ok (object front.reverse)
  | (k, .ok j) :: rest => objectOfParts ((k, j) :: front) rest
  | (k, .error u) :: _ =>
    .error (u.inside (memberStep k) (1 + ((renderMembers front).map fun t => t.length + 1).sum +
      (quote k).length + 1))

def objectAround (front : List (Option (Bytes × Json))) (name : String)
    (v : Except Unsupported Json) (back : List (Option (Bytes × Json))) :
    Except Unsupported Json :=
  let parts (members : List (Option (Bytes × Json))) : List (Bytes × Except Unsupported Json) :=
    (members.filterMap id).map fun m => (m.1, .ok m.2)
  objectOfParts [] (parts front ++ (Bytes.ofString name, v) :: parts back)

def ofFloat (x : Binary64) : Except Unsupported Json :=
  match Layout.special? x with
  | some text => .error (.number text)
  | none => .ok (.number (floatText x))

def ofInstant (t : Instant) : Except Unsupported Json :=
  if t.year < 0 || 9999 < t.year then .error .year
  else if 24 * 3600 ≤ t.offset.natAbs then .error .zone
  else .ok (.string t.text)

/-- The member name of a key: integers and instants by their texts. -/
def nameOfKey : Value → Except Unsupported Bytes
  | .string s => .ok s
  | .int n => .ok (Bytes.ofInt n.toInt)
  | .int64 n => .ok (Bytes.ofInt n.toInt)
  | .uint64 n => .ok (Bytes.ofNat n.toNat)
  | .time t => do
    let _ ← ofInstant t
    return t.text
  | .float x => do
    let _ ← ofFloat x
    .error (.key [] 2)
  | _ => .error (.key [] 2)

def sortMembers (members : List (Bytes × α)) : List (Bytes × α) :=
  members.mergeSort fun a b => !Bytes.less b.1 a.1

mutual

/-- The JSON form of a value. The keys of a mapping come before its values. -/
def ofValue : Value → Except Unsupported Json
  | .int n => .ok (ofInt n.toInt)
  | .int64 n => .ok (ofInt n.toInt)
  | .uint64 n => .ok (ofNat n.toNat)
  | .float x => ofFloat x
  | .string s => .ok (string s)
  | .bool b => .ok (bool b)
  | .null => .ok null
  | .list items => arrayOfParts [] (ofItems items)
  | .map entries => objectOfParts [] (ofEntries entries)
  | .noMap => .ok null
  | .mixed entries => do objectOfParts [] (sortMembers (← ofPairs entries))
  | .time t => ofInstant t

def ofItems : List Value → List (Except Unsupported Json)
  | [] => []
  | v :: rest => ofValue v :: ofItems rest

def ofEntries : List (Bytes × Value) → List (Bytes × Except Unsupported Json)
  | [] => []
  | (k, v) :: rest => (k, ofValue v) :: ofEntries rest

/-- The members of a mapping with keys of any type. -/
def ofPairs : List (Value × Value) → Except Unsupported (List (Bytes × Except Unsupported Json))
  | [] => .ok []
  | (k, v) :: rest => do
    let name ← nameOfKey k
    return (name, ofValue v) :: (← ofPairs rest)

end

end EngineHost.Json
