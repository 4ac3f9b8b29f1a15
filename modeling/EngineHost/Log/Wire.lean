import EngineHost.Json.Tree
import EngineHost.Log.Record

/-!
# Guest log messages

A guest sends its log lines as JSON objects. Member names match in any case, unknown members are
passed over, the last of equal members wins, and a null leaves a field as it was.
-/

namespace EngineHost.Log

/-- An attribute as the guest sends it: its type says how the value is to be read. -/
structure WireAttr where
  key : Bytes := []
  type : Bytes := []
  value : Bytes := []
deriving DecidableEq, Repr, Inhabited

structure WireMessage where
  timestamp : Instant := {}
  attrs : List WireAttr := []
  level : Bytes := []
  message : Bytes := []
deriving DecidableEq, Repr, Inhabited

namespace WireMessage

/-- A member name with case removed. Two letters beyond ASCII fold to ASCII ones. -/
def foldName (s : Bytes) : Bytes :=
  (Utf8.chars s).flatMap fun c =>
    if c = 'ſ' then "s"
    else if c = '\u212a' then "k"
    else if 'A' ≤ c ∧ c ≤ 'Z' then [Bytes.ofAscii c + 32]
    else Utf8.encode c

/-- Whether the literal of a member's name means a field. -/
def names (literal : Bytes) (field : Bytes) : Bool := foldName (Json.Tree.unescape literal) == field

/-- A text field; null keeps what is there, other types are refused. -/
def textField? (old : Bytes) : Json.Tree → Option Bytes
  | .null => some old
  | .string literal => some (Json.Tree.unescape literal)
  | _ => none

def instantField? (old : Instant) : Json.Tree → Option Instant
  | .null => some old
  | .string literal => Instant.parse? Instant.standard (Json.Tree.unescape literal)
  | _ => none

def attrMember? (a : WireAttr) (m : Bytes × Json.Tree) : Option WireAttr :=
  if names m.1 "key" then (textField? a.key m.2).map fun s => { a with key := s }
  else if names m.1 "type" then (textField? a.type m.2).map fun s => { a with type := s }
  else if names m.1 "value" then (textField? a.value m.2).map fun s => { a with value := s }
  else some a

/-- An attribute; a null is one with empty fields. -/
def attr? (old : WireAttr) : Json.Tree → Option WireAttr
  | .null => some old
  | .object members => members.foldlM attrMember? old
  | _ => none

/-- The attributes. A repeated list is read on top of the one before it, item by item. -/
def attrs? (old : List WireAttr) : List Json.Tree → Option (List WireAttr)
  | [] => some []
  | t :: rest => do
    let a ← attr? (old.headD {}) t
    return a :: (← attrs? old.tail rest)

/-- A log line that is being read, and the attributes of a longer list that a shorter one took the
place of. A list that is longer again is read on top of those too; an empty list or a null makes
them forgotten. -/
structure Reading where
  line : WireMessage := {}
  beyond : List WireAttr := []

def attrsField? (r : Reading) : Json.Tree → Option Reading
  | .null => some { line := { r.line with attrs := [] } }
  | .array [] => some { line := { r.line with attrs := [] } }
  | .array items => do
    let old := r.line.attrs ++ r.beyond
    let attrs ← attrs? old items
    return { line := { r.line with attrs }, beyond := old.drop items.length }
  | _ => none

def member? (r : Reading) (m : Bytes × Json.Tree) : Option Reading :=
  let w := r.line
  if names m.1 "timestamp" then
    (instantField? w.timestamp m.2).map fun t => { r with line := { w with timestamp := t } }
  else if names m.1 "attrs" then attrsField? r m.2
  else if names m.1 "level" then
    (textField? w.level m.2).map fun s => { r with line := { w with level := s } }
  else if names m.1 "message" then
    (textField? w.message m.2).map fun s => { r with line := { w with message := s } }
  else some r

def decode? (payload : Bytes) : Option WireMessage :=
  match Json.Tree.parse? payload with
  | some .null => some {}
  | some (.object members) => (members.foldlM member? {}).map Reading.line
  | _ => none

def attrJson (a : WireAttr) : Json :=
  .object [("key", .string a.key), ("type", .string a.type), ("value", .string a.value)]

/-- The JSON text of a log line without its timestamp; an empty attribute list is left out. -/
def encode (w : WireMessage) : Bytes :=
  Json.render (Json.objectOf [
    if w.attrs.isEmpty then none else Json.member "attrs" (.array (w.attrs.map attrJson)),
    Json.member "level" (.string w.level),
    Json.member "message" (.string w.message)])

end WireMessage

end EngineHost.Log
