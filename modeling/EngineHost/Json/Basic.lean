import EngineHost.Number.Layout
import EngineHost.Text.Quoted

/-!
# JSON documents

A JSON document and its compact and indented texts. Strings are written so that they are also safe
inside markup: angle brackets, ampersands and the two Unicode line separators are escaped.
-/

namespace EngineHost

/-- A JSON document. Numbers are kept as their text, members in the order written. -/
inductive Json
  | null
  | bool (b : Bool)
  | number (text : Bytes)
  | string (s : Bytes)
  | array (items : List Json)
  | object (members : List (Bytes × Json))
deriving Inhabited, Repr

namespace Json

def ofInt (n : Int) : Json := number (Bytes.ofInt n)

def ofNat (n : Nat) : Json := number (Bytes.ofNat n)

/-- The number of a finite floating-point value: positional between `10 ^ -6` and `10 ^ 21`, and
otherwise with an exponent that has no leading zero. -/
def floatText (x : Binary64) : Bytes :=
  let d := Decimal.shortest x
  let e := Layout.leadingExponent d
  if !x.isZero && (e < -6 || 21 ≤ e) then
    let mantissa := Layout.positional ⟨d.digits, 1⟩ (d.digits.length - 1)
    Layout.sign x ++ mantissa ++ "e" ++ (if e < 0 then "-" else "+") ++ Bytes.ofNat e.natAbs
  else Layout.sign x ++ Layout.positional d (Layout.allPlaces d)

def escapeChar (c : Char) : Bytes :=
  let n := c.toNat
  if c = '"' ∨ c = '\\' then "\\" ++ Utf8.encode c
  else if n = 8 then "\\b" else if n = 12 then "\\f" else if n = 10 then "\\n"
  else if n = 13 then "\\r" else if n = 9 then "\\t"
  else if n < 0x20 ∨ c = '<' ∨ c = '>' ∨ c = '&' ∨ n = 0x2028 ∨ n = 0x2029 then
    "\\u" ++ Quoted.hexDigits 4 n
  else Utf8.encode c

/-- A text as a JSON string; stray bytes become replacement characters. -/
def quote (s : Bytes) : Bytes := "\"" ++ (Utf8.chars s).flatMap escapeChar ++ "\""

mutual

def render : Json → Bytes
  | null => "null"
  | bool b => if b then "true" else "false"
  | number text => text
  | string s => quote s
  | array items => "[" ++ Bytes.join "," (renderItems items) ++ "]"
  | object members => "\x7b" ++ Bytes.join "," (renderMembers members) ++ "\x7d"

def renderItems : List Json → List Bytes
  | [] => []
  | v :: rest => render v :: renderItems rest

def renderMembers : List (Bytes × Json) → List Bytes
  | [] => []
  | (k, v) :: rest => (quote k ++ ":" ++ render v) :: renderMembers rest

end

/-- A line break and the indentation of a depth. -/
def newline (depth : Nat) : Bytes := 10 :: List.replicate (2 * depth) 32

/-- The parts of an array or object, each on a line of its own. -/
def block (opening closing : Bytes) (depth : Nat) (parts : List Bytes) : Bytes :=
  if parts.isEmpty then opening ++ closing
  else opening ++ newline (depth + 1) ++ Bytes.join ("," ++ newline (depth + 1)) parts ++
    newline depth ++ closing

mutual

/-- The text with two blanks of indentation per depth. -/
def indented (depth : Nat) : Json → Bytes
  | array items => block "[" "]" depth (indentedItems (depth + 1) items)
  | object members => block "\x7b" "\x7d" depth (indentedMembers (depth + 1) members)
  | null => "null"
  | bool b => if b then "true" else "false"
  | number text => text
  | string s => quote s

def indentedItems (depth : Nat) : List Json → List Bytes
  | [] => []
  | v :: rest => indented depth v :: indentedItems depth rest

def indentedMembers (depth : Nat) : List (Bytes × Json) → List Bytes
  | [] => []
  | (k, v) :: rest => (quote k ++ ": " ++ indented depth v) :: indentedMembers depth rest

end

/-- The members that are present. -/
def objectOf (members : List (Option (Bytes × Json))) : Json := object (members.filterMap id)

def member (name : String) (v : Json) : Option (Bytes × Json) := some (Bytes.ofString name, v)

/-- A text member that is left out when the text is empty. -/
def textMember (name : String) (s : Bytes) : Option (Bytes × Json) :=
  if s.isEmpty then none else member name (string s)

/-- A member that is left out when there is no document. -/
def optionalMember (name : String) (v : Option Json) : Option (Bytes × Json) :=
  v.bind (member name)

end Json

end EngineHost
