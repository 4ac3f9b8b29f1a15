import EngineHost.Number.Literal
import EngineHost.Value.Basic
import EngineHost.Yaml.Failure

/-!
# The meaning of scalars

An untagged plain scalar is a null, a truth value, a number, a time or a text, decided by its
spelling. A tag demands one of these.
-/

namespace EngineHost.Yaml

/-- A tag of the standard set in its short form; other tags stand for themselves. -/
def shortTag (tag : Bytes) : Bytes :=
  match Bytes.dropLeading? "tag:yaml.org,2002:" tag with
  | some name => "!!" ++ name
  | none => tag

def namedScalars : List (Bytes × Bytes × Value) :=
  let group (tag : String) (v : Value) (names : List String) :=
    names.map fun n => (Bytes.ofString n, Bytes.ofString tag, v)
  group "!!bool" (.bool true) ["true", "True", "TRUE"] ++
  group "!!bool" (.bool false) ["false", "False", "FALSE"] ++
  group "!!null" .null ["", "~", "null", "Null", "NULL"] ++
  group "!!float" (.float Binary64.nan) [".nan", ".NaN", ".NAN"] ++
  group "!!float" (.float (Binary64.infinity false))
    [".inf", ".Inf", ".INF", "+.inf", "+.Inf", "+.INF"] ++
  group "!!float" (.float (Binary64.infinity true)) ["-.inf", "-.Inf", "-.INF"]

/-- The times that scalars spell: a date and a clock time separated by `T` or `t` with a zone, or by
a space without one, or a date alone. -/
def timeOf? (s : Bytes) : Option Instant :=
  if (s.takeWhile Bytes.isDigit).length = 4 ∧ s[4]? = some 45 then
    (Instant.parse? ⟨false, 84, true⟩ s).or <| (Instant.parse? ⟨false, 116, true⟩ s).or <|
      (Instant.parse? ⟨false, 32, false⟩ s).or <| Instant.parseDate? s
  else none

/-- An integer within the signed 64-bit range. -/
def signed? (negative : Bool) (n : Nat) : Option Value :=
  if n < 2 ^ 63 ∨ (negative ∧ n = 2 ^ 63) then
    some (.int (Int64.ofInt (if negative then -(n : Int) else n)))
  else none

/-- An integer with its base mark, signed if it fits, else unsigned without a sign. -/
def integerOf? (s : Bytes) : Option Value :=
  let (negative, body) := Literal.splitSign s
  ((Literal.marked? body).bind (signed? negative)).or <|
    (Literal.marked? s).bind fun n => if n < 2 ^ 64 then some (.uint64 (UInt64.ofNat n)) else none

/-- An integer whose sign stands behind its base mark. -/
def lateSigned? (s : Bytes) : Option Value :=
  let behind (base : Nat) (t : Bytes) : Option Value :=
    let (negative, body) := Literal.splitSign t
    (Literal.digitsIn? base body).bind (signed? negative)
  match s with
  | 48 :: 98 :: t => behind 2 t
  | 48 :: 111 :: t => behind 8 t
  | _ => none

def isSignedDigits (s : Bytes) : Bool :=
  let (_, body) := Literal.splitSign s
  !body.isEmpty && body.all Bytes.isDigit

/-- Whether a text is spelled as a decimal number: digits with an optional point, of which some
must stand before the point or behind it, and an optional exponent. -/
def isDecimal (s : Bytes) : Bool :=
  let (_, body) := Literal.splitSign s
  let isMark (b : UInt8) := b == 101 || b == 69
  let mantissa := body.takeWhile fun b => !isMark b
  let exponent := body.dropWhile fun b => !isMark b
  let mantissaOk := match Bytes.cut 46 mantissa with
    | none => !mantissa.isEmpty && mantissa.all Bytes.isDigit
    | some (whole, fraction) =>
      whole.all Bytes.isDigit && fraction.all Bytes.isDigit &&
        !(whole.isEmpty && fraction.isEmpty)
  mantissaOk && (exponent.isEmpty || isSignedDigits (exponent.drop 1))

/-- A number, underscores passed over. -/
def numberOf? (s : Bytes) : Option (Bytes × Value) :=
  let plain := s.filter (· != 95)
  match integerOf? plain with
  | some v => some ("!!int", v)
  | none =>
    match if isDecimal plain then Literal.float? plain else none with
    | some x => some ("!!float", .float x)
    | none => (lateSigned? plain).map fun v => (Bytes.ofString "!!int", v)

/-- The tag and the value of a scalar by its spelling alone; times only where they are asked
for. -/
def spelled (times : Bool) (s : Bytes) : Bytes × Value :=
  let text : Bytes × Value := ("!!str", .string s)
  match namedScalars.lookup s with
  | some found => found
  | none =>
    match s with
    | [] => text
    | b :: _ =>
      if b = 46 then
        match Literal.float? s with
        | some x => ("!!float", .float x)
        | none => text
      else if Bytes.isDigit b || b = 43 || b = 45 then
        match if times then timeOf? s else none with
        | some t => ("!!timestamp", .time t)
        | none => (numberOf? s).getD text
      else text

/-- The tags that demand a certain value. -/
def demanding : List Bytes :=
  ["", "!!str", "!!bool", "!!int", "!!float", "!!null", "!!timestamp"].map Bytes.ofString

/-- The tag and the value of a scalar with a tag; under a tag that demands nothing it is a text. An
integer may stand for a floating-point number. -/
def resolve (tag s : Bytes) : Except Failure (Bytes × Value) :=
  let tag := shortTag tag
  if !demanding.contains tag then .ok (tag, .string s)
  else if tag = "!!str" then .ok (tag, .string s)
  else
    let (found, v) := spelled (tag.isEmpty || tag = "!!timestamp") s
    if tag.isEmpty || found = tag then .ok (found, v)
    else
      match if tag = "!!float" then v else .null with
      | .int n => .ok (tag, .float (Binary64.ofInt n.toInt))
      | _ => .error (.undecodable found s tag)

end EngineHost.Yaml
