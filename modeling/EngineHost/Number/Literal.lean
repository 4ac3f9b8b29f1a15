import EngineHost.Number.Binary64
import EngineHost.Text.Bytes

/-!
# Number literals

Reading decimal integers within 64-bit ranges, integers with a base mark, floating-point numbers
and truth values.
-/

namespace EngineHost.Literal

open Bytes (ofAscii isDigit digitsValue)

/-- A non-empty run of decimal digits. -/
def natural? (s : Bytes) : Option Nat :=
  if !s.isEmpty && s.all isDigit then some (digitsValue s) else none

/-- Splits off an optional sign; true is negative. -/
def splitSign : Bytes → Bool × Bytes
  | 43 :: rest => (false, rest)
  | 45 :: rest => (true, rest)
  | s => (false, s)

/-- A decimal numeral with an optional sign. -/
def integer? (s : Bytes) : Option Int :=
  let (neg, digits) := splitSign s
  (natural? digits).map fun n => if neg then -(n : Int) else n

/-- A signed decimal numeral in the 64-bit range. -/
def int64? (s : Bytes) : Option Int64 :=
  match integer? s with
  | some n => if -(2 ^ 63) ≤ n && n < 2 ^ 63 then some (Int64.ofInt n) else none
  | none => none

/-- An unsigned decimal numeral in the 64-bit range. -/
def uint64? (s : Bytes) : Option UInt64 :=
  match natural? s with
  | some n => if n < 2 ^ 64 then some (UInt64.ofNat n) else none
  | none => none

/-- A truth value: `1`, `t`, `T`, `true`, `True`, `TRUE` and their opposites. -/
def bool? (s : Bytes) : Option Bool :=
  if (["1", "t", "T", "true", "True", "TRUE"].map Bytes.ofString).contains s then some true
  else if (["0", "f", "F", "false", "False", "FALSE"].map Bytes.ofString).contains s then some false
  else none

/-- What stood before the current character while underscores are checked. -/
inductive Before
  | start | digit | underscore | other
deriving DecidableEq

/-- Whether every underscore stands between digits; a base mark counts as a digit. -/
def underscoresOk (hex : Bool) : Before → Bytes → Bool
  | before, [] => before != .underscore
  | before, b :: rest =>
    if isDigit b || (hex && (Bytes.hexDigit? b).isSome) then underscoresOk hex .digit rest
    else if b = 95 then before == .digit && underscoresOk hex .underscore rest
    else before != .underscore && underscoresOk hex .other rest

def baseMark? (b : UInt8) : Option Nat :=
  if b = 120 ∨ b = 88 then some 16
  else if b = 111 ∨ b = 79 then some 8
  else if b = 98 ∨ b = 66 then some 2
  else none

/-- Whether the underscores of an unsigned literal stand between digits. -/
def underscoresFit : Bytes → Bool
  | 48 :: m :: rest =>
    match baseMark? m with
    | some base => underscoresOk (base == 16) .digit rest
    | none => underscoresOk false .start (48 :: m :: rest)
  | s => underscoresOk false .start s

/-- The value of digits in a base, underscores passed over. -/
def digitsIn? (base : Nat) (s : Bytes) : Option Nat :=
  let digits := s.filter (· != 95)
  if digits.isEmpty then none
  else digits.foldlM (fun n b =>
    match Bytes.hexDigit? b with
    | some d => if d < base then some (base * n + d) else none
    | none => none) 0

/-- An unsigned integer whose base is given by its mark: `0x`, `0o`, `0b`, a leading zero for
octal, decimal otherwise; underscores may stand between digits. -/
def marked? (s : Bytes) : Option Nat :=
  if !underscoresFit s then none
  else match s with
    | 48 :: m :: rest =>
      match baseMark? m with
      | some base => digitsIn? base rest
      | none => digitsIn? 8 (m :: rest)
    | s => digitsIn? 10 s

/-- The parts of a floating-point literal: the digits before the point, those behind it, and
whatever follows. -/
def splitMantissa (isMantissaDigit : UInt8 → Bool) (s : Bytes) : Bytes × Bytes × Bytes :=
  let run (t : Bytes) := (t.takeWhile fun b => isMantissaDigit b || b == 95,
    t.dropWhile fun b => isMantissaDigit b || b == 95)
  let (whole, rest) := run s
  match rest with
  | 46 :: rest' => let (fraction, after) := run rest'; (whole, fraction, after)
  | _ => (whole, [], rest)

/-- An exponent behind its mark. Values far beyond every range are all the same. -/
def exponent? (s : Bytes) : Option Int :=
  let (neg, digits) := splitSign s
  match digits with
  | b :: _ =>
    if isDigit b && digits.all fun c => isDigit c || c == 95 then
      let n : Nat := digits.foldl (fun (n : Nat) c =>
        if c == 95 then n else if n < 10000 then 10 * n + (c.toNat - 48) else n) 0
      some (if neg then -(n : Int) else n)
    else none
  | [] => none

/-- The value of an unsigned decimal literal with `scale` digits behind the point. -/
def scaled (neg : Bool) (mantissa digits : Nat) (scale : Int) : Binary64 :=
  if mantissa = 0 then Binary64.ofMagnitude neg 0
  else if 400 < (digits : Int) + scale then Binary64.infinity neg
  else if (digits : Int) + scale < -400 then Binary64.ofMagnitude neg 0
  else Binary64.ofRatio neg (mantissa * 10 ^ scale.toNat) (10 ^ (-scale).toNat)

/-- The value of an unsigned hexadecimal literal, a mantissa times a power of two. -/
def scaledBinary (neg : Bool) (mantissa : Nat) (scale : Int) : Binary64 :=
  if mantissa = 0 then Binary64.ofMagnitude neg 0
  else if 1100 < (mantissa.log2 : Int) + scale then Binary64.infinity neg
  else if (mantissa.log2 : Int) + scale < -1200 then Binary64.ofMagnitude neg 0
  else Binary64.ofRatio neg (mantissa * 2 ^ scale.toNat) (2 ^ (-scale).toNat)

/-- A decimal number: digits with an optional point and an optional exponent. -/
def decimalFloat? (neg : Bool) (s : Bytes) : Option Binary64 :=
  let (whole, fraction, after) := splitMantissa isDigit s
  let digits := (whole ++ fraction).filter (· != 95)
  if digits.isEmpty then none
  else
    let places := (fraction.filter (· != 95)).length
    let scale? : Option Int :=
      match after with
      | [] => some 0
      | m :: rest => if m = 101 ∨ m = 69 then exponent? rest else none
    scale?.bind fun e =>
      let trimmed := digits.dropWhile (· == 48)
      some (scaled neg (digitsValue digits) trimmed.length (e - places))

/-- A hexadecimal number behind its mark: the binary exponent is required. -/
def hexFloat? (neg : Bool) (s : Bytes) : Option Binary64 :=
  let (whole, fraction, after) := splitMantissa (fun b => (Bytes.hexDigit? b).isSome) s
  let digits := (whole ++ fraction).filter (· != 95)
  if digits.isEmpty then none
  else
    let places := (fraction.filter (· != 95)).length
    match after with
    | m :: rest =>
      if m = 112 ∨ m = 80 then
        match exponent? rest, digitsIn? 16 digits with
        | some e, some mantissa => some (scaledBinary neg mantissa (e - 4 * places))
        | _, _ => none
      else none
    | [] => none

/-- The names of the numbers without digits, in any case; a NaN takes no sign. -/
def named? (s : Bytes) : Option Binary64 :=
  let (neg, word) := splitSign s
  let word := Bytes.toLower word
  if word = "inf" ∨ word = "infinity" then some (Binary64.infinity neg)
  else if Bytes.toLower s = "nan" then some Binary64.nan
  else none

inductive FloatFault
  | malformed
  | outOfRange
deriving DecidableEq, Repr

/-- A floating-point number; one beyond the largest finite number is refused. -/
def float (s : Bytes) : Except FloatFault Binary64 :=
  match named? s with
  | some x => .ok x
  | none =>
    let (neg, body) := splitSign s
    if body.any (· == 95) && !underscoresFit body then .error .malformed
    else
      let value := match body with
        | 48 :: m :: rest => if m = 120 ∨ m = 88 then hexFloat? neg rest else decimalFloat? neg body
        | _ => decimalFloat? neg body
      match value with
      | none => .error .malformed
      | some x => if x.isInfinite then .error .outOfRange else .ok x

def float? (s : Bytes) : Option Binary64 := (float s).toOption

/-- The length of what looks like a floating-point number at the front: a sign, a base mark,
digits, a fraction and an exponent, each of which may be missing. -/
def floatLength (s : Bytes) : Nat :=
  let signed := match s with
    | 43 :: _ | 45 :: _ => 1
    | _ => 0
  let isHex := match s.drop signed with
    | 48 :: m :: _ => m == 120 || m == 88
    | _ => false
  let start := if isHex then signed + 2 else signed
  let isMantissaDigit (b : UInt8) := if isHex then (Bytes.hexDigit? b).isSome else isDigit b
  let run (isOne : UInt8 → Bool) (n : Nat) : Nat :=
    n + ((s.drop n).takeWhile fun b => isOne b || b == 95).length
  let n := run isMantissaDigit start
  let n := if (s.drop n).head? == some 46 then run isMantissaDigit (n + 1) else n
  match s.drop n with
  | m :: rest =>
    if m == 112 || m == 80 || (!isHex && (m == 101 || m == 69)) then
      match rest with
      | 43 :: _ | 45 :: _ => run isDigit (n + 2)
      | _ => run isDigit (n + 1)
    else n
  | [] => n

end EngineHost.Literal
