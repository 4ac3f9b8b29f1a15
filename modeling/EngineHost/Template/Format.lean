import EngineHost.Template.Datum
import EngineHost.Text.Quoted

/-!
# Formatted values

How a value is written under a verb, a letter that says which notation is wanted, with flags, a
width and a precision. What does not fit is reported inside the text itself.
-/

namespace EngineHost.Template.Format

structure Flags where
  plus : Bool := false
  minus : Bool := false
  sharp : Bool := false
  space : Bool := false
  zero : Bool := false
  /-- Write values in the notation of literals. -/
  literal : Bool := false
  /-- Write the names of parts in front of them. -/
  named : Bool := false
  width : Option Nat := none
  precision : Option Nat := none
deriving Inhabited

namespace Flags

/-- Whether a text is filled with zeros. -/
def fillsZeros (f : Flags) : Bool := f.zero && !f.minus

def filling (f : Flags) (n : Nat) : Bytes := List.replicate n (if f.fillsZeros then 48 else 32)

/-- Fills a text up to the width, counted in characters. -/
def pad (f : Flags) (s : Bytes) : Bytes :=
  let fill := f.filling (f.width.getD 0 - (Utf8.pieces s).length)
  if f.minus then s ++ fill else fill ++ s

def padBlank (f : Flags) (s : Bytes) : Bytes := pad { f with zero := false } s

end Flags

/-- The first characters of a text, as many as the precision says. -/
def truncated (f : Flags) (s : Bytes) : Bytes :=
  match f.precision with
  | some n => ((Utf8.pieces s).take n).flatMap Utf8.Piece.bytes
  | none => s

def upper (s : Bytes) : Bytes := s.map fun b => if 97 ≤ b ∧ b ≤ 102 then b - 32 else b

def digitsIn (base : Nat) (capital : Bool) (n : Nat) : Bytes :=
  let ds := (Nat.toDigits base n).map Bytes.ofAscii
  if capital then upper ds else ds

/-- An integer in a base. A precision asks for leading zeros and shows nothing for zero if it is
zero itself; otherwise zeros may fill the width. -/
def integer (f : Flags) (base : Nat) (capital marked : Bool) (n : Int) : Bytes :=
  if f.precision = some 0 && n = 0 then List.replicate (f.width.getD 0) 32
  else
    let signWidth := if n < 0 || f.plus || f.space then 1 else 0
    let least := match f.precision with
      | some p => p
      | none => if f.fillsZeros then f.width.getD 0 - signWidth else 0
    let digits := Bytes.padLeft least 48 (digitsIn base capital n.natAbs)
    let digits : Bytes :=
      if !f.sharp then digits
      else if base = 2 then "0b" ++ digits
      else if base = 8 then (if digits.head? == some 48 then digits else "0" ++ digits)
      else if base = 16 then (if capital then "0X" else "0x") ++ digits
      else digits
    let digits : Bytes := if marked then "0o" ++ digits else digits
    let sign : Bytes := if n < 0 then "-" else if f.plus then "+" else if f.space then " " else ""
    f.padBlank (sign ++ digits)

/-- The character of a number; numbers of no character stand for the replacement character. -/
def charOf (n : Nat) : Char := if n.isValidChar then Char.ofNat n else Utf8.replacement

/-- A code point, with the character itself if asked for and printable. -/
def codePoint (f : Flags) (n : Nat) : Bytes :=
  let digits := Bytes.padLeft (max 4 (f.precision.getD 4)) 48 (digitsIn 16 true n)
  let shown : Bytes :=
    if f.sharp && n.isValidChar && isPrintable (Char.ofNat n) then
      " '" ++ Utf8.encode (Char.ofNat n) ++ "'"
    else ""
  f.padBlank ("U+" ++ digits ++ shown)

/-- A piece of a text between quotes that holds ASCII only. -/
def asciiPiece (quote : Char) : Utf8.Piece → Bytes
  | .char c => if c.toNat < 0x80 then Quoted.piece quote (.char c) else Quoted.escape c
  | p => Quoted.piece quote p

def quoted (f : Flags) (s : Bytes) : Bytes :=
  let s := truncated f s
  if f.sharp && Quoted.isRaw s then f.pad (Quoted.rawText s)
  else if f.plus then f.pad ("\"" ++ (Utf8.pieces s).flatMap (asciiPiece '"') ++ "\"")
  else f.pad (Quoted.text s)

def quotedChar (f : Flags) (n : Nat) : Bytes :=
  let c := charOf n
  if f.plus then f.pad ("'" ++ asciiPiece '\x27' (.char c) ++ "'") else f.pad (Quoted.char c)

def hexText (f : Flags) (capital : Bool) (s : Bytes) : Bytes :=
  let s := match f.precision with
    | some n => s.take n
    | none => s
  if s.isEmpty then f.filling (f.width.getD 0)
  else
    let mark : Bytes := if f.sharp then (if capital then "0X" else "0x") else ""
    let byte (b : UInt8) : Bytes := if capital then upper (Bytes.hexByte b) else Bytes.hexByte b
    let body := if f.space then Bytes.join " " (s.map fun b => mark ++ byte b)
      else mark ++ s.flatMap byte
    let fill := f.filling (f.width.getD 0 - body.length)
    if f.minus then body ++ fill else fill ++ body

/-- Digits with an exponent or not, as the exponent of the leading digit demands. -/
def generalDigits (x : Binary64) (precision : Option Nat) (capital : Bool) : Bytes :=
  let mark := if capital then 'E' else 'e'
  match precision with
  | none =>
    let d := Decimal.shortest x
    let e := d.point - 1
    if e < -4 || 6 ≤ e then Layout.scientific mark d (d.digits.length - 1)
    else Layout.positional d (Layout.allPlaces d)
  | some p =>
    let p := max p 1
    let d := Decimal.significant x p
    let e := d.point - 1
    let width := d.digits.length
    let limit : Int := if width < p && d.point ≤ (width : Int) then width else p
    if e < -4 || limit ≤ e then Layout.scientific mark d (min p width - 1)
    else Layout.positional d (Layout.allPlaces d)

def binaryExponent (capital : Bool) (e : Int) : Bytes :=
  (if capital then "P" else "p") ++ (if e < 0 then "-" else "+") ++
    Bytes.padLeft 2 48 (Bytes.ofNat e.natAbs)

/-- A mantissa in hexadecimal with a binary exponent. -/
def hexDigits (x : Binary64) (precision : Option Nat) (capital : Bool) : Bytes :=
  let m := x.mantissa
  let shift := 52 - m.log2
  let leading := if m = 0 then 0 else m * 2 ^ shift
  let e : Int := if m = 0 then 0 else x.exponent + 52 - shift
  let (leading, e, places) : Nat × Int × Nat := match precision with
    | none =>
      let trimmed := (Bytes.dropTrailing (· == 48) (Bytes.padLeft 13 48 (Bytes.ofHex (leading % 2 ^ 52))))
      (leading, e, trimmed.length)
    | some p =>
      if 13 ≤ p then (leading * 16 ^ (p - 13), e, p)
      else
        let rounded := roundDiv leading (16 ^ (13 - p))
        if 2 * 16 ^ p ≤ rounded then (rounded / 2, e + 1, p) else (rounded, e, p)
  let width := match precision with
    | none => 13
    | some p => p
  let fraction := (Bytes.padLeft width 48 (Bytes.ofHex (leading % 16 ^ width))).take places
  let body : Bytes := "0x" ++ Bytes.ofNat (leading / 16 ^ width) ++
    (if places = 0 then ([] : Bytes) else Bytes.ofString "." ++ fraction)
  let body := if capital then (upper body).map fun b => if b = 120 then 88 else b else body
  body ++ binaryExponent capital e

/-- The digits of a finite number without its sign. -/
def floatDigits (x : Binary64) (verb : Char) (precision : Option Nat) : Bytes :=
  match verb with
  | 'e' => Layout.scientific 'e' (Decimal.significant x (precision.getD 6 + 1)) (precision.getD 6)
  | 'E' => Layout.scientific 'E' (Decimal.significant x (precision.getD 6 + 1)) (precision.getD 6)
  | 'f' => Layout.positional (Decimal.places x (precision.getD 6)) (precision.getD 6)
  | 'G' => generalDigits x precision true
  | 'x' => hexDigits x precision false
  | 'X' => hexDigits x precision true
  | 'b' => Bytes.ofNat x.mantissa ++ "p" ++ (if x.exponent < 0 then "-" else "+") ++
      Bytes.ofNat x.exponent.natAbs
  | _ => generalDigits x precision false

/-- The digits with a point in any case, and under a general verb with trailing zeros. -/
def withPoint (verb : Char) (precision : Option Nat) (digits : Bytes) : Bytes :=
  let isHex := verb == 'x' || verb == 'X'
  let isMark (b : UInt8) := b == 112 || b == 80 || (!isHex && (b == 101 || b == 69))
  let body := digits.takeWhile fun b => !isMark b
  let tail := digits.dropWhile fun b => !isMark b
  let wanted := if verb == 'g' || verb == 'G' || verb == 'x' then precision.getD 6 else 0
  let significant := ((body.filter (· != 46)).dropWhile (· == 48)).length
  let hasPoint := body.any (· == 46)
  let counted := if !hasPoint && body.length = 1 && body.head? == some 48 then significant + 1
    else significant
  body ++ (if hasPoint then [] else ("." : Bytes)) ++ List.replicate (wanted - counted) 48 ++ tail

def float (f : Flags) (verb : Char) (x : Binary64) : Bytes :=
  let sign : Bytes := if x.negative && !x.isNaN then "-" else "+"
  let shownSign : Bytes :=
    if sign = "-" then "-" else if f.plus then "+" else if f.space then " " else ""
  if x.isNaN then f.padBlank (shownSign ++ "NaN")
  else if x.isInfinite then
    f.padBlank ((if shownSign.isEmpty then ("+" : Bytes) else shownSign) ++ "Inf")
  else
    let digits := floatDigits x verb f.precision
    let digits := if f.sharp && verb != 'b' then withPoint verb f.precision digits else digits
    if !shownSign.isEmpty && f.fillsZeros && shownSign != " " then
      shownSign ++ Bytes.padLeft (f.width.getD 0 - 1) 48 digits
    else if shownSign = " " && f.fillsZeros then
      shownSign ++ Bytes.padLeft (f.width.getD 0 - 1) 48 digits
    else f.pad (shownSign ++ digits)

/-- The verbs that floating-point numbers know, and the notation that each stands for. -/
def floatVerb? (verb : Char) : Option Char :=
  if verb == 'v' then some 'g'
  else if verb == 'F' then some 'f'
  else if ['b', 'g', 'G', 'x', 'X', 'f', 'e', 'E'].contains verb then some verb
  else none

/-- A value without parts under a verb that it knows. -/
def scalar? (f : Flags) (verb : Char) : Datum → Option Bytes
  | .bool b =>
    if verb == 't' || verb == 'v' then some (f.pad (if b then "true" else "false")) else none
  | .int n => signed n.toInt
  | .int64 n => signed n.toInt
  | .uint64 n => unsigned n.toNat
  | .byte n => unsigned n.toNat
  | .float x => (floatVerb? verb).map fun v => float f v x
  | .complex re im => (floatVerb? verb).map fun v =>
      "(" ++ float f v re ++ float { f with plus := true } v im ++ "i)"
  | .string s =>
    if verb == 'v' then some (if f.literal then quoted f s else f.pad (truncated f s))
    else if verb == 's' then some (f.pad (truncated f s))
    else if verb == 'x' then some (hexText f false s)
    else if verb == 'X' then some (hexText f true s)
    else if verb == 'q' then some (quoted f s)
    else none
  | .time t => if verb == 'v' || verb == 's' then some (f.pad (truncated f t.display)) else none
  | _ => none
where
  /-- An integer whose bits, taken as unsigned, are `bits`. -/
  number (n : Int) (bits : Nat) : Option Bytes :=
    match verb with
    | 'v' | 'd' => some (integer f 10 false false n)
    | 'b' => some (integer f 2 false false n)
    | 'o' => some (integer f 8 false false n)
    | 'O' => some (integer f 8 false true n)
    | 'x' => some (integer f 16 false false n)
    | 'X' => some (integer f 16 true false n)
    | 'c' => some (f.pad (Utf8.encode (charOf bits)))
    | 'q' => some (quotedChar f bits)
    | 'U' => some (codePoint f bits)
    | _ => none
  signed (n : Int) : Option Bytes := number n (n % 2 ^ 64).toNat
  unsigned (n : Nat) : Option Bytes :=
    if verb == 'v' && f.literal then some (integer { f with sharp := true } 16 false false n)
    else number n n

/-- A verb that a value does not know, with the value. -/
def unknownVerb (verb : Char) (typeName shown : Bytes) : Bytes :=
  "%!" ++ Utf8.encode verb ++ "(" ++ typeName ++ "=" ++ shown ++ ")"

/-- A value without parts under any verb. -/
def scalar (f : Flags) (verb : Char) (d : Datum) : Bytes :=
  match scalar? f verb d with
  | some s => s
  | none => unknownVerb verb d.typeName ((scalar? f 'v' d).getD [])

def listText (f : Flags) (items : List Bytes) : Bytes :=
  if f.literal then (Datum.list [] []).typeName ++ "\x7b" ++ Bytes.join ", " items ++ "\x7d"
  else "[" ++ Bytes.join " " items ++ "]"

def mapText (f : Flags) (typeName : Bytes) (entries : List Bytes) : Bytes :=
  if f.literal then typeName ++ "\x7b" ++ Bytes.join ", " entries ++ "\x7d"
  else "map[" ++ Bytes.join " " entries ++ "]"

/-- A mapping that was not given, in its notation. -/
def noMapText (f : Flags) : Bytes := if f.literal then Datum.noMap.typeName ++ "(nil)" else "map[]"

/-- The address of a mapping that was not given, which is zero. The mark of its base stands there unless
the sharp sign takes it away. -/
def noAddress (f : Flags) : Bytes := integer { f with sharp := !f.sharp } 16 false false 0

mutual

def value (f : Flags) (verb : Char) : Value → Bytes
  | .null => if f.literal then Datum.anyName ++ "(nil)" else "<nil>"
  | .list items => listText f (values f verb items)
  | .map entries => mapText f (Datum.map []).typeName (namedValues f verb entries)
  | .noMap => noMapText f
  | .mixed entries => mapText f (Datum.mixed []).typeName (pairs f verb entries)
  | .int n => scalar f verb (.int n)
  | .int64 n => scalar f verb (.int64 n)
  | .uint64 n => scalar f verb (.uint64 n)
  | .float x => scalar f verb (.float x)
  | .string s => scalar f verb (.string s)
  | .bool b => scalar f verb (.bool b)
  | .time t => scalar f verb (.time t)

def values (f : Flags) (verb : Char) : List Value → List Bytes
  | [] => []
  | v :: rest => value f verb v :: values f verb rest

/-- The entries of a mapping with texts as keys. -/
def namedValues (f : Flags) (verb : Char) : List (Bytes × Value) → List Bytes
  | [] => []
  | (k, v) :: rest =>
    (scalar f verb (.string k) ++ ":" ++ value f verb v) :: namedValues f verb rest

/-- The entries of a mapping with keys of any type. -/
def pairs (f : Flags) (verb : Char) : List (Value × Value) → List Bytes
  | [] => []
  | (k, v) :: rest => (value f verb k ++ ":" ++ value f verb v) :: pairs f verb rest

end

/-- A value under a verb; nothing is a null. -/
def datum (f : Flags) (verb : Char) : Option Datum → Bytes
  | none =>
    if verb == 'T' || verb == 'v' then f.pad "<nil>"
    else "%!" ++ Utf8.encode verb ++ "(<nil>)"
  | some d =>
    let whole (verb : Char) : Bytes := match d with
      | .list items _ => listText f (values f verb items)
      | .noMap => if verb == 'p' then noAddress f else noMapText f
      | .map entries => mapText f d.typeName (namedValues f verb entries)
      | .mixed entries => mapText f d.typeName (pairs f verb entries)
      | _ => scalar f verb d
    if verb == 'T' then f.pad (truncated f d.typeName)
    else if verb == 'w' then unknownVerb verb d.typeName (whole 'v')
    else whole verb

def display (d : Option Datum) : Bytes := datum {} 'v' d

/-- Arguments side by side, with a blank between two that are not texts. -/
def joined (prevText : Bool) : List (Option Datum) → Bytes
  | [] => []
  | d :: rest =>
    let isText := match d with
      | some (.string _) => true
      | _ => false
    (if isText || prevText then display d else " " ++ display d) ++ joined isText rest

/-- Arguments side by side; nothing stands in front of the first. -/
def concat (args : List (Option Datum)) : Bytes := joined true args

def line (args : List (Option Datum)) : Bytes := Bytes.join " " (args.map display) ++ "\n"

end EngineHost.Template.Format
