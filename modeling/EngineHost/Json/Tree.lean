import EngineHost.Json.Basic

/-!
# Reading JSON

The tree of a JSON text. Texts are kept as they stand between their quotes; `unescape` gives the
text that a literal denotes.
-/

namespace EngineHost.Json

inductive Tree
  | null
  | bool (b : Bool)
  | number (text : Bytes)
  | string (literal : Bytes)
  | array (items : List Tree)
  | object (members : List (Bytes × Tree))
deriving Inhabited, Repr

namespace Tree

def isSpace (b : UInt8) : Bool := b == 32 || b == 9 || b == 10 || b == 13

/-- The text behind leading white space. -/
def skip (s : Bytes) : Bytes := s.dropWhile isSpace

/-- Whether a byte may follow a backslash on its own. -/
def isShortEscape (b : UInt8) : Bool :=
  b == 34 || b == 92 || b == 47 || b == 98 || b == 102 || b == 110 || b == 114 || b == 116

def isHex (b : UInt8) : Bool := (Bytes.hexDigit? b).isSome

inductive Expect
  | plain
  | escape
  | hex (digits : Nat)

/-- The literal up to its closing quote, and what follows. Control characters and unknown escapes
are refused. -/
def literal? : Expect → Bytes → Option (Bytes × Bytes)
  | _, [] => none
  | .plain, b :: rest =>
    if b == 34 then some ([], rest)
    else if b < 32 then none
    else (literal? (if b == 92 then .escape else .plain) rest).map fun (l, r) => (b :: l, r)
  | .escape, b :: rest =>
    if isShortEscape b then (literal? .plain rest).map fun (l, r) => (b :: l, r)
    else if b == 117 then (literal? (.hex 4) rest).map fun (l, r) => (b :: l, r)
    else none
  | .hex n, b :: rest =>
    if !isHex b then none
    else (literal? (if n ≤ 1 then .plain else .hex (n - 1)) rest).map fun (l, r) => (b :: l, r)

def digits (s : Bytes) : Bytes × Bytes := (s.takeWhile Bytes.isDigit, s.dropWhile Bytes.isDigit)

/-- The integer part of a number: a zero, or digits that do not start with one. -/
def integerPart? : Bytes → Option (Bytes × Bytes)
  | 48 :: rest => some ([48], rest)
  | s => let (ds, rest) := digits s; if ds.isEmpty then none else some (ds, rest)

def fractionPart? : Bytes → Option (Bytes × Bytes)
  | 46 :: rest =>
    let (ds, rest) := digits rest
    if ds.isEmpty then none else some (46 :: ds, rest)
  | s => some ([], s)

def exponentPart? : Bytes → Option (Bytes × Bytes)
  | [] => some ([], [])
  | e :: rest =>
    if e == 101 || e == 69 then
      let (sign, rest) : Bytes × Bytes := match rest with
        | 43 :: more => ([43], more)
        | 45 :: more => ([45], more)
        | _ => ([], rest)
      let (ds, rest) := digits rest
      if ds.isEmpty then none else some (e :: sign ++ ds, rest)
    else some ([], e :: rest)

def number? (s : Bytes) : Option (Bytes × Bytes) := do
  let (sign, s) : Bytes × Bytes := match s with
    | 45 :: rest => ([45], rest)
    | _ => ([], s)
  let (whole, s) ← integerPart? s
  let (fraction, s) ← fractionPart? s
  let (exponent, s) ← exponentPart? s
  return (sign ++ whole ++ fraction ++ exponent, s)

/-- The deepest nesting that is read. -/
def maxDepth : Nat := 10000

mutual

/-- A value and what follows it. The fuel bounds the number of values. -/
def value? : (fuel depth : Nat) → Bytes → Option (Tree × Bytes)
  | 0, _, _ => none
  | fuel + 1, depth, s =>
    match skip s with
    | 123 :: rest =>
      if maxDepth ≤ depth then none
      else match skip rest with
        | 125 :: after => some (object [], after)
        | start => (members? fuel (depth + 1) start).map fun (ms, r) => (object ms, r)
    | 91 :: rest =>
      if maxDepth ≤ depth then none
      else match skip rest with
        | 93 :: after => some (array [], after)
        | start => (items? fuel (depth + 1) start).map fun (vs, r) => (array vs, r)
    | 34 :: rest => (literal? .plain rest).map fun (l, r) => (string l, r)
    | s =>
      match Bytes.dropLeading? "null" s, Bytes.dropLeading? "true" s, Bytes.dropLeading? "false" s with
      | some r, _, _ => some (null, r)
      | _, some r, _ => some (bool true, r)
      | _, _, some r => some (bool false, r)
      | _, _, _ => (number? s).map fun (t, r) => (number t, r)

def items? : (fuel depth : Nat) → Bytes → Option (List Tree × Bytes)
  | 0, _, _ => none
  | fuel + 1, depth, s =>
    (value? fuel depth s).bind fun (v, rest) =>
      match skip rest with
      | 44 :: more => (items? fuel depth more).map fun (vs, r) => (v :: vs, r)
      | 93 :: after => some ([v], after)
      | _ => none

def members? : (fuel depth : Nat) → Bytes → Option (List (Bytes × Tree) × Bytes)
  | 0, _, _ => none
  | fuel + 1, depth, s =>
    match skip s with
    | 34 :: rest =>
      (literal? .plain rest).bind fun (key, rest) =>
        match skip rest with
        | 58 :: rest =>
          (value? fuel depth rest).bind fun (v, rest) =>
            match skip rest with
            | 44 :: more => (members? fuel depth more).map fun (ms, r) => ((key, v) :: ms, r)
            | 125 :: after => some ([(key, v)], after)
            | _ => none
        | _ => none
    | _ => none

end

/-- The tree of a whole text, white space around it allowed. -/
def parse? (s : Bytes) : Option Tree :=
  match value? (2 * s.length + 2) 0 s with
  | some (t, rest) => if (skip rest).isEmpty then some t else none
  | none => none

/-- The number of four hexadecimal digits. -/
def unit? : Bytes → Option Nat
  | a :: b :: c :: d :: _ => do
    let a ← Bytes.hexDigit? a
    let b ← Bytes.hexDigit? b
    let c ← Bytes.hexDigit? c
    let d ← Bytes.hexDigit? d
    return ((a * 16 + b) * 16 + c) * 16 + d
  | _ => none

/-- The second half of a surrogate pair, written as an escape at the front. -/
def lowSurrogate? : Bytes → Option Nat
  | 92 :: 117 :: rest => (unit? rest).bind fun n => if 0xdc00 ≤ n ∧ n < 0xe000 then some n else none
  | _ => none

def shortEscape (b : UInt8) : UInt8 :=
  if b == 98 then 8 else if b == 102 then 12 else if b == 110 then 10
  else if b == 114 then 13 else if b == 116 then 9 else b

/-- The text of a literal after `skip` bytes that are already read. A surrogate that is not half
of a pair and a stray byte become replacement characters. -/
def unescapeAfter : (skip : Nat) → Bytes → Bytes
  | _, [] => []
  | skip + 1, _ :: rest => unescapeAfter skip rest
  | 0, 92 :: rest =>
    match rest with
    | [] => []
    | 117 :: more =>
      match unit? more with
      | none => Utf8.encode Utf8.replacement ++ unescapeAfter 1 rest
      | some n =>
        if 0xd800 ≤ n ∧ n < 0xdc00 then
          match lowSurrogate? (more.drop 4) with
          | some m =>
            Utf8.encode (Char.ofNat (0x10000 + (n - 0xd800) * 1024 + (m - 0xdc00))) ++
              unescapeAfter 11 rest
          | none => Utf8.encode Utf8.replacement ++ unescapeAfter 5 rest
        else if 0xdc00 ≤ n ∧ n < 0xe000 then
          Utf8.encode Utf8.replacement ++ unescapeAfter 5 rest
        else Utf8.encode (Char.ofNat n) ++ unescapeAfter 5 rest
    | b :: _ => shortEscape b :: unescapeAfter 1 rest
  | 0, a :: rest =>
    match Utf8.front? (a :: rest) with
    | some (_, w) => (a :: rest).take w ++ unescapeAfter (w - 1) rest
    | none => Utf8.encode Utf8.replacement ++ unescapeAfter 0 rest

def unescape (literal : Bytes) : Bytes := unescapeAfter 0 literal

end Tree

end EngineHost.Json
