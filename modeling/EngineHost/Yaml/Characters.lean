import EngineHost.Text.Utf8

/-!
# The characters of a document

A document is read in blocks of 512 bytes, in UTF-8 or, behind a byte order mark, in UTF-16. At a
block with an ill-formed or forbidden character reading stops; the characters in front of that one
are kept apart from those of the blocks before.
-/

namespace EngineHost.Yaml

/-- Why a block cannot be read. -/
inductive EncodingProblem
  | leadingOctet
  | trailingOctet
  | incompleteOctets
  | overlong
  | codePoint
  | lowSurrogate
  | missingLowSurrogate
  | incompleteUnit
  | incompletePair
  | control
deriving DecidableEq, Repr

def EncodingProblem.message : EncodingProblem → Bytes
  | leadingOctet => "invalid leading UTF-8 octet"
  | trailingOctet => "invalid trailing UTF-8 octet"
  | incompleteOctets => "incomplete UTF-8 octet sequence"
  | overlong => "invalid length of a UTF-8 sequence"
  | codePoint => "invalid Unicode character"
  | lowSurrogate => "unexpected low surrogate area"
  | missingLowSurrogate => "expected low surrogate area"
  | incompleteUnit => "incomplete UTF-16 character"
  | incompletePair => "incomplete UTF-16 surrogate pair"
  | control => "control characters are not allowed"

inductive Encoding
  | utf8
  | utf16 (littleEndian : Bool)
deriving DecidableEq, Repr

/-- The readable part of a document, and what ends it if that is not the end of the text. -/
structure Characters where
  chars : List Char
  /-- The numbers of characters in the blocks. -/
  blocks : List Nat
  /-- The number of characters in front of the problem in its block; they are the last ones. -/
  leftover : Nat := 0
  problem : Option EncodingProblem
deriving Inhabited, Repr

namespace Characters

/-- The encoding that the first bytes announce, and the bytes behind the mark. -/
def announced : Bytes → Encoding × Bytes
  | 0xff :: 0xfe :: rest => (.utf16 true, rest)
  | 0xfe :: 0xff :: rest => (.utf16 false, rest)
  | 0xef :: 0xbb :: 0xbf :: rest => (.utf8, rest)
  | s => (.utf8, s)

/-- The number of bytes that a lead byte announces, and the bits it contributes. -/
def lead? (b : UInt8) : Option (Nat × Nat) :=
  if b < 0x80 then some (1, b.toNat)
  else if b &&& 0xe0 = 0xc0 then some (2, (b &&& 0x1f).toNat)
  else if b &&& 0xf0 = 0xe0 then some (3, (b &&& 0x0f).toNat)
  else if b &&& 0xf8 = 0xf0 then some (4, (b &&& 0x07).toNat)
  else none

/-- The smallest number that needs a sequence of this width. -/
def leastOf : (width : Nat) → Nat
  | 2 => 0x80
  | 3 => 0x800
  | 4 => 0x10000
  | _ => 0

/-- The code point and width at the front of a UTF-8 text; nothing when the text ends inside a
character. -/
def frontUtf8 : Bytes → Except EncodingProblem (Option (Nat × Nat))
  | [] => .ok none
  | b :: rest =>
    match lead? b with
    | none => .error .leadingOctet
    | some (width, bits) =>
      let tail := rest.take (width - 1)
      if tail.length < width - 1 then .ok none
      else if tail.any fun c => c &&& 0xc0 != 0x80 then .error .trailingOctet
      else
        let n := tail.foldl (fun n c => 64 * n + (c &&& 0x3f).toNat) bits
        if n < leastOf width then .error .overlong
        else if (0xd800 ≤ n ∧ n ≤ 0xdfff) ∨ 0x10ffff < n then .error .codePoint
        else .ok (some (n, width))

def unit (littleEndian : Bool) (a b : UInt8) : Nat :=
  if littleEndian then a.toNat + 256 * b.toNat else 256 * a.toNat + b.toNat

/-- Whether a UTF-16 unit is the second half of a pair. -/
def isLow (u : Nat) : Bool := 0xdc00 ≤ u && u ≤ 0xdfff

/-- The code point and width at the front of a UTF-16 text; nothing when the text ends inside a
character. -/
def frontUtf16 (littleEndian : Bool) : Bytes → Except EncodingProblem (Option (Nat × Nat))
  | a :: b :: rest =>
    let u := unit littleEndian a b
    if isLow u then .error .lowSurrogate
    else if 0xd800 ≤ u ∧ u ≤ 0xdbff then
      match rest with
      | c :: d :: _ =>
        let v := unit littleEndian c d
        if isLow v then .ok (some (0x10000 + 0x400 * (u - 0xd800) + (v - 0xdc00), 4))
        else .error .missingLowSurrogate
      | _ => .ok none
    else .ok (some (u, 2))
  | _ => .ok none

/-- The code point and width at the front of a text. -/
def front : Encoding → Bytes → Except EncodingProblem (Option (Nat × Nat))
  | .utf8 => frontUtf8
  | .utf16 littleEndian => frontUtf16 littleEndian

/-- The problem of a text that ends inside a character. -/
def incomplete : Encoding → Bytes → EncodingProblem
  | .utf8, _ => .incompleteOctets
  | .utf16 _, s => if s.length < 2 then .incompleteUnit else .incompletePair

def allowed (n : Nat) : Bool :=
  n == 0x09 || n == 0x0a || n == 0x0d || (0x20 ≤ n && n ≤ 0x7e) || n == 0x85 ||
    (0xa0 ≤ n && n ≤ 0xd7ff) || (0xe000 ≤ n && n ≤ 0xfffd) || 0x10000 ≤ n

/-- The characters of a block, with the bytes of a last one that is cut off or with the problem at
which reading stops. The width of the block bounds the number of steps; `read` are the characters so
far, in reverse. -/
def blockFrom (encoding : Encoding) :
    (steps : Nat) → (read : List Char) → Bytes → List Char × Except EncodingProblem Bytes
  | 0, read, s => (read.reverse, .ok s)
  | steps + 1, read, s =>
    if s.isEmpty then (read.reverse, .ok [])
    else
      match front encoding s with
      | .error p => (read.reverse, .error p)
      | .ok none => (read.reverse, .ok s)
      | .ok (some (n, width)) =>
        if allowed n then blockFrom encoding steps (Char.ofNat n :: read) (s.drop width)
        else (read.reverse, .error .control)

def blockLength : Nat := 512

/-- Reads on, block by block; the first one is of `size` bytes. `cut` is the beginning of a
character at the end of the last block. The result is the blocks, and what stops the reading with
the characters in front of it. -/
def readBlocks (encoding : Encoding) :
    (steps size : Nat) → (cut rest : Bytes) → (read : List (List Char)) →
      List (List Char) × Option (List Char × EncodingProblem)
  | 0, _, _, _, read => (read.reverse, none)
  | steps + 1, size, cut, rest, read =>
    if rest.isEmpty then
      (read.reverse, if cut.isEmpty then none else some ([], incomplete encoding cut))
    else
      match blockFrom encoding blockLength [] (cut ++ rest.take size) with
      | (block, .error p) => (read.reverse, some (block, p))
      | (block, .ok cut') =>
        readBlocks encoding steps (blockLength - cut'.length) cut' (rest.drop size) (block :: read)

/-- The characters of a document. A byte order mark is a part of the first block. -/
def ofBytes (s : Bytes) : Characters :=
  let (encoding, start) := announced s
  let size := blockLength - (s.length - start.length)
  let (blocks, stop) := readBlocks encoding (s.length + 1) size [] start []
  let leftover := (stop.map Prod.fst).getD []
  { chars := blocks.flatten ++ leftover
    blocks := blocks.map List.length
    leftover := leftover.length
    problem := stop.map Prod.snd }

end Characters

end EngineHost.Yaml
