import EngineHost.Text.Utf8

/-!
# White space

The characters of the Unicode property White_Space, and trimming them from the ends of a text.
-/

namespace EngineHost

/-- White space in the sense of Unicode, which does not include zero-width characters. -/
def isBlank (c : Char) : Bool :=
  let n := c.toNat
  (9 ≤ n && n ≤ 13) || n == 32 || n == 0x85 || n == 0xa0 || n == 0x1680 ||
    (0x2000 ≤ n && n ≤ 0x200a) || n == 0x2028 || n == 0x2029 || n == 0x202f || n == 0x205f ||
    n == 0x3000

/-- Whether a piece of a text is white space; a stray byte never is. -/
def Utf8.Piece.isBlank : Utf8.Piece → Bool
  | .char c => EngineHost.isBlank c
  | .stray _ => false

/-- A text without the white space at its ends. -/
def Bytes.trim (s : Bytes) : Bytes :=
  let inner := (Utf8.pieces s).dropWhile Utf8.Piece.isBlank
  (inner.reverse.dropWhile Utf8.Piece.isBlank).reverse.flatMap Utf8.Piece.bytes

end EngineHost
