import EngineHost.Text.Printable
import EngineHost.Text.Utf8

/-!
# Quoted text

A text between double quotes: printable characters stand for themselves, the others and stray
bytes are written as escapes.
-/

namespace EngineHost.Quoted

def hexDigits (digits n : Nat) : Bytes := Bytes.padLeft digits (Bytes.ofAscii '0') (Bytes.ofHex n)

def escape (c : Char) : Bytes :=
  let n := c.toNat
  if n = 7 then "\\a" else if n = 8 then "\\b" else if n = 12 then "\\f"
  else if n = 10 then "\\n" else if n = 13 then "\\r" else if n = 9 then "\\t"
  else if n = 11 then "\\v"
  else if n < 0x20 ∨ n = 0x7f then "\\x" ++ hexDigits 2 n
  else if n < 0x10000 then "\\u" ++ hexDigits 4 n
  else "\\U" ++ hexDigits 8 n

/-- One piece of a text as it stands between quotes of the given kind. -/
def piece (quote : Char) : Utf8.Piece → Bytes
  | .stray b => "\\x" ++ Bytes.hexByte b
  | .char c =>
    if c = quote ∨ c = '\\' then "\\" ++ Utf8.encode c
    else if isPrintable c then Utf8.encode c
    else escape c

def text (s : Bytes) : Bytes :=
  "\"" ++ (Utf8.pieces s).flatMap (piece '"') ++ "\""

/-- Whether a text can stand between backquotes, where nothing is escaped. -/
def isRaw (s : Bytes) : Bool :=
  (Utf8.pieces s).all fun
    | .char c => c == '\t' || (32 ≤ c.toNat && c.toNat != 127 && c != '\x60' && c != '\ufeff')
    | .stray _ => false

/-- A text in backquotes if it can stand there, else in double quotes. -/
def rawText (s : Bytes) : Bytes := if isRaw s then "`" ++ s ++ "`" else text s

def char (c : Char) : Bytes := "'" ++ piece '\x27' (.char c) ++ "'"

end EngineHost.Quoted
