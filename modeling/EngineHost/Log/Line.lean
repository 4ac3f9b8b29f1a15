import EngineHost.Log.Record
import EngineHost.Number.Layout
import EngineHost.Text.Blank

/-!
# Log lines

A record as one line of `key=value` pairs. Keys and texts are quoted when a reader could not tell
where they end.
-/

namespace EngineHost.Log.Line

/-- Whether a piece of a text forces quotes: a blank, an equals sign, a quote, or anything that is
not printable. A backslash does not, nor does the delete character. -/
def forcesQuotes : Utf8.Piece → Bool
  | .stray _ => true
  | .char c =>
    if c.toNat < 0x80 then c.toNat ≤ 32 || c == '=' || c == '"'
    else c == Utf8.replacement || isBlank c || !isPrintable c

def quoted (s : Bytes) : Bytes :=
  if s.isEmpty || (Utf8.pieces s).any forcesQuotes then Quoted.text s else s

/-- An instant with exactly three digits of a second. -/
def milliseconds (t : Instant) : Bytes :=
  let whole := Instant.text { t with nanos := 0 }
  whole.take 19 ++ "." ++ Bytes.padLeft 3 48 (Bytes.ofNat (t.nanos / 1000000)) ++ whole.drop 19

def value : AttrValue → Bytes
  | .string s => quoted s
  | .int64 n => Bytes.ofInt n.toInt
  | .uint64 n => Bytes.ofNat n.toNat
  | .float64 x => Layout.general x
  | .bool b => if b then "true" else "false"
  | .time t => milliseconds t
  | .duration d => d.text
  | .other s => quoted s

def pair (key text : Bytes) : Bytes := quoted key ++ "=" ++ text

/-- The line of a record, with attributes that belong to every record of the logger in front. -/
def render (common : List Attr) (r : Record) : Bytes :=
  let pairs := (common ++ r.attrs).map fun a => pair a.key (value a.value)
  Bytes.join " " (("level=" ++ r.level.text) :: ("msg=" ++ quoted r.message) :: pairs) ++ "\n"

end EngineHost.Log.Line
