import EngineHost.Engine.Record
import EngineHost.Number.Literal
import EngineHost.Text.Quoted
import EngineHost.Time.Instant

/-!
# Log records

A log record has a level, a message and typed attributes. Levels are numbers with four named
points, and a name may carry an offset.
-/

namespace EngineHost.Log

structure Level where
  value : Int64
deriving DecidableEq, Repr, Inhabited

namespace Level

def debug : Level := ⟨-4⟩

def info : Level := ⟨0⟩

def warn : Level := ⟨4⟩

def error : Level := ⟨8⟩

/-- A piece of a text in upper case: ASCII letters, and the dotless i as the one other letter whose
upper case is ASCII and occurs in a level's name. -/
def upperPiece : Utf8.Piece → Bytes
  | .char c =>
    if c = 'ı' then "I"
    else if 'a' ≤ c ∧ c ≤ 'z' then [Bytes.ofAscii c - 32]
    else Utf8.encode c
  | .stray b => [b]

def upper (s : Bytes) : Bytes := (Utf8.pieces s).flatMap upperPiece

def named? (s : Bytes) : Option Level :=
  let name := upper s
  if name = "DEBUG" then some debug
  else if name = "INFO" then some info
  else if name = "WARN" then some warn
  else if name = "ERROR" then some error
  else none

/-- A sign, which ends the name of a level. -/
def isSign (b : UInt8) : Bool := b == 43 || b == 45

/-- Reads a level: a name, optionally followed by a signed offset. -/
def parse? (s : Bytes) : Option Level :=
  let name := s.takeWhile fun b => !isSign b
  let tail := s.dropWhile fun b => !isSign b
  (if tail.isEmpty then some 0 else Literal.int64? tail).bind fun offset =>
    (named? name).map fun l => ⟨l.value + offset⟩

/-- The distance from a named level, with its sign; nothing for the level itself. -/
def offsetText (n : Int) : Bytes :=
  if n = 0 then [] else (if 0 < n then "+" else "") ++ Bytes.ofInt n

/-- The text of a level: the highest name that it reaches, and the distance from it. -/
def text (l : Level) : Bytes :=
  let n := l.value.toInt
  if n < 0 then "DEBUG" ++ offsetText (n + 4)
  else if n < 4 then "INFO" ++ offsetText n
  else if n < 8 then "WARN" ++ offsetText (n - 4)
  else "ERROR" ++ offsetText (n - 8)

end Level

inductive AttrValue
  | string (s : Bytes)
  | int64 (n : Int64)
  | uint64 (n : UInt64)
  | float64 (x : Binary64)
  | bool (b : Bool)
  | time (t : Instant)
  | duration (d : Duration)
  /-- A value of another type, by its text. -/
  | other (text : Bytes)
deriving DecidableEq, Repr, Inhabited

/-- The value of an instant. The first second of the year 1 stands for a missing instant and has no
zone. -/
def AttrValue.ofInstant (t : Instant) : AttrValue :=
  .time (if t.seconds = 0 ∧ t.nanos = 0 then {} else t)

structure Attr where
  key : Bytes
  value : AttrValue
deriving DecidableEq, Repr, Inhabited

structure Record where
  level : Level
  message : Bytes
  attrs : List Attr := []
deriving DecidableEq, Repr, Inhabited

/-- The records that a handler with a least level keeps. -/
def visible (least : Level) (records : List Record) : List Record :=
  records.filter fun r => least.value ≤ r.level.value

end EngineHost.Log
