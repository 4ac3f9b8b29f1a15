import EngineHost.Yaml.Failure

/-!
# Tokens

The words of a document: indicators, directives, scalars, and the block structure that indentation
stands for.
-/

namespace EngineHost.Yaml

inductive Style
  | plain
  | singleQuoted
  | doubleQuoted
  | literal
  | folded
deriving DecidableEq, Inhabited, Repr

inductive Word
  | streamStart
  | streamEnd
  | version (major minor : Nat)
  | tagHandle (handle expansion : Bytes)
  | documentStart
  | documentEnd
  | blockSequence
  | blockMapping
  | blockEnd
  | openSequence
  | closeSequence
  | openMapping
  | closeMapping
  | blockEntry
  | flowEntry
  | key
  | value
  | alias (name : Bytes)
  | anchor (name : Bytes)
  | tag (handle suffix : Bytes)
  | scalar (text : Bytes) (style : Style)
deriving DecidableEq, Inhabited, Repr

structure Token where
  word : Word
  start : Mark
  stop : Mark
deriving Inhabited, Repr

def isBreak (c : Char) : Bool :=
  c == '\r' || c == '\n' || c == '\u0085' || c == '\u2028' || c == '\u2029'

def isGap (c : Char) : Bool := c == ' ' || c == '\t'

/-- The end of a line or of the text, for which NUL stands. -/
def isBreakOrEnd (c : Char) : Bool := isBreak c || c == '\x00'

/-- Whatever separates words: gaps, line ends and the end of the text. -/
def isSeparator (c : Char) : Bool := isGap c || isBreakOrEnd c

def isWordChar (c : Char) : Bool := c.isAlphanum || c == '_' || c == '-'

def hexValue? (c : Char) : Option Nat :=
  if c.toNat < 128 then Bytes.hexDigit? c.toNat.toUInt8 else none

end EngineHost.Yaml
