import EngineHost.Yaml.Token

/-!
# Reading characters

A cursor holds the characters that are still to be read and counts lines and columns. Behind the
last character it shows NUL. A document is loaded block by block, whenever more characters are
needed than are at hand, and a block that cannot be read fails with its problem. Where a comment is
only looked for, the problem is noted instead, and reading goes on with the characters in front of
it.
-/

namespace EngineHost.Yaml

/-- A place in a document and what follows it. -/
structure Cursor where
  rest : List Char
  /-- The number of characters of the document, which bounds every loop that reads. -/
  total : Nat
  /-- The number of characters at hand. -/
  loaded : Nat := 0
  /-- The numbers of characters in the blocks to come. -/
  blocks : List Nat
  /-- The number of characters in front of the problem in its block. -/
  leftover : Nat := 0
  problem : Option EncodingProblem
  /-- The problem, once it has been met where a comment was looked for. -/
  noted : Option EncodingProblem := none
  /-- The character that stood at the cursor when characters were loaded last. -/
  opening : Char := '\x00'
  mark : Mark := {}
  /-- The lines ended since the last character that was neither a gap nor a line end. -/
  newlines : Nat := 0
deriving Inhabited, Repr

abbrev ReadM := StateT Cursor (Except Failure)

namespace Cursor

/-- The character `k` places ahead. -/
def peek (c : Cursor) (k : Nat) : Char := c.rest.getD k '\x00'

def skip (c : Cursor) : Cursor :=
  { c with
    rest := c.rest.drop 1
    loaded := c.loaded - 1
    mark := { c.mark with index := c.mark.index + 1, column := c.mark.column + 1 }
    newlines := if isGap (c.peek 0) then c.newlines else 0 }

/-- The number of characters that a line end at the cursor takes; carriage return and line feed
count as one line end. -/
def breakWidth (c : Cursor) : Nat :=
  if c.peek 0 == '\r' && c.peek 1 == '\n' then 2 else if isBreak (c.peek 0) then 1 else 0

/-- What a line end at the cursor stands for: a line feed, or the separator itself. -/
def breakText (c : Cursor) : List Char :=
  if c.breakWidth = 0 then []
  else if c.peek 0 == '\u2028' || c.peek 0 == '\u2029' then [c.peek 0]
  else ['\n']

def skipBreak (c : Cursor) : Cursor :=
  match c.breakWidth with
  | 0 => c
  | width =>
    { c with
      rest := c.rest.drop width
      loaded := c.loaded - width
      mark := ⟨c.mark.index + width, c.mark.line + 1, 0⟩
      newlines := c.newlines + 1 }

/-- Whether one of the two marks between documents stands at the cursor. -/
def atDocumentMark (c : Cursor) : Bool :=
  c.mark.column == 0 && isSeparator (c.peek 3) &&
    ((c.peek 0 == '-' && c.peek 1 == '-' && c.peek 2 == '-') ||
      (c.peek 0 == '.' && c.peek 1 == '.' && c.peek 2 == '.'))

/-- Loads blocks until `n` characters are at hand; at the end of the text one NUL is loaded. -/
def loadBlocks (n : Nat) (problem : Option EncodingProblem) :
    (loaded : Nat) → (blocks : List Nat) → Except EncodingProblem (Nat × List Nat)
  | loaded, [] =>
    if n ≤ loaded then .ok (loaded, [])
    else
      match problem with
      | some p => .error p
      | none => .ok (loaded + 1, [])
  | loaded, block :: blocks =>
    if n ≤ loaded then .ok (loaded, block :: blocks)
    else loadBlocks n problem (loaded + block) blocks

/-- Loads what is needed to look at `n` characters. -/
def load (c : Cursor) (n : Nat) : Except EncodingProblem Cursor :=
  if n ≤ c.loaded then .ok c
  else
    match loadBlocks n c.problem c.loaded c.blocks with
    | .ok (loaded, blocks) => .ok { c with loaded, blocks, opening := c.peek 0 }
    | .error p => .error p

/-- Notes a problem; all characters in front of it are at hand. -/
def note (c : Cursor) (p : EncodingProblem) : Cursor :=
  { c with
    loaded := c.loaded + c.blocks.sum + c.leftover
    blocks := []
    leftover := 0
    noted := some p
    opening := c.peek 0 }

end Cursor

namespace ReadM

/-- Fails with what is wrong at the cursor in a construct that began at `start`. -/
def fail {α : Type} (start : Mark) (problem : TokenProblem) : ReadM α := do
  throw (.token start (← get).mark problem)

/-- Requires that the next `n` characters can be looked at. -/
def need (n : Nat) : ReadM Unit := do
  match (← get).load n with
  | .ok c => set c
  | .error problem => throw (.encoding problem)

/-- Whether the next `n` characters can be looked at; a problem is noted. -/
def reaches (n : Nat) : ReadM Bool := do
  let c ← get
  match c.load n with
  | .ok c => set c; return true
  | .error problem => set (c.note problem); return false

/-- The character `k` places ahead. -/
def peek (k : Nat) : ReadM Char := return (← get).peek k

def mark : ReadM Mark := return (← get).mark

def skip : ReadM Unit := modify Cursor.skip

def skips : (n : Nat) → ReadM Unit
  | 0 => pure ()
  | n + 1 => do skip; skips n

def char : ReadM Char := do
  let c ← peek 0
  skip
  return c

def lineBreak : ReadM (List Char) := do
  need 2
  let c ← get
  set c.skipBreak
  return c.breakText

/-- The number of characters of the document, which bounds every loop that reads. -/
def total : ReadM Nat := return (← get).total

/-- Reads characters as long as they satisfy `p`, which must not hold of NUL, with one more
character at hand each time. `read` are those so far, in reverse. -/
def charsFrom (p : Char → Bool) : (steps : Nat) → (read : List Char) → ReadM (List Char)
  | 0, read => return read.reverse
  | steps + 1, read => do
    let c ← peek 0
    if p c then
      skip
      need 1
      charsFrom p steps (c :: read)
    else return read.reverse

/-- Reads the characters of the current line as long as they satisfy `p`, which must not hold of
NUL or of line ends. -/
def charsWhile (p : Char → Bool) : ReadM (List Char) := do charsFrom p ((← total) + 1) []

def gaps : ReadM Unit := do let _ ← charsWhile isGap

def restOfLine : ReadM Unit := do let _ ← charsWhile fun c => !isBreakOrEnd c

def endLine : ReadM Unit := do
  if isBreak (← peek 0) then
    let _ ← lineBreak

/-- How far ahead a comment is looked for. -/
def commentReach : Nat := 512

/-- The distance of a comment behind gaps that begin `k` characters ahead, and behind ends of lines
too if there may be some. -/
def commentAhead (lines : Bool) : (steps k : Nat) → ReadM (Option Nat)
  | 0, _ => return none
  | steps + 1, k => do
    if !(← reaches (k + 1)) then return none
    let c ← peek k
    if c == '#' then return some k
    else if isGap c || (lines && (c == '\r' || c == '\n')) then commentAhead lines steps (k + 1)
    else return none

/-- Moves over lines and gaps to the character of the given index. -/
def moveTo (index : Nat) : (steps : Nat) → ReadM Unit
  | 0 => pure ()
  | steps + 1 => do
    need 1
    if (← mark).index < index then
      if isBreak (← peek 0) then endLine else skip
      moveTo index steps

/-- Moves over a comment and the comments on the lines below it, up to the end of the last of these
lines. A separator of lines other than carriage return and line feed ends the run. -/
def comments : (steps : Nat) → ReadM Unit
  | 0 => pure ()
  | steps + 1 => do
    restOfLine
    let c ← peek 0
    if c == '\r' || c == '\n' then
      match ← commentAhead true (commentReach - 1) 1 with
      | some k =>
        moveTo ((← mark).index + k) (k + 1)
        comments steps
      | none => pure ()

end ReadM

end EngineHost.Yaml
