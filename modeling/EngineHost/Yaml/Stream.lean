import EngineHost.Yaml.Scalar
import EngineHost.Yaml.Tag

/-!
# The stream of tokens

Tokens are read on demand. A key that is not marked as one is recognised only by the colon behind
it, so its position is remembered and the key token is put in front of it later. The stream
therefore holds back a token that may turn out to begin a key, and otherwise stays two tokens
ahead of its reader.
-/

namespace EngineHost.Yaml

/-- A place where a key without an indicator may have begun. There is one for the block outside all
flow collections, at level 0, and one for each open flow collection. -/
structure PossibleKey where
  possible : Bool := false
  /-- Whether nothing but a key can stand there. -/
  required : Bool := false
  /-- The number of the token at that place. -/
  number : Nat := 0
  mark : Mark := {}
deriving Inhabited, Repr

structure Stream where
  cursor : Cursor
  started : Bool := false
  /-- The tokens read but not yet taken. -/
  queue : List Token := []
  /-- The number of tokens taken. -/
  taken : Nat := 0
  /-- The column of the current block, -1 outside all blocks. -/
  indent : Int := -1
  /-- The columns of the surrounding blocks. -/
  outer : List Int := []
  /-- The number of open flow collections. -/
  depth : Nat := 0
  /-- The possible keys, that of the innermost level first. There is one more than open flow
  collections. -/
  keys : List PossibleKey := [{}]
  /-- The numbers of the tokens that are held back, each with the level of its key. -/
  held : List (Nat × Nat) := []
  /-- Whether a key may begin at the cursor. -/
  keyAllowed : Bool := true
deriving Inhabited, Repr

abbrev StreamM := StateT Stream (Except Failure)

namespace Stream

def read {α : Type} (m : ReadM α) : StreamM α := do
  let s ← get
  let (a, cursor) ← m.run s.cursor
  set { s with cursor }
  return a

def mark : StreamM Mark := return (← get).cursor.mark

/-- Fails at the cursor in a construct that began at `start`. -/
def fail {α : Type} (start : Mark) (problem : TokenProblem) : StreamM α :=
  read (ReadM.fail start problem)

/-- Adds a token at the end of the queue. -/
def push (t : Token) : StreamM Unit := modify fun s => { s with queue := s.queue ++ [t] }

/-- Adds a token in front of the token with the given number, or at the end if that one is taken. -/
def insertAt (number : Nat) (t : Token) : StreamM Unit := do
  if number < (← get).taken then push t
  else
    modify fun s =>
      let k := number - s.taken
      { s with queue := s.queue.take k ++ t :: s.queue.drop k }

/-- Whether keys may be found in a flow collection. -/
def inFlow : StreamM Bool := return (← get).depth != 0

def allowKey (allowed : Bool) : StreamM Unit := modify fun s => { s with keyAllowed := allowed }

/-- A possible key is given up once its line has ended or 1024 characters have passed. -/
def expired (k : PossibleKey) (here : Mark) : Bool :=
  k.mark.line < here.line || k.mark.index + 1024 < here.index

def keyAt (level : Nat) : StreamM PossibleKey := do
  let s ← get
  return s.keys.getD (s.depth - level) {}

def setKeyAt (level : Nat) (k : PossibleKey) : StreamM Unit := modify fun s =>
  { s with keys := s.keys.set (s.depth - level) k }

/-- Whether the possible key of a level still is one; if it has expired it is given up, and it fails
if it is required. -/
def valid (level : Nat) : StreamM Bool := do
  let k ← keyAt level
  if !k.possible then return false
  if expired k (← mark) then
    if k.required then fail k.mark .keyWithoutColon
    setKeyAt level { k with possible := false }
    return false
  return true

def level : StreamM Nat := return (← get).depth

def setKey (k : PossibleKey) : StreamM Unit := do setKeyAt (← level) k

def innerKey : StreamM PossibleKey := do keyAt (← level)

/-- No longer holds back the token of a number. -/
def release (number : Nat) : StreamM Unit := modify fun s =>
  { s with held := s.held.filter fun h => h.1 != number }

/-- Gives up the innermost possible key, which must not be required. -/
def dropKey : StreamM Unit := do
  let k ← innerKey
  if k.possible then
    if k.required then fail k.mark .keyWithoutColon
    setKey { k with possible := false }
    release k.number

/-- Remembers the cursor as the place of a possible key, if one may begin there. -/
def saveKey : StreamM Unit := do
  let s ← get
  if s.keyAllowed then
    let here := s.cursor.mark
    let number := s.taken + s.queue.length
    dropKey
    setKey ⟨true, s.depth == 0 && s.indent == here.column, number, here⟩
    release number
    modify fun s => { s with held := (number, s.depth) :: s.held }

/-- The largest number of collections inside each other. -/
def maxDepth : Nat := 10000

/-- Opens a block at a column beyond the current one, with its token in front of the token of the
given number, or at the end. -/
def openBlock (column : Nat) (number : Option Nat) (word : Word) (here : Mark) : StreamM Unit := do
  let s ← get
  if s.depth == 0 && s.indent < (column : Int) then
    let outer := s.indent :: s.outer
    set { s with indent := (column : Int), outer }
    if maxDepth < outer.length then fail (← innerKey).mark .blockDepth
    match number with
    | some n => insertAt n ⟨word, here, here⟩
    | none => push ⟨word, here, here⟩

/-- Closes the blocks that begin beyond a column. -/
def closeBlocks (column : Int) (here : Mark) : StreamM Unit := do
  let s ← get
  if s.depth == 0 then
    let closed := (s.indent :: s.outer).takeWhile fun c => column < c
    match (s.indent :: s.outer).drop closed.length with
    | [] => pure ()
    | indent :: outer =>
      set { s with
        indent, outer
        queue := s.queue ++ closed.map fun _ => (⟨.blockEnd, here, here⟩ : Token) }

def indicator (n : Nat) (word : Word) : StreamM Unit := do
  let start ← mark
  read (ReadM.skips n)
  push ⟨word, start, ← mark⟩

/-- Moves over gaps, comments and line ends to the next token. A tab counts as a gap only where no
key may begin, or before a comment below another one. If characters were loaded last at a byte order
mark, every line gives up its first character. -/
def toNextToken : (steps : Nat) → StreamM Unit
  | 0 => pure ()
  | steps + 1 => do
    read (ReadM.need 1)
    let s ← get
    if s.cursor.mark.column == 0 && s.cursor.opening == '\ufeff' then
      read ReadM.skip
      read (ReadM.need 1)
    let tabs := s.depth != 0 || !s.keyAllowed
    let _ ← read (ReadM.charsWhile fun c => c == ' ' || (tabs && c == '\t'))
    let c := (← get).cursor
    if c.peek 0 == '#' then read (ReadM.comments (c.total + 1))
    if isBreak ((← get).cursor.peek 0) then
      let _ ← read ReadM.lineBreak
      if (← get).depth == 0 then allowKey true
      toNextToken steps

/-- Moves over a comment behind a token on the same line. -/
def lineComment : StreamM Unit := do
  if (← get).cursor.newlines == 0 then
    match ← read (ReadM.commentAhead false ReadM.commentReach 0) with
    | some _ => read ReadM.restOfLine
    | none => pure ()

/-- Ends the stream: the last line counts as ended. -/
def endStream : StreamM Unit := do
  modify fun s =>
    let m := s.cursor.mark
    if m.column == 0 then s
    else { s with cursor := { s.cursor with mark := ⟨m.index, m.line + 1, 0⟩ } }
  closeBlocks (-1) (← mark)
  dropKey
  allowKey false
  push ⟨.streamEnd, ← mark, ← mark⟩

def directiveToken : StreamM Unit := do
  closeBlocks (-1) (← mark)
  dropKey
  allowKey false
  push (← read directive)

def documentMark (word : Word) : StreamM Unit := do
  closeBlocks (-1) (← mark)
  dropKey
  allowKey false
  indicator 3 word

/-- Opens a flow collection, which may itself be a key. -/
def openFlow (word : Word) : StreamM Unit := do
  saveKey
  let s ← get
  let here := s.cursor.mark
  set { s with
    keys := ⟨false, false, s.taken + s.queue.length, here⟩ :: s.keys, depth := s.depth + 1 }
  if maxDepth < s.depth + 1 then fail here .flowDepth
  allowKey true
  indicator 1 word

/-- Closes a flow collection. If no key began in it, the possible key of its level still has the
number of the token that opened the collection, which is then no longer held back. -/
def closeFlow (word : Word) : StreamM Unit := do
  dropKey
  if (← get).depth != 0 then
    release (← innerKey).number
    modify fun s => { s with depth := s.depth - 1, keys := s.keys.tail }
  allowKey false
  indicator 1 word

def flowEntry : StreamM Unit := do
  dropKey
  allowKey true
  indicator 1 .flowEntry

/-- Reads the dash of a block sequence, which may begin the sequence. -/
def blockEntry : StreamM Unit := do
  let s ← get
  let here := s.cursor.mark
  if s.depth == 0 then
    if !s.keyAllowed then fail here .entryNotAllowed
    openBlock here.column none .blockSequence here
  dropKey
  allowKey true
  indicator 1 .blockEntry

/-- Reads the indicator of a key, which may begin a block mapping. -/
def keyMark : StreamM Unit := do
  let s ← get
  let here := s.cursor.mark
  if s.depth == 0 then
    if !s.keyAllowed then fail here .keyNotAllowed
    openBlock here.column none .blockMapping here
  dropKey
  allowKey (s.depth == 0)
  indicator 1 .key

/-- Reads the colon between a key and its value. If a possible key stands before it, the key token
and the beginning of a block mapping are put in front of that. -/
def valueMark : StreamM Unit := do
  let k ← innerKey
  if ← valid (← level) then
    insertAt k.number ⟨.key, k.mark, k.mark⟩
    openBlock k.mark.column (some k.number) .blockMapping k.mark
    setKey { k with possible := false }
    release k.number
    allowKey false
  else
    let s ← get
    let here := s.cursor.mark
    if s.depth == 0 then
      if !s.keyAllowed then fail here .valueNotAllowed
      openBlock here.column none .blockMapping here
    allowKey (s.depth == 0)
  indicator 1 .value

/-- Reads a token that may begin a key and allows none behind it. -/
def keyStart (m : ReadM Token) : StreamM Unit := do
  saveKey
  allowKey false
  push (← read m)

def blockText (literal : Bool) : StreamM Unit := do
  dropKey
  allowKey true
  push (← read (blockScalar literal (← get).indent))

/-- Reads a plain scalar; if a line ended behind it, a key may begin there. -/
def plainText : StreamM Unit := do
  saveKey
  allowKey false
  let s ← get
  let (t, broken) ← read (plainScalar (s.depth != 0) s.indent)
  push t
  if broken then allowKey true

/-- Whether a plain scalar may begin with a character before another one. -/
def startsPlain (inFlow : Bool) (c next : Char) : Bool :=
  !(isSeparator c || c == '-' || c == '?' || c == ':' || c == ',' || c == '[' || c == ']' ||
    c == '{' || c == '}' || c == '#' || c == '&' || c == '*' || c == '!' || c == '|' ||
    c == '>' || c == '\x27' || c == '"' || c == '%' || c == '@' || c == '\x60') ||
  (c == '-' && !isGap next) || (!inFlow && (c == '?' || c == ':') && !isSeparator next)

def tokenAt (c next : Char) (inFlow : Bool) : StreamM Unit :=
  if c == '[' then openFlow .openSequence
  else if c == '{' then openFlow .openMapping
  else if c == ']' then closeFlow .closeSequence
  else if c == '}' then closeFlow .closeMapping
  else if c == ',' then flowEntry
  else if c == '-' && isSeparator next then blockEntry
  else if c == '?' && (inFlow || isSeparator next) then keyMark
  else if c == ':' && (inFlow || isSeparator next) then valueMark
  else if c == '*' then keyStart (anchorName .alias)
  else if c == '&' then keyStart (anchorName .anchor)
  else if c == '!' then keyStart tagToken
  else if c == '|' && !inFlow then blockText true
  else if c == '>' && !inFlow then blockText false
  else if c == '\x27' then keyStart (quotedScalar true)
  else if c == '"' then keyStart (quotedScalar false)
  else if startsPlain inFlow c next then plainText
  else do fail (← mark) .noToken

/-- Reads the next token, with the tokens that it implies. -/
def fetch : StreamM Unit := do
  read (ReadM.need 1)
  if !(← get).started then
    modify fun s => { s with started := true }
    push ⟨.streamStart, ← mark, ← mark⟩
    return
  let before ← mark
  toNextToken ((← get).cursor.total + 1)
  closeBlocks (← mark).column before
  read (ReadM.need 4)
  let s ← get
  let c := s.cursor.peek 0
  if c == '\x00' then endStream
  else if s.cursor.mark.column == 0 && c == '%' then directiveToken
  else if s.cursor.atDocumentMark then
    documentMark (if c == '-' then .documentStart else .documentEnd)
  else
    tokenAt c (s.cursor.peek 1) (s.depth != 0)
    match (← get).queue.getLast? with
    | some ⟨.blockEntry, _, _⟩ => pure ()
    | _ => lineComment

/-- Whether the token at the head of the queue is held back as the possible beginning of a key. -/
def headMayBeKey : StreamM Bool := do
  let s ← get
  match s.held.lookup s.taken with
  | some level => valid level
  | none => return false

/-- Reads tokens until the head of the queue is settled. -/
def fill : (steps : Nat) → StreamM Unit
  | 0 => pure ()
  | steps + 1 => do
    let few := (← get).queue.length ≤ 2
    let more ← if few then pure true else headMayBeKey
    if more then
      fetch
      fill steps

def peek : StreamM Token := do
  fill ((← get).cursor.total + 8)
  return (← get).queue.headD ⟨.streamEnd, ← mark, ← mark⟩

def take : StreamM Unit := modify fun s => { s with queue := s.queue.tail, taken := s.taken + 1 }

def ofBytes (s : Bytes) : Stream :=
  let characters := Characters.ofBytes s
  { cursor :=
      { rest := characters.chars
        total := characters.chars.length
        blocks := characters.blocks
        leftover := characters.leftover
        problem := characters.problem } }

end Stream

end EngineHost.Yaml
