import EngineHost.Yaml.Cursor

/-!
# The text of scalars

Plain and quoted scalars fold line ends: a single one becomes a space, and each further one a line
feed. Literal blocks keep their line ends, folded blocks fold those between lines that are not
indented further.
-/

namespace EngineHost.Yaml

open ReadM

/-- What separates two words of a flow scalar. -/
structure Separation where
  /-- The gaps, while no line has ended. -/
  gaps : List Char := []
  /-- Whether a line has ended. -/
  broken : Bool := false
  /-- The first line end. -/
  firstBreak : List Char := []
  /-- The line ends behind the first, in reverse. -/
  moreBreaks : List Char := []
deriving Inhabited

namespace Separation

def folded (s : Separation) : List Char :=
  if s.broken then
    if s.firstBreak.head? == some '\n' then
      if s.moreBreaks.isEmpty then [' '] else s.moreBreaks.reverse
    else s.firstBreak ++ s.moreBreaks.reverse
  else s.gaps.reverse

/-- Reads gaps and line ends. With `plain` the scalar is a plain one that began there and must be
indented by as many columns, so that a tab may not stand in the indentation. -/
def read (plain : Option (Mark × Int)) : (steps : Nat) → Separation → ReadM Separation
  | 0, s => return s
  | steps + 1, s => do
    let c ← ReadM.peek 0
    if isGap c then
      match plain with
      | some (start, indent) =>
        if s.broken && ((← ReadM.mark).column : Int) < indent && c == '\t' then
          ReadM.fail start .plainTab
      | none => pure ()
      skip
      need 1
      read plain steps (if s.broken then s else { s with gaps := c :: s.gaps })
    else if isBreak c then
      let text ← lineBreak
      need 1
      read plain steps
        (if s.broken then { s with moreBreaks := text.reverse ++ s.moreBreaks }
         else { s with gaps := [], firstBreak := text, broken := true })
    else return s

end Separation

/-- The text of a list of pieces, the last first. -/
def piecesText (pieces : List (List Char)) : Bytes :=
  Bytes.ofChars pieces.reverse.flatten

/-- Characters that end a plain scalar inside a flow collection. -/
def isFlowIndicator (c : Char) : Bool :=
  c == ',' || c == '?' || c == '[' || c == ']' || c == '{' || c == '}'

/-- Whether a word of a plain scalar ends before a character with another one behind it: at a
separator, at a colon before one, and in a flow collection at an indicator. -/
def endsPlainWord (inFlow : Bool) (c next : Char) : Bool :=
  isSeparator c || (c == ':' && isSeparator next) || (inFlow && isFlowIndicator c)

/-- Reads one word of a plain scalar. `word` are its characters so far, in reverse. -/
def plainWord (inFlow : Bool) : (steps : Nat) → (word : List Char) → ReadM (List Char)
  | 0, word => return word.reverse
  | steps + 1, word => do
    let c ← peek 0
    if endsPlainWord inFlow c (← peek 1) then return word.reverse
    skip
    need 2
    plainWord inFlow steps (c :: word)

/-- Reads the words of a plain scalar: its pieces, where its last word ends, and whether a line
ended behind that word. -/
def plainWords (inFlow : Bool) (start : Mark) (indent : Int) :
    (steps : Nat) → (pieces : List (List Char)) → (before : Separation) → (stop : Mark) →
      ReadM (List (List Char) × Mark × Bool)
  | 0, pieces, before, stop => return (pieces, stop, before.broken)
  | steps + 1, pieces, before, stop => do
    need 4
    if (← get).atDocumentMark || (← peek 0) == '#' then
      return (pieces, stop, before.broken)
    let word ← plainWord inFlow ((← total) + 1) []
    let here ← mark
    let (pieces, before, stop) :=
      if word.isEmpty then (pieces, before, stop)
      else (word :: before.folded :: pieces, ({} : Separation), here)
    let c ← peek 0
    if !(isGap c || isBreak c) then return (pieces, stop, before.broken)
    need 1
    let after ← Separation.read (some (start, indent)) ((← total) + 1) before
    if !inFlow && ((← mark).column : Int) < indent then return (pieces, stop, after.broken)
    plainWords inFlow start indent steps pieces after stop

/-- Reads a plain scalar in a block of the given indentation. True when a line ended behind it. -/
def plainScalar (inFlow : Bool) (indent : Int) : ReadM (Token × Bool) := do
  let start ← mark
  let (pieces, stop, broken) ←
    plainWords inFlow start (indent + 1) ((← total) + 1) [] {} start
  return (⟨.scalar (piecesText pieces) .plain, start, stop⟩, broken)

/-- What the character behind a backslash stands for, or how many hexadecimal digits follow it. -/
def escape? (c : Char) : Option (List Char × Nat) :=
  match c with
  | '0' => some (['\x00'], 0)
  | 'a' => some (['\x07'], 0)
  | 'b' => some (['\x08'], 0)
  | 't' => some (['\t'], 0)
  | '\t' => some (['\t'], 0)
  | 'n' => some (['\n'], 0)
  | 'v' => some (['\x0b'], 0)
  | 'f' => some (['\x0c'], 0)
  | 'r' => some (['\r'], 0)
  | 'e' => some (['\x1b'], 0)
  | ' ' => some ([' '], 0)
  | '"' => some (['"'], 0)
  | '\x27' => some (['\x27'], 0)
  | '\\' => some (['\\'], 0)
  | 'N' => some (['\u0085'], 0)
  | '_' => some (['\u00a0'], 0)
  | 'L' => some (['\u2028'], 0)
  | 'P' => some (['\u2029'], 0)
  | 'x' => some ([], 2)
  | 'u' => some ([], 4)
  | 'U' => some ([], 8)
  | _ => none

/-- Reads a character given by its code in hexadecimal digits. -/
def codePoint (start : Mark) (digits : Nat) : ReadM Char := do
  need digits
  let c ← get
  match ((List.range digits).map c.peek).mapM hexValue? with
  | none => ReadM.fail start .hexadecimal
  | some values =>
    let n := values.foldl (fun n d => 16 * n + d) 0
    if (0xd800 ≤ n ∧ n ≤ 0xdfff) ∨ 0x10ffff < n then ReadM.fail start .escapedCodePoint
    else
      skips digits
      return Char.ofNat n

def escaped (start : Mark) : ReadM (List Char) := do
  match escape? (← peek 1) with
  | none => ReadM.fail start .unknownEscape
  | some (text, digits) =>
    skips 2
    if digits = 0 then return text else return [← codePoint start digits]

/-- Reads a word of a quoted scalar, up to a separator, the closing quote or an escaped line end;
true when it ended at the latter. The word is in reverse. -/
def quotedWord (single : Bool) (start : Mark) :
    (steps : Nat) → (word : List Char) → ReadM (List Char × Bool)
  | 0, word => return (word, false)
  | steps + 1, word => do
    let c ← peek 0
    if isSeparator c then return (word, false)
    else if single && c == '\x27' then
      if (← peek 1) == '\x27' then
        skips 2
        need 2
        quotedWord single start steps ('\x27' :: word)
      else return (word, false)
    else if !single && c == '"' then return (word, false)
    else if !single && c == '\\' then
      if isBreak (← peek 1) then
        need 3
        skip
        let _ ← lineBreak
        return (word, true)
      else
        let text ← escaped start
        need 2
        quotedWord single start steps (text ++ word)
    else
      skip
      need 2
      quotedWord single start steps (c :: word)

def quotedWords (single : Bool) (start : Mark) :
    (steps : Nat) → (pieces : List (List Char)) → ReadM (List (List Char))
  | 0, pieces => return pieces
  | steps + 1, pieces => do
    need 4
    if (← get).atDocumentMark then ReadM.fail start .documentMarkInQuotes
    if (← peek 0) == '\x00' then ReadM.fail start .endInQuotes
    let (word, joined) ← quotedWord single start ((← total) + 1) []
    need 1
    let pieces := word.reverse :: pieces
    if (← peek 0) == (if single then '\x27' else '"') then return pieces
    let gap ← Separation.read none ((← total) + 1) { broken := joined }
    quotedWords single start steps (gap.folded :: pieces)

def quotedScalar (single : Bool) : ReadM Token := do
  let start ← mark
  skip
  let pieces ← quotedWords single start ((← total) + 1) []
  skip
  return ⟨.scalar (piecesText pieces) (if single then .singleQuoted else .doubleQuoted), start,
    ← mark⟩

/-- What happens to the line ends at the end of a block. -/
inductive Chomping
  | strip | clip | keep
deriving DecidableEq

def chomping : ReadM (Option Chomping) := do
  let c ← peek 0
  if c == '+' then skip; return some .keep
  else if c == '-' then skip; return some .strip
  else return none

/-- Reads the indentation indicator of a block; 0 if there is none. -/
def indentIndicator (start : Mark) : ReadM Nat := do
  let c ← peek 0
  if c.isDigit then
    if c == '0' then ReadM.fail start .zeroIndent
    else skip; return c.toNat - 48
  else return 0

/-- Reads the line ends before the next line of a block and the spaces that indent it. An
indentation of 0 is not known yet: it is then the widest one found, and at least one column more
than that of the surrounding block. -/
def blockBreaks (start : Mark) (outer : Int) :
    (steps indent widest : Nat) → (breaks : List Char) → (stop : Mark) →
      ReadM (Nat × List Char × Mark)
  | 0, indent, _, breaks, stop => return (indent, breaks, stop)
  | steps + 1, indent, widest, breaks, stop => do
    need 1
    let c ← get
    let room := if indent = 0 then c.total + 1 else indent - c.mark.column
    let _ ← charsFrom (· == ' ') room []
    let column := (← mark).column
    let widest := max widest column
    if (indent = 0 || column < indent) && (← peek 0) == '\t' then ReadM.fail start .blockTab
    if isBreak (← peek 0) then
      let text ← lineBreak
      blockBreaks start outer steps indent widest (breaks ++ text) (← mark)
    else if indent = 0 then
      return (max (max widest (outer + 1).toNat) 1, breaks, stop)
    else return (indent, breaks, stop)

/-- Reads the lines of a block: the pieces read so far, the line end behind the last line, the
line ends behind that, and whether the last line began with a gap. -/
def blockLines (literal : Bool) (start : Mark) (outer : Int) (indent : Nat) :
    (steps : Nat) → (pieces : List (List Char)) → (lastBreak breaks : List Char) →
      (indented : Bool) → (stop : Mark) → ReadM (List (List Char) × List Char × List Char × Mark)
  | 0, pieces, lastBreak, breaks, _, stop => return (pieces, lastBreak, breaks, stop)
  | steps + 1, pieces, lastBreak, breaks, indented, stop => do
    let c ← peek 0
    if (← mark).column != indent || c == '\x00' then return (pieces, lastBreak, breaks, stop)
    let gap := isGap c
    let between :=
      if !literal && !indented && !gap && lastBreak.head? == some '\n' then
        if breaks.isEmpty then [' '] else []
      else lastBreak
    let line ← charsWhile fun c => !isBreakOrEnd c
    let lastBreak ← lineBreak
    let here ← mark
    let (_, breaks', stop) ← blockBreaks start outer ((← total) + 1) indent 0 [] here
    blockLines literal start outer indent steps (line :: breaks :: between :: pieces) lastBreak
      breaks' gap stop

/-- Reads a literal or folded block in a block of the given indentation. -/
def blockScalar (literal : Bool) (outer : Int) : ReadM Token := do
  let start ← mark
  skip
  need 1
  let early ← chomping
  need 1
  let increment ← indentIndicator start
  need 1
  let chomp ← match early with
    | some how => pure how
    | none => if increment = 0 then pure .clip else do pure ((← chomping).getD .clip)
  need 1
  gaps
  if (← peek 0) == '#' then restOfLine
  if !isBreakOrEnd (← peek 0) then ReadM.fail start .blockHeader
  endLine
  let indent := if increment = 0 then 0 else (max outer 0).toNat + increment
  let here ← mark
  let (indent, breaks, stop) ← blockBreaks start outer ((← total) + 1) indent 0 [] here
  need 1
  let (pieces, lastBreak, breaks, stop) ←
    blockLines literal start outer indent ((← total) + 1) [] [] breaks false stop
  let tail := match chomp with
    | .strip => []
    | .clip => lastBreak
    | .keep => lastBreak ++ breaks
  let style := if literal then .literal else .folded
  return ⟨.scalar (piecesText (tail :: pieces)) style, start, stop⟩

end EngineHost.Yaml
