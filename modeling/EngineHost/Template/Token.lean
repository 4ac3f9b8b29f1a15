import EngineHost.Template.Directive
import EngineHost.Text.Letter

/-!
# Tokens of a template

A template is text in which actions stand between `{{` and `}}`. A minus sign with a blank beside a
delimiter trims the text outside it, and comments stand between delimiters of their own. Tokens
carry their offset and their line, which messages name. The first thing that is no token ends the
list.
-/

namespace EngineHost.Template

inductive Keyword
  | block | leave | skip | define | otherwise | close | cond | null | range | template | bind
deriving DecidableEq, Repr

namespace Keyword

def ofName? (w : Bytes) : Option Keyword :=
  [("block", block), ("break", leave), ("continue", skip), ("define", define),
    ("else", otherwise), ("end", close), ("if", cond), ("nil", null), ("range", range),
    ("template", template), ("with", bind)].findSome? fun (name, k) =>
      if Bytes.ofString name = w then some k else none

/-- The number of a keyword among the kinds of tokens. -/
def code : Keyword → Nat
  | block => 23
  | leave => 24
  | skip => 25
  | define => 27
  | otherwise => 28
  | close => 29
  | cond => 30
  | null => 31
  | range => 32
  | template => 33
  | bind => 34

end Keyword

namespace Token

inductive Kind
  | text | leftDelim | rightDelim | space | assign | declare | pipe | quoted | rawQuoted
  | charConstant | number | complex | variable | field | dot | name | bool
  | keyword (k : Keyword)
  | symbol | leftParen | rightParen | eof
  /-- What stands there is no token; the text is the message. -/
  | bad
deriving DecidableEq, Repr, Inhabited

def Kind.code : Kind → Nat
  | .bad => 0
  | .bool => 1
  | .symbol => 2
  | .charConstant => 3
  | .complex => 5
  | .assign => 6
  | .declare => 7
  | .eof => 8
  | .field => 9
  | .name => 10
  | .leftDelim => 11
  | .leftParen => 12
  | .number => 13
  | .pipe => 14
  | .rawQuoted => 15
  | .rightDelim => 16
  | .rightParen => 17
  | .space => 18
  | .quoted => 19
  | .text => 20
  | .variable => 21
  | .dot => 26
  | .keyword k => k.code

end Token

structure Token where
  kind : Token.Kind
  pos : Nat
  line : Nat
  text : Bytes
deriving DecidableEq, Repr, Inhabited

namespace Token

def shown (t : Token) : Bytes :=
  match t.kind with
  | .eof => "EOF"
  | .bad => t.text
  | .keyword _ => "<" ++ t.text ++ ">"
  | .dot => "<" ++ t.text ++ ">"
  | _ =>
    if 10 < t.text.length then
      Quoted.text (((Utf8.pieces (t.text.take 40)).take 10).flatMap Utf8.Piece.bytes) ++ "..."
    else Quoted.text t.text

def thing (t : Token) : Format.Thing where
  typeName := "parse.item"
  text := t.shown
  parts := [⟨"typ", "parse.itemType", int t.kind.code⟩, ⟨"pos", "parse.Pos", int t.pos⟩,
    ⟨"val", "string", .string t.text⟩, ⟨"line", "int", int t.line⟩]
where
  /-- A number as a value. -/
  int (n : Nat) : Datum := .int (Int64.ofNat n)

/-- White space between and around actions. -/
def isSpace (b : UInt8) : Bool := b = 32 ∨ b = 9 ∨ b = 13 ∨ b = 10

def newlines (s : Bytes) : Nat := s.count 10

structure Cursor where
  rest : Bytes
  pos : Nat
  line : Nat

namespace Cursor

/-- The place behind the next `n` bytes. -/
def drop (c : Cursor) (n : Nat) : Cursor :=
  ⟨c.rest.drop n, c.pos + n, c.line + newlines (c.rest.take n)⟩

def dropSpace (c : Cursor) : Cursor := c.drop (c.rest.takeWhile isSpace).length

def token (c : Cursor) (kind : Kind) (n : Nat) : Token := ⟨kind, c.pos, c.line, c.rest.take n⟩

def bad (c : Cursor) (message : Bytes) : Token := ⟨.bad, c.pos, c.line, message⟩

end Cursor

/-- Whether the text starts with a minus sign and a blank, which trims the text in front. -/
def trimsLeft : Bytes → Bool
  | 45 :: b :: _ => isSpace b
  | _ => false

/-- The length of the closing delimiter, if one stands there, and whether it trims the text
behind it. -/
def closing? (s : Bytes) : Option (Nat × Bool) :=
  match s with
  | 125 :: 125 :: _ => some (2, false)
  | b :: 45 :: 125 :: 125 :: _ => if isSpace b then some (4, true) else none
  | _ => none

def ends : Bytes → Bool
  | [] => true
  | 125 :: 125 :: _ => true
  | b :: _ => isSpace b || [46, 44, 124, 58, 41, 40].contains b

/-- The length of the run of name characters behind `skip` bytes of the last one. -/
def nameLength : (skip : Nat) → Bytes → Nat
  | _, [] => 0
  | skip + 1, _ :: rest => 1 + nameLength skip rest
  | 0, a :: rest =>
    match Utf8.front? (a :: rest) with
    | some (n, w) => if isNameChar (Char.ofNat n) then 1 + nameLength (w - 1) rest else 0
    | none => 0

/-- The character at the front; a stray byte reads as the replacement character. -/
def frontChar (s : Bytes) : Char :=
  match Utf8.front? s with
  | some (n, _) => Char.ofNat n
  | none => Utf8.replacement

def named (c : Char) : Bytes := Format.codePoint { sharp := true } c.toNat

/-- The length of a text in quotes, counted behind the opening quote; a backslash keeps the next
character from closing it, and no line ends inside. -/
def quotedLength? (quote : UInt8) : Bytes → Option Nat
  | [] => none
  | b :: rest =>
    if b = quote then some 1
    else if b = 10 then none
    else if b = 92 then
      match rest with
      | [] => none
      | c :: rest' => if c = 10 then none else (quotedLength? quote rest').map (· + 2)
    else (quotedLength? quote rest).map (· + 1)

/-- How many digits and underscores stand in front of a text. -/
def digitRun (isDigit : UInt8 → Bool) (s : Bytes) : Nat :=
  (s.takeWhile fun b => isDigit b || b == 95).length

/-- The length of a number, and whether a name goes on behind it. Its parts are a sign, a base,
digits, a fraction, an exponent and an imaginary unit, each of which may be missing. -/
def numberLength (s : Bytes) : Nat × Bool :=
  let accept (set : List UInt8) (s : Bytes) : Nat := match s with
    | b :: _ => if set.contains b then 1 else 0
    | [] => 0
  let sign := accept [43, 45] s
  let nought := accept [48] (s.drop sign)
  let body := sign + nought
  let mark (set : List UInt8) : Bool := nought == 1 && accept set (s.drop body) == 1
  let isHex := mark [120, 88]
  let isOctal := mark [111, 79]
  let isBinary := mark [98, 66]
  let isDigit : UInt8 → Bool :=
    if isHex then fun b => (Bytes.hexDigit? b).isSome
    else if isOctal then fun b => 48 ≤ b && b ≤ 55
    else if isBinary then fun b => b == 48 || b == 49
    else Bytes.isDigit
  let n := if isHex || isOctal || isBinary then body + 1 else body
  let n := n + digitRun isDigit (s.drop n)
  let n := if accept [46] (s.drop n) = 1 then n + 1 + digitRun isDigit (s.drop (n + 1)) else n
  let marks : List UInt8 :=
    if isHex then [112, 80] else if isOctal || isBinary then [] else [101, 69]
  let n :=
    if accept marks (s.drop n) = 1 then
      let k := n + 1 + accept [43, 45] (s.drop (n + 1))
      k + digitRun Bytes.isDigit (s.drop k)
    else n
  let n := n + accept [105] (s.drop n)
  (n, 0 < nameLength 0 (s.drop n))

def frontWidth (s : Bytes) : Nat := ((Utf8.front? s).map (·.2)).getD 1

def numberToken (c : Cursor) : Token :=
  let wrong (n : Nat) : Token := c.bad ("bad number syntax: " ++ Quoted.text (c.rest.take n))
  let (n, runsOn) := numberLength c.rest
  if runsOn then wrong (n + frontWidth (c.rest.drop n))
  else
    match c.rest.drop n with
    | b :: _ =>
      if b = 43 ∨ b = 45 then
        let (m, runsOn) := numberLength (c.rest.drop n)
        let length := n + m + (if runsOn then frontWidth (c.rest.drop (n + m)) else 0)
        if runsOn || (c.rest.take length).getLast? != some 105 then wrong length
        else c.token .complex length
      else c.token .number n
    | [] => c.token .number n

def wordKind (w : Bytes) : Kind :=
  match Keyword.ofName? w with
  | some k => .keyword k
  | none => if w = "true" ∨ w = "false" then .bool else .name

/-- A name behind `lead` bytes, which has to end where names end. -/
def nameToken (c : Cursor) (lead : Nat) (kind : Bytes → Kind) : Token :=
  let n := lead + nameLength 0 (c.rest.drop lead)
  if ends (c.rest.drop n) then c.token (kind (c.rest.take n)) n
  else c.bad ("bad character " ++ named (frontChar (c.rest.drop n)))

def quotedToken (c : Cursor) (kind : Kind) (length : Option Nat) (complaint : Bytes) : Token :=
  match length with
  | some n => c.token kind (n + 1)
  | none => c.bad complaint

/-- White space between operands; the last blank in front of a trimming delimiter belongs to
that. -/
def spaceToken (c : Cursor) : Token :=
  let n := (c.rest.takeWhile isSpace).length
  match closing? (c.rest.drop (n - 1)) with
  | some (_, true) => c.token .space (n - 1)
  | _ => c.token .space n

/-- The next token inside an action, where `depth` parentheses are open. -/
def actionToken (c : Cursor) (depth : Nat) : Token :=
  match c.rest with
  | [] => c.bad "unclosed action"
  | b :: rest =>
    if isSpace b then spaceToken c
    else if b = 61 then c.token .assign 1
    else if b = 58 then
      if rest.head? == some 61 then c.token .declare 2 else c.bad "expected :="
    else if b = 124 then c.token .pipe 1
    else if b = 34 then
      quotedToken c .quoted (quotedLength? 34 rest) "unterminated quoted string"
    else if b = 96 then
      quotedToken c .rawQuoted ((Bytes.cut 96 rest).map fun (inner, _) => inner.length + 1)
        "unterminated raw quoted string"
    else if b = 39 then
      quotedToken c .charConstant (quotedLength? 39 rest) "unterminated character constant"
    else if b = 36 then nameToken c 1 fun _ => .variable
    else if b = 46 && (match rest with | d :: _ => !Bytes.isDigit d | [] => false) then
      if ends rest then c.token .dot 1 else nameToken c 1 fun _ => .field
    else if b = 46 ∨ b = 43 ∨ b = 45 ∨ Bytes.isDigit b then numberToken c
    else if isNameChar (frontChar c.rest) then nameToken c 0 wordKind
    else if b = 40 then c.token .leftParen 1
    else if b = 41 then
      if depth = 0 then c.bad "unexpected right paren" else c.token .rightParen 1
    else if 33 ≤ b ∧ b ≤ 126 then c.token .symbol 1
    else c.bad ("unrecognized character in action: " ++ named (frontChar c.rest))

/-- Where a template is read. -/
inductive Mode
  | text
  /-- Inside an action with open parentheses. -/
  | action (depth : Nat)

/-- Some tokens, and where reading goes on. -/
structure Step where
  tokens : List Token
  next : Option (Mode × Cursor)

/-- Skips a comment, whose opening mark stands at the cursor. -/
def comment (c : Cursor) : Step :=
  match Bytes.cutAt "*/" (c.rest.drop 2) with
  | none => ⟨[c.bad "unclosed comment"], none⟩
  | some (inner, after) =>
    match closing? after with
    | none => ⟨[c.bad "comment ends before closing delimiter"], none⟩
    | some (n, trims) =>
      let c := c.drop (inner.length + 4 + n)
      ⟨[], some (.text, if trims then c.dropSpace else c)⟩

/-- Reads text up to and with the next opening delimiter. -/
def textStep (c : Cursor) : Step :=
  match Bytes.cutAt "\x7b\x7b" c.rest with
  | none => ⟨(if c.rest.isEmpty then [] else [c.token .text c.rest.length]) ++
      [(c.drop c.rest.length).token .eof 0], none⟩
  | some (before, after) =>
    let trims := trimsLeft after
    let kept := if trims then (Bytes.dropTrailing isSpace before).length else before.length
    let text := if kept = 0 then [] else [c.token .text kept]
    let delim := c.drop before.length
    let inner := delim.drop (if trims then 4 else 2)
    if Bytes.startsWith inner.rest "/*" then
      let step := comment inner
      ⟨text ++ step.tokens, step.next⟩
    else ⟨text ++ [delim.token .leftDelim 2], some (.action 0, inner)⟩

def actionStep (c : Cursor) (depth : Nat) : Step :=
  match closing? c.rest with
  | some (n, trims) =>
    if depth = 0 then
      let delim := c.drop (n - 2)
      let after := delim.drop 2
      ⟨[delim.token .rightDelim 2], some (.text, if trims then after.dropSpace else after)⟩
    else ⟨[c.bad "unclosed left paren"], none⟩
  | none =>
    let t := actionToken c depth
    let depth := match t.kind with
      | .leftParen => depth + 1
      | .rightParen => depth - 1
      | _ => depth
    ⟨[t], if t.kind = .bad then none else some (.action depth, c.drop t.text.length)⟩

def step (c : Cursor) : Mode → Step
  | .text => textStep c
  | .action depth => actionStep c depth

/-- The tokens from a place on; every step but the last passes over at least one byte. -/
def scan : (fuel : Nat) → Mode → Cursor → List Token
  | 0, _, _ => []
  | fuel + 1, mode, c =>
    let s := step c mode
    match s.next with
    | none => s.tokens
    | some (mode', c') => s.tokens ++ scan fuel mode' c'

/-- The tokens of a template, the last of which is the end or no token. -/
def ofText (s : Bytes) : List Token := scan (s.length + 1) .text ⟨s, 0, 1⟩

end Token

end EngineHost.Template
