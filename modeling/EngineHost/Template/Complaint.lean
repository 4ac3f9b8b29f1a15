import EngineHost.Number.Literal
import EngineHost.Template.Node
import EngineHost.Template.Token
import EngineHost.Text.Unquoted

/-!
# What is wrong with a template

A text that is no template is refused with the line of the last token that was looked at. The
place becomes part of the format of the message, so percent signs in the template's name act in it.
-/

namespace EngineHost.Template

inductive Clause
  | close
  | otherwise
deriving DecidableEq, Repr

namespace Clause

def text : Clause → Bytes
  | close => "\x7b\x7bend\x7d\x7d"
  | otherwise => "\x7b\x7belse\x7d\x7d"

def thing (c : Clause) : Format.Thing where
  typeName := match c with
    | close => "*parse.endNode"
    | otherwise => "*parse.elseNode"
  text := c.text

end Clause

inductive Cause
  /-- No token, in an action that started on another line if one is given. -/
  | bad (t : Token) (started : Option Nat)
  | unexpected (t : Token) (context : Bytes)
  /-- A clause that cannot end the nodes in front of it. -/
  | misplaced (c : Clause) (context : Bytes)
  /-- A closing or alternative clause without an opening one. -/
  | stray (c : Clause)
  | unexpectedEof
  | expectedEnd (found : Clause)
  | missingValue (context : Bytes)
  /-- A literal behind a pipe. -/
  | notExecutable (stage : Nat)
  | emptyCommand
  /-- Too many parentheses around an operand. -/
  | tooDeep
  | noFunction (name : Bytes)
  | noVariable (name : Bytes)
  | tooManyVariables (context : Bytes)
  | onlyVariables
  | outsideRange (word : Bytes)
  | fieldOfLiteral (text : Bytes)
  | badQuotes
  | badChar (text : Bytes)
  | integerOverflow (text : Bytes)
  | badNumber (text : Bytes)
  | badComplex
  /-- A part of a complex number that is no number. -/
  | badPart (text : Bytes) (fault : Literal.FloatFault)
  | multipleDefinition (name : Bytes)
deriving DecidableEq, Repr

/-- A cause at a line. -/
structure Complaint where
  line : Nat
  cause : Cause
deriving DecidableEq, Repr

namespace Cause

/-- Where the action of a bad token started, as far as the message does not say so already. -/
def startText (name message : Bytes) (line : Nat) : Bytes :=
  let place := " started at " ++ name ++ ":" ++ Bytes.ofNat line
  if Bytes.startsWith message.reverse (Bytes.ofString " action").reverse then place
  else " in action" ++ place

/-- The part of a complex number that is no number, as an argument of a message. -/
def partThing (text : Bytes) (fault : Literal.FloatFault) : Format.Thing where
  typeName := "*strconv.NumError"
  text := "strconv.ParseFloat: parsing " ++ Quoted.text text ++
    match fault with
    | .malformed => (": invalid syntax" : Bytes)
    | .outOfRange => ": value out of range"
  parts := [⟨"Func", "string", .string "ParseFloat"⟩, ⟨"Num", "string", .string text⟩]
  isFault := true

def format (name : Bytes) : Cause → Bytes × List Format.Argument
  | bad t started =>
    ("%s%s", [.thing t.thing, .text ((started.map (startText name t.text)).getD [])])
  | unexpected t context => ("unexpected %s in %s", [.thing t.thing, .text context])
  | misplaced c context => ("unexpected %s in %s", [.thing c.thing, .text context])
  | stray c => ("unexpected %s", [.thing c.thing])
  | unexpectedEof => ("unexpected EOF", [])
  | expectedEnd c => ("expected end; found %s", [.thing c.thing])
  | missingValue context => ("missing value for %s", [.text context])
  | notExecutable stage => ("non executable command in pipeline stage %d", [.number stage])
  | emptyCommand => ("empty command", [])
  | tooDeep => ("max expression depth exceeded", [])
  | noFunction f => ("function %q not defined", [.text f])
  | noVariable v => ("undefined variable %q", [.text v])
  | tooManyVariables context => ("too many declarations in %s", [.text context])
  | onlyVariables => ("range can only initialize variables", [])
  | outsideRange word =>
    ("\x7b\x7b" ++ word ++ "\x7d\x7d outside \x7b\x7brange\x7d\x7d", [])
  | fieldOfLiteral text => ("unexpected . after term %q", [.text text])
  | badQuotes => ("%s", [.fault "invalid syntax"])
  | badChar text => ("%s", [.fault ("malformed character constant: " ++ text)])
  | integerOverflow text => ("%s", [.fault ("integer overflow: " ++ Quoted.text text)])
  | badNumber text => ("%s", [.fault ("illegal number syntax: " ++ Quoted.text text)])
  | badComplex => ("%s", [.fault "syntax error scanning complex number"])
  | badPart text fault => ("%s", [.thing (partThing text fault)])
  | multipleDefinition t => ("template: multiple definition of template %q", [.text t])

end Cause

def Complaint.message (name : Bytes) (c : Complaint) : Bytes :=
  let (text, args) := c.cause.format name
  Format.format ("template: " ++ name ++ ":" ++ Bytes.ofNat c.line ++ ": " ++ text) args

namespace Constant

/-- Whether a numeral looks like one with a fraction or an exponent. -/
def looksFloat (text : Bytes) : Bool := text.any fun b => [46, 101, 69, 112, 80].contains b

/-- Whether a numeral is a hexadecimal integer, whose digits may look like an exponent. -/
def isHexInteger : Bytes → Bool
  | 48 :: m :: rest =>
    (m = 120 ∨ m = 88) && !rest.isEmpty && rest.all fun b => b != 112 && b != 80
  | _ => false

def integers (text : Bytes) : Option Int64 × Bool :=
  let (neg, body) := Literal.splitSign text
  match Literal.marked? body with
  | none => (none, false)
  | some n =>
    let z : Int := if neg then -(n : Int) else n
    (if -(2 ^ 63) ≤ z ∧ z < 2 ^ 63 then some (Int64.ofInt z) else none,
      body.length = text.length && n < 2 ^ 64)

/-- The constant of a real numeral. A numeral without fraction and exponent has to be an
integer. -/
def ofReal (text : Bytes) : Except Cause Constant :=
  match integers text with
  | (some n, _) =>
    if !isHexInteger text && looksFloat text then .ok (.float (Binary64.ofInt n.toInt))
    else .ok (.int n)
  | (none, true) =>
    if !isHexInteger text && looksFloat text then
      .ok (.float (Binary64.ofNat ((Literal.marked? text).getD 0)))
    else .ok .tooLarge
  | (none, false) =>
    match Literal.float? text with
    | none => .error (.badNumber text)
    | some x => if looksFloat text then .ok (.float x) else .error (.integerOverflow text)

/-- The constant of a numeral, which may be imaginary. -/
def ofNumeral (text : Bytes) : Except Cause Constant :=
  if text.getLast? == some 105 then
    match Literal.float? text.dropLast with
    | some x => .ok (.complex .zero x)
    | none => ofReal text
  else ofReal text

def part (text : Bytes) : Except Cause Binary64 :=
  match Literal.float text with
  | .ok x => .ok x
  | .error fault => .error (.badPart text fault)

/-- The constant of a sum: a number, and a number with a sign and an imaginary unit behind it. -/
def ofSum (text : Bytes) : Except Cause Constant := do
  let re := text.take (Literal.floatLength text)
  match text.drop re.length with
  | [] => throw .badComplex
  | sign :: rest =>
    let n := Literal.floatLength rest
    if (sign == 43 || sign == 45) && rest.head? != some 105 && (rest.drop n).head? == some 105 then
      return .complex (← part re) (← part (sign :: rest.take n))
    else throw .badComplex

/-- The constant of a character in single quotes. -/
def ofChar (text : Bytes) : Except Cause Constant :=
  match Quoted.unit? 39 (text.drop 1) with
  | none => .error .badQuotes
  | some (c, tail) =>
    if tail = [39] then .ok (.int (Int64.ofNat c.code)) else .error (.badChar text)

end Constant

end EngineHost.Template
