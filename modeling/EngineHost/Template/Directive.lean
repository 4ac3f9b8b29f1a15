import EngineHost.Template.Format

/-!
# Formats

A format is a text with verbs: a percent sign, flags, a width, a precision and a letter. Each verb
writes the next argument, or the one whose number stands in brackets. Arguments are values, and in
messages also things that are known by a text of their own.
-/

namespace EngineHost.Template.Format

structure Part where
  name : Bytes
  typeName : Bytes
  value : Datum

/-- Something that is known by a text of its own and is made of parts. -/
structure Thing where
  /-- The name of its type, behind a star if it is known by its place. -/
  typeName : Bytes
  text : Bytes
  parts : List Part := []
  /-- Whether it tells what went wrong. -/
  isFault : Bool := false

namespace Thing

/-- A fault that is nothing but its text. -/
def fault (text : Bytes) : Thing where
  typeName := "*errors.errorString"
  text := text
  parts := [⟨"s", "string", .string text⟩]
  isFault := true

def type (name : Bytes) : Thing := { typeName := "*reflect.rtype", text := name }

def part (f : Flags) (verb : Char) (p : Part) : Bytes :=
  let shown := match scalar? f verb p.value with
    | some s => s
    | none => unknownVerb verb p.typeName ((scalar? f 'v' p.value).getD [])
  if f.literal || f.named then p.name ++ ":" ++ shown else shown

def whole (f : Flags) (verb : Char) (t : Thing) : Bytes :=
  let (mark, name) : Bytes × Bytes := match t.typeName with
    | 42 :: name => ("&", name)
    | name => ([], name)
  let parts := t.parts.map (part f verb)
  mark ++ if f.literal then name ++ "\x7b" ++ Bytes.join ", " parts ++ "\x7d"
    else "\x7b" ++ Bytes.join " " parts ++ "\x7d"

/-- A thing under a verb: by its text where a text can stand, by its parts elsewhere. -/
def write (f : Flags) (verb : Char) (t : Thing) : Bytes :=
  if verb == 'T' then f.pad (truncated f t.typeName)
  else if verb == 'p' || verb == 'w' && !t.isFault then
    unknownVerb verb t.typeName (t.whole f 'v')
  else
    let verb := if verb == 'w' then 'v' else verb
    if !f.literal && ['v', 's', 'x', 'X', 'q'].contains verb then scalar f verb (.string t.text)
    else t.whole f verb

end Thing

inductive Argument
  | value (d : Option Datum)
  /-- A value that is handed on without a look at its type. -/
  | handed (d : Datum)
  | thing (t : Thing)

namespace Argument

def text (s : Bytes) : Argument := .value (some (.string s))

def number (n : Nat) : Argument := .value (some (.int (Int64.ofNat n)))

def fault (s : Bytes) : Argument := .thing (.fault s)

def type (name : Bytes) : Argument := .thing (.type name)

/-- The name of the type of an argument; nothing for a null. -/
def typeName? : Argument → Option Bytes
  | value d => d.map Datum.typeName
  | handed _ => some "reflect.Value"
  | thing t => some t.typeName

def write (f : Flags) (verb : Char) : Argument → Bytes
  | value d => datum f verb d
  | handed d =>
    if verb == 'T' then f.pad (truncated f "reflect.Value")
    else if verb == 'p' then unknownVerb verb "reflect.Value" (datum f 'v' (some d))
    else datum f verb (some d)
  | thing t => t.write f verb

def integer? : Argument → Option Int
  | value (some (.int n)) => some n.toInt
  | value (some (.int64 n)) => some n.toInt
  | value (some (.uint64 n)) => if n.toNat < 2 ^ 63 then some n.toNat else none
  | value (some (.byte n)) => some n.toNat
  | _ => none

end Argument

/-- A place in a format and among its arguments. -/
structure State where
  rest : Bytes
  /-- The number of the next argument. -/
  next : Nat := 0
  /-- Whether an argument was chosen by its number. -/
  reordered : Bool := false
  /-- Whether every number of an argument was in range. -/
  inRange : Bool := true
  /-- Whether the number of an argument was just read. -/
  numbered : Bool := false

/-- Widths and precisions beyond this bound are no numbers. -/
def largest : Nat := 1000000

/-- A run of digits: its value, if it is one and not too large, and the rest. -/
def numeral (s : Bytes) : Option Nat × Bytes :=
  let digits := s.takeWhile Bytes.isDigit
  let tooLong (k : Nat) := largest < Bytes.digitsValue (digits.take k)
  if (List.range digits.length).any tooLong then (none, [])
  else if digits.isEmpty then (none, s)
  else (some (Bytes.digitsValue digits), s.drop digits.length)

/-- Reads the number of an argument in brackets, if one stands there. -/
def chooseArgument (count : Nat) (s : State) : State :=
  match s.rest with
  | 91 :: body =>
    let s := { s with reordered := true }
    match if body.length < 2 then none else Bytes.cut 93 body with
    | none => { s with rest := body, inRange := false, numbered := false }
    | some (inner, after) =>
      match whole? inner with
      | some n =>
        if 1 ≤ n ∧ n ≤ count then { s with rest := after, next := n - 1, numbered := true }
        else { s with rest := after, inRange := false, numbered := true }
      | none => { s with rest := after, inRange := false, numbered := false }
  | _ => { s with numbered := false }
where
  /-- The number that a text is as a whole. -/
  whole? (inner : Bytes) : Option Nat :=
    match numeral inner with
    | (some n, []) => some n
    | _ => none

/-- Takes an argument as a width or a precision. -/
def takeInteger (args : List Argument) (s : State) : Option Int × State :=
  match args[s.next]? with
  | none => (none, s)
  | some d =>
    let n := d.integer?.filter fun n => n.natAbs ≤ largest
    (n, { s with next := s.next + 1 })

def readFlags : Bytes → Flags → Flags × Bytes
  | [], f => (f, [])
  | b :: rest, f =>
    if b = 35 then readFlags rest { f with sharp := true }
    else if b = 48 then readFlags rest { f with zero := true }
    else if b = 43 then readFlags rest { f with plus := true }
    else if b = 45 then readFlags rest { f with minus := true }
    else if b = 32 then readFlags rest { f with space := true }
    else (f, b :: rest)

/-- Reads the width of a verb: what is written at once, the flags, and the state behind it. -/
def readWidth (args : List Argument) (f : Flags) (s : State) : Bytes × Flags × State :=
  match s.rest with
  | 42 :: rest =>
    let (n, s) := takeInteger args { s with rest, numbered := false }
    match n with
    | none => ("%!(BADWIDTH)", f, s)
    | some n =>
      if n < 0 then ([], { f with width := some n.natAbs, minus := true, zero := false }, s)
      else ([], { f with width := some n.toNat }, s)
  | _ =>
    let (n, rest) := numeral s.rest
    ([], { f with width := n },
      { s with rest, inRange := s.inRange && !(s.numbered && n.isSome) })

/-- Reads the precision of a verb. A point that ends the format is no precision but the verb. -/
def readPrecision (args : List Argument) (f : Flags) (s : State) : Bytes × Flags × State :=
  match s.rest with
  | [46] => ([], f, s)
  | 46 :: rest =>
    let s := chooseArgument args.length { s with rest, inRange := s.inRange && !s.numbered }
    match s.rest with
    | 42 :: rest =>
      let (n, s) := takeInteger args { s with rest, numbered := false }
      match n with
      | some n =>
        if n < 0 then ("%!(BADPREC)", f, s) else ([], { f with precision := some n.toNat }, s)
      | none => ("%!(BADPREC)", f, s)
    | _ =>
      let (n, rest) := numeral s.rest
      ([], { f with precision := some (n.getD 0) }, { s with rest })
  | _ => ([], f, s)

/-- The flags as the verb for default notation takes them. -/
def Flags.forVerb (f : Flags) (verb : Char) : Flags :=
  if verb == 'v' || verb == 'w' then
    { f with literal := f.sharp, sharp := false, named := f.plus, plus := false }
  else f

/-- Writes the argument of one verb, of which flags, width and precision are known. -/
def writeVerb (args : List Argument) (f : Flags) (s : State) : Bytes × State :=
  match Utf8.pieces (s.rest.take 4) with
  | [] => ("%!(NOVERB)", { s with rest := [] })
  | piece :: _ =>
    let verb := piece.toChar
    let s := { s with rest := s.rest.drop piece.bytes.length }
    if verb == '%' then ("%", s)
    else if !s.inRange then ("%!" ++ Utf8.encode verb ++ "(BADINDEX)", s)
    else
      match args[s.next]? with
      | none => ("%!" ++ Utf8.encode verb ++ "(MISSING)", s)
      | some d =>
        (d.write (f.forVerb verb) verb, { s with next := s.next + 1 })

/-- Writes one verb, with the text in front of it gone. -/
def writeDirective (args : List Argument) (s : State) : Bytes × State :=
  let (f, rest) := readFlags s.rest {}
  let s := chooseArgument args.length { s with rest, inRange := true, numbered := false }
  let (early, f, s) := readWidth args f s
  let (late, f, s) := readPrecision args f s
  let s := if s.numbered then s else chooseArgument args.length s
  let (out, s) := writeVerb args f s
  (early ++ late ++ out, s)

/-- Writes a format and what follows each verb, the pieces in reverse. -/
def writeAll (args : List Argument) :
    (steps : Nat) → State → (out : List Bytes) → List Bytes × State
  | 0, s, out => (out, s)
  | steps + 1, s, out =>
    let plain := s.rest.takeWhile (· != 37)
    match s.rest.drop plain.length with
    | [] => (plain :: out, { s with rest := [] })
    | _ :: rest =>
      let (text, s) := writeDirective args { s with rest }
      writeAll args steps s (text :: plain :: out)

/-- The arguments that no verb took. -/
def extra (args : List Argument) : Bytes :=
  let show_ (d : Argument) : Bytes := match d.typeName? with
    | none => "<nil>"
    | some name => name ++ "=" ++ d.write {} 'v'
  if args.isEmpty then [] else "%!(EXTRA " ++ Bytes.join ", " (args.map show_) ++ ")"

def format (s : Bytes) (args : List Argument) : Bytes :=
  let (out, last) := writeAll args (s.length + 1) { rest := s } []
  out.reverse.flatten ++ (if last.reordered then [] else extra (args.drop last.next))

end EngineHost.Template.Format
