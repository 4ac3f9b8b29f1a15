import EngineHost.Text.Blank
import EngineHost.Text.Quoted

/-!
# Programs of the simulated engine

The simulated engine reads just enough of a program to be useful: definitions `@name = body` that
may go on over several lines, with balanced brackets.
-/

namespace EngineHost.Simulator

/-- A program: its text and the names that it defines, in order. -/
structure Program where
  source : Bytes
  defs : List Bytes
deriving DecidableEq, Repr, Inhabited

/-- Why a text is no program. Lines are counted from 1. -/
inductive ProgramError
  /-- A line starts with `@` and does not go on with a name and an equals sign. -/
  | malformed (line : Nat)
  /-- A definition starts while brackets are open. -/
  | openBefore (line : Nat) (name : Bytes)
  /-- Text stands in front of the first definition. -/
  | stray (line : Nat) (text : Bytes)
  | unexpectedClose (line : Nat)
  | openAtEnd
  | empty
deriving DecidableEq, Repr

def ProgramError.message : ProgramError → Bytes
  | malformed line =>
    "PARSE_ERROR (" ++ Bytes.ofNat line ++ ":1): expected '@name = <net>'"
  | openBefore line name =>
    "PARSE_ERROR (" ++ Bytes.ofNat line ++ ":1): unbalanced brackets before @" ++ name
  | stray line text =>
    "PARSE_ERROR (" ++ Bytes.ofNat line ++ ":1): expected definition, found " ++ Quoted.text text
  | unexpectedClose line =>
    "PARSE_ERROR (" ++ Bytes.ofNat line ++ ":1): unexpected closing bracket"
  | openAtEnd => "PARSE_ERROR: unbalanced brackets at end of input"
  | empty => "PARSE_ERROR: empty book"

namespace Program

def opens (b : UInt8) : Bool := b == 40 || b == 123 || b == 91

def closes (b : UInt8) : Bool := b == 41 || b == 125 || b == 93

/-- The bracket depth behind a text, unless it closes more than is open. -/
def depthAfter : (depth : Nat) → Bytes → Option Nat
  | depth, [] => some depth
  | depth, b :: rest =>
    if opens b then depthAfter (depth + 1) rest
    else if closes b then
      match depth with
      | 0 => none
      | d + 1 => depthAfter d rest
    else depthAfter depth rest

/-- The name that a definition line gives: between the `@` and the first equals sign, without
blanks around it, and not empty. -/
def definedName? (afterAt : Bytes) : Option Bytes :=
  match Bytes.cut 61 afterAt with
  | some (name, _) => let name := Bytes.trim name; if name.isEmpty then none else some name
  | none => none

/-- The names of the definitions so far, the last one first, with that of a trimmed line, if it starts
one. -/
def define (line depth : Nat) (defs : List Bytes) (text : Bytes) :
    Except ProgramError (List Bytes) :=
  match text with
  | 64 :: afterAt =>
    match definedName? afterAt with
    | none => .error (.malformed line)
    | some name => if depth = 0 then .ok (name :: defs) else .error (.openBefore line name)
  | _ => if defs.isEmpty then .error (.stray line text) else .ok defs

/-- Reads on from a line, with the bracket depth and the definitions so far, the last one first. -/
def scan : (line depth : Nat) → (defs : List Bytes) → List Bytes → Except ProgramError (List Bytes)
  | _, depth, defs, [] =>
    if depth ≠ 0 then .error .openAtEnd
    else if defs.isEmpty then .error .empty
    else .ok defs.reverse
  | line, depth, defs, s :: rest =>
    let text := Bytes.trim s
    if text.isEmpty then scan (line + 1) depth defs rest
    else
      match define line depth defs text with
      | .error e => .error e
      | .ok defs =>
        match depthAfter depth text with
        | none => .error (.unexpectedClose line)
        | some depth => scan (line + 1) depth defs rest

def parse (source : Bytes) : Except ProgramError Program :=
  (scan 1 0 [] (Bytes.lines source)).map fun defs => ⟨source, defs⟩

def hasDef (p : Program) (name : Bytes) : Bool := p.defs.contains name

/-- A deterministic stand-in for the number of interactions. -/
def iterations (p : Program) : UInt64 :=
  UInt64.ofNat p.defs.length * 1000 + UInt64.ofNat p.source.length

def dumpLine (index : Nat) (name : Bytes) : Bytes :=
  Bytes.padLeft 4 48 (Bytes.ofNat index) ++ ": @" ++ name ++ "\n"

/-- The memory dump: one line per definition. -/
def memDump (p : Program) : Bytes := "DEFS:\n" ++ (p.defs.mapIdx dumpLine).flatten

/-- A name behind its length in one byte. -/
def encodeName (name : Bytes) : Bytes := UInt8.ofNat name.length :: name

/-- The binary form: the number of names in one byte, then the names. -/
def encode (p : Program) : Bytes := UInt8.ofNat p.defs.length :: p.defs.flatMap encodeName

end Program

end EngineHost.Simulator
