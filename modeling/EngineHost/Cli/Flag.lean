import EngineHost.Number.Literal
import EngineHost.Text.Quoted

/-!
# Flags

A flag has a long name and perhaps a letter. It is written `--name value` or `--name=value`, and
with the letter `-n value`, `-nvalue` or `-n=value`; letters can be written together. A switch needs
no value. Arguments that are no flags may stand between flags, and `--` ends the flags.
-/

namespace EngineHost.Cli

inductive FlagKind
  /-- A truth value, true when none is written. -/
  | switch
  /-- One text, the last one written. -/
  | text
  /-- Every text written. -/
  | texts
deriving DecidableEq, Repr

def FlagKind.label : FlagKind → Bytes
  | switch => ""
  | text => "string"
  | texts => "stringArray"

structure Flag where
  name : Bytes
  letter : Option UInt8 := none
  kind : FlagKind
  usage : Bytes
  default : Bytes := []
deriving DecidableEq, Repr

/-- Values written for flags, in the order of the command line. -/
abbrev Given := List (Flag × Bytes)

/-- Why the flags of a command line are refused. -/
inductive FlagFault
  /-- The text starts like a flag but has no name. -/
  | malformed (text : Bytes)
  | unknown (name : Bytes)
  | unknownLetter (letter : UInt8) (group : Bytes)
  | valueMissing (text : Bytes)
  | letterValueMissing (letter : UInt8) (group : Bytes)
  /-- The value of a switch is no truth value. -/
  | invalid (flag : Flag) (value : Bytes)
deriving DecidableEq, Repr

namespace FlagFault

def quotedLetter (b : UInt8) : Bytes := Quoted.char (Char.ofNat b.toNat)

/-- How a flag is called in messages. -/
def calledName (f : Flag) : Bytes :=
  match f.letter with
  | some b => "-" ++ [b] ++ ", --" ++ f.name
  | none => "--" ++ f.name

def message : FlagFault → Bytes
  | malformed text => "bad flag syntax: " ++ text
  | unknown name => "unknown flag: --" ++ name
  | unknownLetter b group =>
    "unknown shorthand flag: " ++ quotedLetter b ++ " in -" ++ group
  | valueMissing text => "flag needs an argument: " ++ text
  | letterValueMissing b group =>
    "flag needs an argument: " ++ quotedLetter b ++ " in -" ++ group
  | invalid f value =>
    "invalid argument " ++ Quoted.text value ++ " for " ++ Quoted.text (calledName f) ++
      " flag: strconv.ParseBool: parsing " ++ Quoted.text value ++ ": invalid syntax"

end FlagFault

namespace Flag

/-- Whether a flag is complete without a value. -/
def isSwitch (f : Flag) : Bool := f.kind == .switch

def named? (flags : List Flag) (name : Bytes) : Option Flag := flags.find? fun f => f.name == name

def lettered? (flags : List Flag) (b : UInt8) : Option Flag :=
  flags.find? fun f => f.letter == some b

def give (f : Flag) (value : Bytes) : Except FlagFault (Flag × Bytes) :=
  if f.isSwitch && (Literal.bool? value).isNone then .error (.invalid f value)
  else .ok (f, value)

/-- What one argument says: the values it gives, and perhaps a flag that takes the next argument
as its value, with the fault if there is none. -/
structure Reading where
  given : Given := []
  waiting : Option (Flag × FlagFault) := none

/-- Reads an argument that starts with two dashes. -/
def readLong (flags : List Flag) (text : Bytes) : Except FlagFault Reading := do
  let body := text.drop 2
  if body.isEmpty || body.head? == some 45 || body.head? == some 61 then throw (.malformed text)
  let (name, value) := match Bytes.cut 61 body with
    | some (name, value) => (name, some value)
    | none => (body, none)
  match named? flags name with
  | none => throw (.unknown name)
  | some f =>
    match value with
    | some v => return { given := [← f.give v] }
    | none =>
      if f.isSwitch then return { given := [(f, "true")] }
      return { waiting := some (f, .valueMissing text) }

/-- Reads letters written together. A group that starts with `test.` says nothing. -/
def readLetters (flags : List Flag) : Bytes → Except FlagFault Reading
  | [] => .ok {}
  | b :: more =>
    if Bytes.startsWith (b :: more) "test." then .ok {} else
    match lettered? flags b with
    | none => .error (.unknownLetter b (b :: more))
    | some f =>
      match more with
      | 61 :: c :: rest => do return { given := [← f.give (c :: rest)] }
      | _ =>
        if f.isSwitch then do
          let r ← readLetters flags more
          return { r with given := (f, "true") :: r.given }
        else if !more.isEmpty then do return { given := [← f.give more] }
        else .ok { waiting := some (f, .letterValueMissing b [b]) }

/-- Whether an argument is no flag. -/
def isPlain (s : Bytes) : Bool := s.head? != some 45 || s == Bytes.ofString "-"

structure Line where
  given : Given := []
  args : List Bytes := []

def read (flags : List Flag) : List Bytes → Except FlagFault Line
  | [] => .ok {}
  | s :: rest =>
    if isPlain s then do
      let line ← read flags rest
      return { line with args := s :: line.args }
    else if s == Bytes.ofString "--" then .ok { args := rest }
    else do
      let r ← if Bytes.startsWith s "--" then readLong flags s else readLetters flags (s.drop 1)
      match r.waiting, rest with
      | none, rest =>
        let line ← read flags rest
        return { line with given := r.given ++ line.given }
      | some (f, _), value :: rest =>
        let pair ← f.give value
        let line ← read flags rest
        return { line with given := r.given ++ pair :: line.given }
      | some (_, fault), [] => throw fault

def valuesOf (given : Given) (name : Bytes) : List Bytes :=
  (given.filter fun g => g.1.name == name).map (·.2)

def valueOf? (given : Given) (name : Bytes) : Option Bytes := (valuesOf given name).getLast?

/-- The last truth value given for a name. -/
def switchOf? (given : Given) (name : Bytes) : Option Bool :=
  (valueOf? given name).bind Literal.bool?

end Flag

end EngineHost.Cli
