import EngineHost.Cli.Command

/-!
# Selection of commands

The words of a command line lead from the root to a command. Flags and their values may stand
between them, so it has to be known which flags take a value.
-/

namespace EngineHost.Cli

/-- The distance of two texts: the least number of insertions, deletions and replacements of
bytes. -/
def distance (s t : Bytes) : Nat :=
  let step (row : List Nat) (a : UInt8) : List Nat :=
    let first := row.headD 0 + 1
    let cells := (t.zip (row.zip row.tail)).foldl (fun (done : Nat × List Nat) (b, diagonal, above) =>
      let cell := if a == b then diagonal else min (min done.1 above) diagonal + 1
      (cell, cell :: done.2)) (first, [first])
    cells.2.reverse
  (s.foldl step (List.range (t.length + 1))).getLastD 0

/-- The letters whose lower case takes another number of bytes, with their lower case. -/
def resizedLetters : List (Nat × Nat) :=
  [(0x130, 0x69), (0x23a, 0x2c65), (0x23e, 0x2c66), (0x1e9e, 0xdf), (0x2126, 0x3c9),
   (0x212a, 0x6b), (0x212b, 0xe5), (0x2c62, 0x26b), (0x2c64, 0x27d), (0x2c6d, 0x251),
   (0x2c6e, 0x271), (0x2c6f, 0x250), (0x2c70, 0x252), (0x2c7e, 0x23f), (0x2c7f, 0x240),
   (0xa78d, 0x265), (0xa7aa, 0x266), (0xa7ab, 0x25c), (0xa7ac, 0x261), (0xa7ad, 0x26c),
   (0xa7ae, 0x26a), (0xa7b0, 0x29e), (0xa7b1, 0x287), (0xa7b2, 0x29d), (0xa7c5, 0x282),
   (0xa7cb, 0x264), (0xa7dc, 0x19b)]

/-- A word in lower case, as far as it can come close to a name of ASCII letters: of the other
letters only the number of their bytes counts. -/
def lowerWord (s : Bytes) : Bytes :=
  (Utf8.pieces s).flatMap fun
    | .char c =>
      match resizedLetters.lookup c.toNat with
      | some lower => Utf8.encode (Char.ofNat lower)
      | none => Bytes.toLower (Utf8.encode c)
    | .stray _ => Utf8.encode '\ufffd'

inductive Refusal
  | flag (fault : FlagFault)
  /-- A word selects nothing below a command; commands with similar names are suggested. -/
  | unknownCommand (word path : Bytes) (suggestions : List Bytes)
  | argumentCount (expected received : Nat)
  | tooFewArguments (least received : Nat)
  | unknownFormat (name : Bytes) (known : List Bytes)
deriving DecidableEq, Repr

def Refusal.message : Refusal → Bytes
  | flag fault => fault.message
  | unknownCommand word path suggestions =>
    "unknown command " ++ Quoted.text word ++ " for " ++ Quoted.text path ++
      if suggestions.isEmpty then ([] : Bytes) else
        Bytes.ofString "\n\nDid you mean this?\n" ++
          suggestions.flatMap fun s => (9 :: s) ++ [10]
  | argumentCount expected received =>
    "accepts " ++ Bytes.ofNat expected ++ " arg(s), received " ++ Bytes.ofNat received
  | tooFewArguments least received =>
    "requires at least " ++ Bytes.ofNat least ++ " arg(s), only received " ++ Bytes.ofNat received
  | unknownFormat name known =>
    "invalid format " ++ Quoted.text name ++ ": must be one of [" ++ Bytes.join " " known ++ "]"

namespace Command

/-- Whether an argument is a flag whose value is the next argument. -/
def takesNext (flags : List Flag) (s : Bytes) : Bool :=
  if Bytes.contains s "=" then false
  else if Bytes.startsWith s "--" then !(Flag.named? flags (s.drop 2)).any Flag.isSwitch
  else match s with
    | [45, b] => !(Flag.lettered? flags b).any Flag.isSwitch
    | _ => false

/-- The words among the arguments. A flag that takes the last argument ends them, and so does one
behind which nothing follows. -/
def plainWords (flags : List Flag) : List Bytes → List Bytes
  | [] => []
  | s :: rest =>
    if s == Bytes.ofString "--" then []
    else if takesNext flags s then
      match rest with
      | _ :: next :: more => plainWords flags (next :: more)
      | _ => []
    else if s.isEmpty || s.head? == some 45 then plainWords flags rest
    else s :: plainWords flags rest

/-- The arguments without the first one that is a given word. -/
def withoutWord (flags : List Flag) (word : Bytes) : List Bytes → List Bytes
  | [] => []
  | s :: rest =>
    if s == Bytes.ofString "--" then s :: rest
    else if takesNext flags s then
      match rest with
      | value :: more => s :: value :: withoutWord flags word more
      | [] => [s]
    else if s == word then rest
    else s :: withoutWord flags word rest

/-- Descends to the command that the words select, at most `depth` levels, and keeps the arguments
that are left. -/
def descend : (depth : Nat) → Command → List Bytes → Command × List Bytes
  | 0, c, args => (c, args)
  | depth + 1, c, args =>
    match plainWords c.selectionFlags args with
    | [] => (c, args)
    | word :: _ =>
      match c.children.find? fun child => child.name == word with
      | some child => descend depth child (withoutWord c.selectionFlags word args)
      | none => (c, args)

/-- Whether a word is close to a name: at most two edits away, or its beginning. -/
def isClose (word name : Bytes) : Bool :=
  let word := lowerWord word
  distance word name ≤ 2 || Bytes.startsWith name word

/-- The names of the commands at the root that are close to a word. -/
def suggestions (word : Bytes) : List Bytes :=
  ((root.children.filter (· ≠ help)).map name).filter (isClose word)

/-- The command that a command line selects, with the arguments that are left. The root itself
takes no word. -/
def select (args : List Bytes) : Except Refusal (Command × List Bytes) :=
  let (c, left) := descend (args.length + 1) root args
  match c, plainWords c.selectionFlags left with
  | root, word :: _ => .error (.unknownCommand word root.path (suggestions word))
  | c, _ => .ok (c, left)

/-- The word with which a command line asks for completions and the arguments that are left, which
are not read as flags. The command is there only when it is asked for, so nothing else selects
it. -/
def requested? (args : List Bytes) : Option (Bytes × List Bytes) :=
  match plainWords root.selectionFlags args with
  | [] => none
  | word :: _ =>
    if (request.name :: request.aliases).contains word then
      some (word, withoutWord root.selectionFlags word args)
    else none

def checkArgs (c : Command) (args : List Bytes) : Except Refusal Unit :=
  match c.arity, args with
  | .none, word :: _ => .error (.unknownCommand word c.path [])
  | .exactly n, args => if args.length = n then .ok () else .error (.argumentCount n args.length)
  | .atLeast n, args => if n ≤ args.length then .ok () else .error (.tooFewArguments n args.length)
  | _, _ => .ok ()

end Command

end EngineHost.Cli
