import EngineHost.Wasm.Module

/-!
# Types on the operand stack

While a body is checked, the types of the operands that would be on the stack are kept. A type is the
byte that writes it. Behind an instruction that never goes on, the stack holds one operand of any
type, which can be taken as often as needed. An open block cannot take what lies below its floor.
-/

namespace EngineHost.Wasm

/-- The byte that stands for any type. -/
def anyType : UInt8 := 0xff

def typeName (code : UInt8) : Bytes :=
  ((ValueType.ofByte? code).map ValueType.name).getD "unknown"

/-- Whether an operand of one type can be taken for another. -/
def fits (found wanted : UInt8) : Bool :=
  found == wanted || found == anyType || wanted == anyType

def isReference (code : UInt8) : Bool := code == 0x70 || code == 0x6f

inductive Role
  | params | results
deriving DecidableEq, Repr

namespace Role

/-- The mention of a block in a message; nothing for the body itself. -/
def mention (link context : Bytes) : Bytes :=
  if context.isEmpty then [] else link ++ context ++ " block"

def listText (types : List UInt8) : Bytes := "(" ++ Bytes.join ", " (types.map typeName) ++ ")"

/-- The sequence has another length than it should have; `context` names the block. -/
def countMessage (r : Role) (context : Bytes) (found wanted : List UInt8) : Bytes :=
  let what : Bytes := match r with
    | params => "params" ++ mention " for " context
    | results => "results" ++ mention " in " context
  let start : Bytes := if wanted.length < found.length then "too many " else "not enough "
  start ++ what ++ "\n\thave " ++ listText found ++ "\n\twant " ++ listText wanted

/-- One operand of the sequence has another type than it should have. -/
def typeMessage (r : Role) (context : Bytes) (found wanted : UInt8) (place : Nat) : Bytes :=
  let what : Bytes := match r with
    | params => "param"
    | results => "result"
  "cannot use " ++ typeName found ++ mention " in " context ++ " as " ++ what ++ "[" ++
    Bytes.ofNat place ++ "] type " ++ typeName wanted

end Role

structure Operands where
  /-- The types from the top down. -/
  types : List UInt8 := []
  /-- How many operands the innermost block cannot take. -/
  floor : Nat := 0
  /-- The greatest number of operands so far. -/
  highest : Nat := 0
deriving DecidableEq, Inhabited, Repr

namespace Operands

def height (o : Operands) : Nat := o.types.length

def push (o : Operands) (code : UInt8) : Operands :=
  { o with types := code :: o.types, highest := max o.highest (o.height + 1) }

/-- Puts a sequence of operands on top, its last one topmost. -/
def pushAll (o : Operands) (codes : List UInt8) : Operands := codes.foldl push o

/-- Whether only the operand of any type is left above the floor. -/
def endless (o : Operands) : Bool := o.height == o.floor + 1 && o.types.head? == some anyType

/-- Takes the topmost operand; one of any type remains if it is the last. -/
def take? (o : Operands) : Option (UInt8 × Operands) :=
  match o.types with
  | [] => none
  | code :: types =>
    if o.height ≤ o.floor then none
    else if o.endless then some (anyType, o)
    else some (code, { o with types })

def pop (o : Operands) : Except Bytes (UInt8 × Operands) :=
  match o.take? with
  | some r => .ok r
  | none => .error ("invalid operation: trying to pop at " ++ Bytes.ofNat o.height ++
      " with limit " ++ Bytes.ofNat o.floor)

def expect (o : Operands) (wanted : UInt8) : Except Bytes Operands :=
  match o.take? with
  | none => .error (typeName wanted ++ " missing")
  | some (found, o) =>
    if fits found wanted then .ok o
    else .error ("type mismatch: expected " ++ typeName wanted ++ ", but was " ++ typeName found)

/-- Takes up to `n` operands, and says which they are. -/
def takeMany : (n : Nat) → Operands → List UInt8 × Operands
  | 0, o => ([], o)
  | n + 1, o =>
    match o.take? with
    | none => ([], o)
    | some (code, o) =>
      let (codes, o) := takeMany n o
      (code :: codes, o)

/-- The first operand of a sequence that has another type than it should have, with its place. Both
sequences begin with the topmost operand. -/
def misfit? : (found wanted : List UInt8) → (place : Nat) → Option (UInt8 × UInt8 × Nat)
  | f :: found, w :: wanted, place =>
    if fits f w then misfit? found wanted (place + 1) else some (f, w, place)
  | _, _, _ => none

/-- Takes a sequence of operands; if `alone` is set, it must be all that the block has. -/
def require (o : Operands) (role : Role) (context : Bytes) (wanted : List UInt8) (alone : Bool) :
    Except Bytes Operands :=
  let (found, o) := o.takeMany wanted.length
  if found.length < wanted.length then .error (role.countMessage context found wanted)
  else if alone && !(o.height == o.floor || o.endless) then
    .error (role.countMessage context (o.types.reverse ++ wanted) wanted)
  else match misfit? found wanted.reverse 0 with
    | some (f, w, place) => .error (role.typeMessage context f w place)
    | none => .ok o

/-- Drops all that lies above the floor. -/
def clear (o : Operands) : Operands := { o with types := o.types.drop (o.height - o.floor) }

/-- The stack behind an instruction that never goes on. -/
def unreachable (o : Operands) : Operands :=
  let o := o.clear
  { o with types := anyType :: o.types }

end Operands

end EngineHost.Wasm
