import EngineHost.Template.Datum
import EngineHost.Text.Blank
import EngineHost.Text.Quoted

/-!
# The nodes of a template

An action holds a pipeline: commands whose outcome is the last argument of the next. Operands are
literals, the current value, its fields, variables, functions and pipelines in parentheses. Every
node that a message can point at knows its offset in the text.
-/

namespace EngineHost.Template

inductive Builtin
  | conj | disj | negate | call | html | index | slice | js | len | print | printf | println
  | urlquery | eq | ne | lt | le | gt | ge
deriving DecidableEq, Repr, Inhabited

namespace Builtin

def table : List (String × Builtin) :=
  [("and", conj), ("or", disj), ("not", negate), ("call", call), ("html", html),
    ("index", index), ("slice", slice), ("js", js), ("len", len), ("print", print),
    ("printf", printf), ("println", println), ("urlquery", urlquery), ("eq", eq), ("ne", ne),
    ("lt", lt), ("le", le), ("gt", gt), ("ge", ge)]

def name (f : Builtin) : Bytes :=
  (table.findSome? fun (name, g) => if g = f then some (Bytes.ofString name) else none).getD []

def ofName? (name : Bytes) : Option Builtin :=
  table.findSome? fun (n, f) => if Bytes.ofString n = name then some f else none

end Builtin

inductive Constant
  | int (n : Int64)
  | float (x : Binary64)
  | complex (re im : Binary64)
  /-- An integer that only fits without a sign. -/
  | tooLarge
deriving Repr, Inhabited

mutual

inductive Operand
  /-- The current value. -/
  | dot (pos : Nat)
  | null (pos : Nat)
  | bool (pos : Nat) (b : Bool)
  | number (pos : Nat) (text : Bytes) (c : Constant)
  /-- A text, as it is quoted and as it reads. -/
  | string (pos : Nat) (quoted text : Bytes)
  /-- Fields of the current value, one inside the other. -/
  | field (pos : Nat) (names : List Bytes)
  /-- Fields of a variable, possibly none. -/
  | var (pos : Nat) (name : Bytes) (fields : List Bytes)
  | function (pos : Nat) (f : Builtin)
  /-- Fields of the value of an operand. -/
  | chain (pos : Nat) (base : Operand) (fields : List Bytes)
  | paren (p : Pipeline)

inductive Command
  | mk (pos : Nat) (head : Operand) (args : List Operand)

/-- Commands one behind the other, the variables that take the outcome, and whether these exist
already. -/
inductive Pipeline
  | mk (pos : Nat) (vars : List Bytes) (assigns : Bool) (commands : List Command)

end

instance : Inhabited Operand := ⟨.dot 0⟩

instance : Inhabited Pipeline := ⟨.mk 0 [] false []⟩

namespace Pipeline

def pos : Pipeline → Nat
  | mk pos _ _ _ => pos

def vars : Pipeline → List Bytes
  | mk _ vars _ _ => vars

def assigns : Pipeline → Bool
  | mk _ _ assigns _ => assigns

def commands : Pipeline → List Command
  | mk _ _ _ commands => commands

end Pipeline

namespace Command

def pos : Command → Nat
  | mk pos _ _ => pos

def head : Command → Operand
  | mk _ head _ => head

def args : Command → List Operand
  | mk _ _ args => args

end Command

namespace Operand

def pos : Operand → Nat
  | dot pos | null pos | bool pos _ | number pos _ _ | string pos _ _ | field pos _
  | var pos _ _ | function pos _ | chain pos _ _ => pos
  | paren p => p.pos

/-- Whether an operand is a value in itself, which nothing can be passed to and which has no
fields. -/
def isLiteral : Operand → Bool
  | dot _ | null _ | bool _ _ | number _ _ _ | string _ _ _ => true
  | _ => false

end Operand

/-- Fields behind one another, each with its dot. -/
def fieldsText (fields : List Bytes) : Bytes := fields.flatMap fun f => "." ++ f

mutual

/-- The text of an operand among others: pipelines stand in parentheses. -/
def Operand.inner : Operand → Bytes
  | .paren p => "(" ++ p.text ++ ")"
  | .dot _ => "."
  | .null _ => "nil"
  | .bool _ b => if b then "true" else "false"
  | .number _ text _ => text
  | .string _ quoted _ => quoted
  | .field _ names => fieldsText names
  | .var _ name fields => name ++ fieldsText fields
  | .function _ f => f.name
  | .chain _ base fields => base.inner ++ fieldsText fields

/-- The texts of the arguments of a command, each behind a blank. -/
def argsText : List Operand → Bytes
  | [] => []
  | x :: rest => " " ++ x.inner ++ argsText rest

def Command.text : Command → Bytes
  | .mk _ head args => head.inner ++ argsText args

def commandsText : List Command → List Bytes
  | [] => []
  | c :: rest => c.text :: commandsText rest

def Pipeline.text : Pipeline → Bytes
  | .mk _ vars assigns commands =>
    (if vars.isEmpty then [] else Bytes.join ", " vars ++ (if assigns then (" = " : Bytes) else " := ")) ++
      Bytes.join " | " (commandsText commands)

end

def Operand.text : Operand → Bytes
  | .paren p => p.text
  | x => x.inner

def Operand.kindName : Operand → Bytes
  | .dot _ => "*parse.DotNode"
  | .null _ => "*parse.NilNode"
  | .bool _ _ => "*parse.BoolNode"
  | .number _ _ _ => "*parse.NumberNode"
  | .string _ _ _ => "*parse.StringNode"
  | .field _ _ => "*parse.FieldNode"
  | .var _ _ _ => "*parse.VariableNode"
  | .function _ _ => "*parse.IdentifierNode"
  | .chain _ _ _ => "*parse.ChainNode"
  | .paren _ => "*parse.PipeNode"

/-- Whether a branch tests a value, or also makes it the current value. -/
inductive Branching
  | test
  | bind
deriving DecidableEq, Repr

inductive Node
  | text (s : Bytes)
  /-- Writes the outcome of a pipeline, or keeps it in variables. -/
  | action (p : Pipeline)
  | branch (kind : Branching) (p : Pipeline) (body otherwise : List Node)
  | range (p : Pipeline) (body otherwise : List Node)
  /-- Runs another template. -/
  | call (pos : Nat) (name : Bytes) (p : Option Pipeline)
  /-- Leaves the innermost range. -/
  | leave
  /-- Goes on with the next item of the innermost range. -/
  | skip
deriving Inhabited

namespace Node

/-- Whether a node is text that holds nothing but white space. -/
def isEmpty : Node → Bool
  | text s => (Bytes.trim s).isEmpty
  | _ => false

end Node

def callText (name : Bytes) (p : Option Pipeline) : Bytes :=
  let argument : Bytes := match p with
    | some p => " " ++ p.text
    | none => []
  "\x7b\x7btemplate " ++ Quoted.text name ++ argument ++ "\x7d\x7d"

/-! ## Parameters -/

mutual

def Operand.params : Operand → List Bytes
  | .field _ (root :: name :: _) => if root = "params" then [name] else []
  | .paren p => p.params
  | _ => []

def operandsParams : List Operand → List Bytes
  | [] => []
  | x :: rest => x.params ++ operandsParams rest

def Command.params : Command → List Bytes
  | .mk _ head args => head.params ++ operandsParams args

def commandsParams : List Command → List Bytes
  | [] => []
  | c :: rest => c.params ++ commandsParams rest

def Pipeline.params : Pipeline → List Bytes
  | .mk _ _ _ commands => commandsParams commands

end

mutual

/-- The parameters that a node names. Other templates that it runs, and what it passes to them,
do not count. -/
def Node.params : Node → List Bytes
  | .action p => p.params
  | .branch _ p body otherwise => p.params ++ nodesParams body ++ nodesParams otherwise
  | .range p body otherwise => p.params ++ nodesParams body ++ nodesParams otherwise
  | _ => []

def nodesParams : List Node → List Bytes
  | [] => []
  | n :: rest => n.params ++ nodesParams rest

end

end EngineHost.Template
