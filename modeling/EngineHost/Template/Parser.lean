import EngineHost.Template.Complaint
import EngineHost.Template.Token
import EngineHost.Value.Dict

/-!
# Reading templates

Tokens become nodes by recursive descent. A text may define further templates, which are kept by
name. The reader remembers the furthest token it has looked at, because complaints name its line.
-/

namespace EngineHost.Template

abbrev Trees := Dict (List Node)

structure Reader where
  rest : List Token
  /-- The furthest token that was looked at. -/
  reach : Token
  /-- The variables in scope. -/
  vars : List Bytes := ["$"]
  /-- The number of ranges around. -/
  ranges : Nat := 0
  /-- The number of parentheses around. -/
  parens : Nat := 0
  /-- The line on which the current action started. -/
  actionLine : Option Nat := none
  trees : Trees := []

abbrev ReaderM := StateT Reader (Except Complaint)

namespace ReaderM

/-- Gives up at the line of the furthest token. -/
def fail (cause : Cause) : ReaderM α := do throw ⟨(← get).reach.line, cause⟩

/-- The next token; the last one never goes away. -/
def look : ReaderM Token := fun r =>
  match r.rest with
  | [] => .ok (r.reach, r)
  | t :: _ => .ok (t, if r.reach.pos ≤ t.pos then { r with reach := t } else r)

def advance : ReaderM Unit :=
  modify fun r => match r.rest with
    | _ :: t :: rest => { r with rest := t :: rest }
    | _ => r

def next : ReaderM Token := do
  let t ← look
  advance
  return t

/-- The next token that is not white space, which is passed over. -/
def lookPast : ReaderM Token := do
  modify fun r => { r with rest := r.rest.dropWhile fun t => t.kind = .space }
  look

/-- Takes the next token that is not white space. -/
def nextPast : ReaderM Token := do
  let t ← lookPast
  advance
  return t

def unexpected (t : Token) (context : Bytes) : ReaderM α := do
  if t.kind = .bad then
    fail (.bad t ((← get).actionLine.filter (· != t.line)))
  else fail (.unexpected t context)

def expect (kind : Token.Kind) (context : Bytes) : ReaderM Token := do
  let t ← nextPast
  if t.kind = kind then return t else unexpected t context

/-- The result of a computation that may find a cause. -/
def orFail : Except Cause α → ReaderM α
  | .ok a => return a
  | .error cause => fail cause

/-- The text that a quoted token stands for. -/
def unquote (t : Token) : ReaderM Bytes :=
  match Quoted.read? t.text with
  | some s => return s
  | none => fail .badQuotes

/-- How many parentheses may stand around an operand. -/
def maxParens : Nat := 10000

def inParens (body : ReaderM α) : ReaderM α := do
  let outer := (← get).parens
  if maxParens ≤ outer then fail .tooDeep
  else
    modify fun r => { r with parens := outer + 1 }
    let a ← body
    modify fun r => { r with parens := outer }
    return a

def declare (name : Bytes) : ReaderM Unit := modify fun r => { r with vars := r.vars ++ [name] }

/-- The fields that follow a token without white space between. -/
def fields : List Token → List Bytes
  | [] => []
  | t :: rest => if t.kind = .field then t.text.drop 1 :: fields rest else []

/-- Takes the fields that follow, with the offset of the first. -/
def takeFields : ReaderM (Nat × List Bytes) := do
  let t ← look
  let names := fields (← get).rest
  modify fun r => { r with rest := r.rest.drop names.length }
  if names.isEmpty then return (t.pos, []) else
    let _ ← look
    return (t.pos, names)

def withFields (x : Operand) : ReaderM Operand := do
  let (pos, names) ← takeFields
  if names.isEmpty then return x
  else
    match x with
    | .field _ ns => return .field pos (ns ++ names)
    | .var _ v ns => return .var pos v (ns ++ names)
    | _ => if x.isLiteral then fail (.fieldOfLiteral x.text) else return .chain pos x names

/-- Reads a variable that is in scope. -/
def useVariable (t : Token) : ReaderM Operand := do
  if (← get).vars.contains t.text then return .var t.pos t.text []
  else fail (.noVariable t.text)

def constant (t : Token) : ReaderM Operand := do
  let c ← orFail <| match t.kind with
    | .charConstant => Constant.ofChar t.text
    | .complex => Constant.ofSum t.text
    | _ => Constant.ofNumeral t.text
  return .number t.pos t.text c

/-- Reads the variables in front of a pipeline, and whether they exist already. In front of the
items of a range there may be two. -/
def declarations (context : Bytes) : (count : Nat) → List Bytes → ReaderM (List Bytes × Bool)
  | 0, seen => return (seen, false)
  | count + 1, seen => do
    let v ← lookPast
    if v.kind != .variable then return (seen, false)
    else
      let start := (← get).rest
      advance
      let _ ← look
      let t ← lookPast
      if t.kind = .assign ∨ t.kind = .declare then
        advance
        declare v.text
        return (seen ++ [v.text], t.kind = .assign)
      else if t.kind = .symbol ∧ t.text = "," then
        advance
        declare v.text
        if context = "range" ∧ seen.isEmpty then
          let t ← lookPast
          if [Token.Kind.variable, .rightDelim, .rightParen].contains t.kind then
            declarations context count [v.text]
          else fail .onlyVariables
        else fail (.tooManyVariables context)
      else
        modify fun r => { r with rest := start }
        return (seen, false)

def starts : Token.Kind → Bool
  | .bool | .charConstant | .complex | .dot | .field | .name | .number | .keyword .null
  | .rawQuoted | .quoted | .variable | .leftParen => true
  | _ => false

/-- Refuses a pipeline that is empty or has a literal behind a pipe. -/
def checkPipeline (context : Bytes) (commands : List Command) : ReaderM Unit := do
  if commands.isEmpty then fail (.missingValue context)
  else
    match (commands.drop 1).findIdx? fun c => c.head.isLiteral with
    | some i => fail (.notExecutable (i + 2))
    | none => return

mutual

def pipeline (context : Bytes) (close : Token.Kind) : (fuel : Nat) → ReaderM Pipeline
  | 0 => fail .emptyCommand
  | fuel + 1 => do
    let t ← lookPast
    let (vars, assigns) ← declarations context 3 []
    let cs ← commands context close fuel
    checkPipeline context cs
    return .mk t.pos vars assigns cs

def commands (context : Bytes) (close : Token.Kind) : (fuel : Nat) → ReaderM (List Command)
  | 0 => fail .emptyCommand
  | fuel + 1 => do
    let t ← lookPast
    if t.kind = close then
      advance
      return []
    else if starts t.kind then
      let xs ← operands fuel
      match xs with
      | [] => fail .emptyCommand
      | x :: args => return .mk t.pos x args :: (← commands context close fuel)
    else unexpected t context

/-- Reads the operands of a command and the pipe behind it. -/
def operands : (fuel : Nat) → ReaderM (List Operand)
  | 0 => fail .emptyCommand
  | fuel + 1 => do
    let x ← operand? fuel
    let t ← look
    match t.kind with
    | .space =>
      advance
      return x.toList ++ (← operands fuel)
    | .rightDelim | .rightParen => return x.toList
    | .pipe =>
      advance
      return x.toList
    | _ => unexpected t "operand"

/-- Reads an operand with its fields, if one starts here. -/
def operand? : (fuel : Nat) → ReaderM (Option Operand)
  | 0 => fail .emptyCommand
  | fuel + 1 => do
    match ← term? fuel with
    | some x => return some (← withFields x)
    | none => return none

/-- Reads an operand without fields, if one starts here. -/
def term? : (fuel : Nat) → ReaderM (Option Operand)
  | 0 => fail .emptyCommand
  | fuel + 1 => do
    let t ← lookPast
    match t.kind with
    | .name =>
      advance
      match Builtin.ofName? t.text with
      | some f => return some (.function t.pos f)
      | none => fail (.noFunction t.text)
    | .dot =>
      advance
      return some (.dot t.pos)
    | .keyword .null =>
      advance
      return some (.null t.pos)
    | .variable =>
      advance
      return some (← useVariable t)
    | .field =>
      advance
      return some (.field t.pos [t.text.drop 1])
    | .bool =>
      advance
      return some (.bool t.pos (t.text = "true"))
    | .charConstant | .complex | .number =>
      advance
      return some (← constant t)
    | .leftParen =>
      advance
      return some (.paren (← inParens (pipeline "parenthesized pipeline" .rightParen fuel)))
    | .quoted | .rawQuoted =>
      advance
      return some (.string t.pos t.text (← unquote t))
    | _ => return none

end

/-- One step through a list of nodes: a node, or what ends the list. -/
inductive Item
  | node (n : Node)
  | clause (c : Clause)

def templateName (t : Token) (context : Bytes) : ReaderM Bytes :=
  if t.kind = .quoted ∨ t.kind = .rawQuoted then unquote t else unexpected t context

/-- Whether nodes write nothing but white space and do nothing else. -/
def isEmptyTree (nodes : List Node) : Bool := nodes.all Node.isEmpty

/-- Keeps a template. A second one of the same name takes the place of an empty one; an empty one
is dropped. -/
def addTree (name : Bytes) (nodes : List Node) : ReaderM Unit := do
  let trees := (← get).trees
  match Dict.get? trees name with
  | none => modify fun r => { r with trees := Dict.insert trees name nodes }
  | some old =>
    if isEmptyTree old then modify fun r => { r with trees := Dict.insert trees name nodes }
    else if isEmptyTree nodes then return
    else fail (.multipleDefinition name)

/-- Reads something in the scope of a new template. -/
def inNewScope (body : ReaderM α) : ReaderM α := do
  let outer ← get
  set { outer with vars := ["$"], ranges := 0, actionLine := none }
  let a ← body
  modify fun r =>
    { r with vars := outer.vars, ranges := outer.ranges, actionLine := outer.actionLine }
  return a

/-- Reads the rest of an action that leaves a range or goes on with it. -/
def jump (word : Bytes) (n : Node) : ReaderM Item := do
  let t ← nextPast
  if t.kind != .rightDelim then unexpected t ("\x7b\x7b" ++ word ++ "\x7d\x7d")
  else if (← get).ranges = 0 then fail (.outsideRange word)
  else return .node n

/-- Reads the rest of an alternative clause. A condition of its own stays unread. -/
def otherwiseClause : ReaderM Item := do
  let t ← lookPast
  if t.kind = .keyword .cond ∨ t.kind = .keyword .bind then return .clause .otherwise
  else
    let _ ← expect .rightDelim "else"
    return .clause .otherwise

mutual

/-- Reads nodes up to the clause that ends them. -/
def nodes : (fuel : Nat) → ReaderM (List Node × Clause)
  | 0 => fail .unexpectedEof
  | fuel + 1 => do
    let t ← lookPast
    if t.kind = .eof then fail .unexpectedEof
    else
      match ← item fuel with
      | .clause c => return ([], c)
      | .node n =>
        let (rest, c) ← nodes fuel
        return (n :: rest, c)

def item : (fuel : Nat) → ReaderM Item
  | 0 => fail .unexpectedEof
  | fuel + 1 => do
    let t ← nextPast
    match t.kind with
    | .text => return .node (.text t.text)
    | .leftDelim =>
      modify fun r => { r with actionLine := some t.line }
      let x ← action fuel
      modify fun r => { r with actionLine := none }
      return x
    | _ => unexpected t "input"

def action : (fuel : Nat) → ReaderM Item
  | 0 => fail .unexpectedEof
  | fuel + 1 => do
    let t ← lookPast
    match t.kind with
    | .keyword .block =>
      advance
      block fuel
    | .keyword .leave =>
      advance
      jump "break" .leave
    | .keyword .skip =>
      advance
      jump "continue" .skip
    | .keyword .otherwise =>
      advance
      otherwiseClause
    | .keyword .close =>
      advance
      let _ ← expect .rightDelim "end"
      return .clause .close
    | .keyword .cond =>
      advance
      return .node (← branch .test fuel)
    | .keyword .bind =>
      advance
      return .node (← branch .bind fuel)
    | .keyword .range =>
      advance
      return .node (← range fuel)
    | .keyword .template =>
      advance
      call fuel
    | _ => return .node (.action (← pipeline "command" .rightDelim fuel))

/-- Reads a template that is defined where it is run. -/
def block : (fuel : Nat) → ReaderM Item
  | 0 => fail .unexpectedEof
  | fuel + 1 => do
    let t ← nextPast
    let name ← templateName t "block clause"
    let p ← pipeline "block clause" .rightDelim fuel
    let line := (← get).reach.line
    let (body, c) ← inNewScope (nodes fuel)
    if c != .close then throw ⟨line, .misplaced c "block clause"⟩
    else
      addTree name body
      return .node (.call t.pos name (some p))

def call : (fuel : Nat) → ReaderM Item
  | 0 => fail .unexpectedEof
  | fuel + 1 => do
    let t ← nextPast
    let name ← templateName t "template clause"
    let d ← lookPast
    if d.kind = .rightDelim then
      advance
      return .node (.call t.pos name none)
    else return .node (.call t.pos name (some (← pipeline "template clause" .rightDelim fuel)))

def branch (kind : Branching) : (fuel : Nat) → ReaderM Node
  | 0 => fail .unexpectedEof
  | fuel + 1 => do
    let vars := (← get).vars
    let (context, word) : Bytes × Keyword := match kind with
      | .test => ("if", .cond)
      | .bind => ("with", .bind)
    let p ← pipeline context .rightDelim fuel
    let (body, c) ← nodes fuel
    let otherwise ← match c with
      | .close => pure []
      | .otherwise => do
        let t ← look
        if t.kind = .keyword word then
          advance
          pure [← branch kind fuel]
        else lastNodes fuel
    modify fun r => { r with vars }
    return .branch kind p body otherwise

def range : (fuel : Nat) → ReaderM Node
  | 0 => fail .unexpectedEof
  | fuel + 1 => do
    let vars := (← get).vars
    let p ← pipeline "range" .rightDelim fuel
    modify fun r => { r with ranges := r.ranges + 1 }
    let (body, c) ← nodes fuel
    modify fun r => { r with ranges := r.ranges - 1 }
    let otherwise ← match c with
      | .close => pure []
      | .otherwise => lastNodes fuel
    modify fun r => { r with vars }
    return .range p body otherwise

def lastNodes : (fuel : Nat) → ReaderM (List Node)
  | 0 => fail .unexpectedEof
  | fuel + 1 => do
    let (body, c) ← nodes fuel
    if c = .close then return body else fail (.expectedEnd c)

end

def definition (fuel : Nat) : ReaderM Unit := inNewScope do
  let t ← nextPast
  let name ← templateName t "define clause"
  let _ ← expect .rightDelim "define clause"
  let (body, c) ← nodes fuel
  if c = .close then addTree name body else fail (.misplaced c "define clause")

/-- Passes over the start of a definition, if one stands here. -/
def startsDefinition : ReaderM Bool := do
  let t ← look
  if t.kind != .leftDelim then return false
  else
    let start := (← get).rest
    advance
    let w ← nextPast
    if w.kind = .keyword .define then return true
    else
      modify fun r => { r with rest := start }
      return false

/-- Reads the nodes of a whole text and the templates that it defines. -/
def document : (fuel : Nat) → ReaderM (List Node)
  | 0 => fail .unexpectedEof
  | fuel + 1 => do
    let t ← look
    if t.kind = .eof then return []
    else if ← startsDefinition then
      definition fuel
      document fuel
    else
      match ← item fuel with
      | .clause c => fail (.stray c)
      | .node n => return n :: (← document fuel)

end ReaderM

def Trees.ofText (name text : Bytes) : Except Complaint Trees :=
  let tokens := Token.ofText text
  let whole : ReaderM Trees := do
    let nodes ← ReaderM.document (8 * (tokens.length + 1))
    ReaderM.addTree name nodes
    return (← get).trees
  whole.run' { rest := tokens, reach := tokens.headD default }

end EngineHost.Template
