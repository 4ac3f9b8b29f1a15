import EngineHost.Template.Functions
import EngineHost.Template.Parser

/-!
# Running templates

A template runs on a current value and writes text. Variables live until the clause that they were
declared in ends. Messages point at the node that was looked at last.
-/

namespace EngineHost.Template

/-- A node that a message can point at. -/
inductive Spot
  | operand (x : Operand)
  | command (c : Command)
  | pipeline (p : Pipeline)
  | call (pos : Nat) (name : Bytes) (p : Option Pipeline)

namespace Spot

def pos : Spot → Nat
  | operand x => x.pos
  | command c => c.pos
  | pipeline p => p.pos
  | call pos _ _ => pos

def text : Spot → Bytes
  | operand x => x.text
  | command c => c.text
  | pipeline p => p.text
  | call _ name p => callText name p

end Spot

inductive Obstacle
  /-- A mapping has no entry of a name. -/
  | noEntry (mapping : Datum) (key : Bytes)
  | noData (key : Bytes)
  | nullField (typeName field : Bytes)
  | noField (field typeName : Bytes)
  | notMethod (field : Bytes)
  | notFunction (x : Operand)
  | nilCommand
  | notIterable (d : Datum)
  | oneVariable (d : Datum)
  | noTemplate (name : Bytes)
  | tooDeep
  | noVariable (name : Bytes)
  | argumentCount (f : Builtin) (want got : Nat)
  | tooFewArguments (f : Builtin) (want got : Nat)
  | wrongType (typeName : Bytes)
  | invalidText
  | nilText
  | notText (x : Operand)
  | overflow (text : Bytes)
  | call (f : Builtin) (fault : CallFault)

/-- Templates run one another to this depth. -/
def maxDepth : Nat := 100000

namespace Obstacle

def operandThing (x : Operand) : Format.Thing := { typeName := x.kindName, text := x.text }

def format : Obstacle → Bytes × List Format.Argument
  | noEntry _ key => ("map has no entry for key %q", [.text key])
  | noData key => ("nil data; no entry for key %q", [.text key])
  | nullField t field => ("nil pointer evaluating %s.%s", [.type t, .text field])
  | noField field t => ("can't evaluate field %s in type %s", [.text field, .type t])
  | notMethod field => ("%s is not a method but has arguments", [.text field])
  | notFunction x => ("can't give argument to non-function %s", [.thing (operandThing x)])
  | nilCommand => ("nil is not a command", [])
  | notIterable d => ("range can't iterate over %v", [.handed d])
  | oneVariable d => ("can't use %v to iterate over more than one variable", [.handed d])
  | noTemplate name => ("template %q not defined", [.text name])
  | tooDeep => ("exceeded maximum template depth (%v)", [.number maxDepth])
  | noVariable name => ("undefined variable: %s", [.text name])
  | argumentCount f want got =>
    ("wrong number of args for %s: want %d got %d", [.text f.name, .number want, .number got])
  | tooFewArguments f want got =>
    ("wrong number of args for %s: want at least %d got %d",
      [.text f.name, .number want, .number got])
  | wrongType t => ("wrong type for value; expected %s; got %s", [.type "string", .type t])
  | invalidText => ("invalid value; expected %s", [.type "string"])
  | nilText => ("cannot assign nil to %s", [.type "string"])
  | notText x => ("expected string; found %s", [.thing (operandThing x)])
  | overflow text => ("%s overflows int", [.text text])
  | call f fault => ("error calling %s: %w", [.text f.name, .thing fault.thing])

end Obstacle

structure Failure where
  template : Bytes
  spot : Spot
  obstacle : Obstacle

/-- Percent signs that stand for themselves in a format. -/
def doublePercent (s : Bytes) : Bytes := s.flatMap fun b => if b = 37 then [37, 37] else [b]

def Failure.message (name text : Bytes) (f : Failure) : Bytes :=
  let before := text.take f.spot.pos
  let column := (before.reverse.takeWhile (· != 10)).length
  let place := name ++ ":" ++ Bytes.ofNat (1 + Token.newlines before) ++ ":" ++ Bytes.ofNat column
  let (words, args) := f.obstacle.format
  Format.format ("template: " ++ place ++ ": executing " ++
      Quoted.text (doublePercent f.template) ++ " at <" ++ doublePercent f.spot.text ++ ">: " ++ words)
    args

/-- What ends the run of a node early. -/
inductive Stop
  | failure (f : Failure)
  /-- The innermost range is left. -/
  | leave
  /-- The innermost range goes on with its next item. -/
  | skip

structure Run where
  template : Bytes
  /-- The node that was looked at last. -/
  spot : Spot
  /-- The variables, the innermost first. -/
  vars : List (Bytes × Cell)
  /-- What was written, the last piece first. -/
  written : List Bytes := []

abbrev RunM := ExceptT Stop (StateM Run)

namespace RunM

def visit (s : Spot) : RunM Unit := modify fun r => { r with spot := s }

def fail (o : Obstacle) : RunM α := do
  let r ← get
  throw (.failure ⟨r.template, r.spot, o⟩)

/-- The result of a computation that may meet an obstacle. -/
def orFail : Except Obstacle α → RunM α
  | .ok a => return a
  | .error o => fail o

def write (s : Bytes) : RunM Unit := modify fun r => { r with written := s :: r.written }

/-! ## Variables -/

def variableValue (name : Bytes) : RunM Cell := do
  match (← get).vars.find? fun v => v.1 == name with
  | some v => return v.2
  | none => fail (.noVariable name)

def push (name : Bytes) (c : Cell) : RunM Unit :=
  modify fun r => { r with vars := (name, c) :: r.vars }

/-- The variables with the innermost one of a name changed. -/
def replaced (name : Bytes) (c : Cell) : List (Bytes × Cell) → Option (List (Bytes × Cell))
  | [] => none
  | v :: rest =>
    if v.1 = name then some ((name, c) :: rest) else (replaced name c rest).map (v :: ·)

def assign (name : Bytes) (c : Cell) : RunM Unit := do
  match replaced name c (← get).vars with
  | some vars => modify fun r => { r with vars }
  | none => fail (.noVariable name)

def assignAt (depth : Nat) (c : Cell) : RunM Unit :=
  modify fun r => { r with vars := r.vars.modify depth fun v => (v.1, c) }

/-- Drops the variables that were declared since there were `count`. -/
def popTo (count : Nat) : RunM Unit :=
  modify fun r => { r with vars := r.vars.drop (r.vars.length - count) }

/-- Runs something and drops the variables that it declared. -/
def inScope (body : RunM α) : RunM α := do
  let count := (← get).vars.length
  let a ← body
  popTo count
  return a

/-! ## Operands -/

def field (name : Bytes) (hasArguments : Bool) (receiver : Cell) : Except Obstacle Cell :=
  let found (mapping : Datum) (v : Option Value) : Except Obstacle Cell :=
    if hasArguments then .error (.notMethod name)
    else match v with
      | some v => .ok (.place v)
      | none => .error (.noEntry mapping name)
  match receiver with
  | .absent => .error (.noData name)
  | _ =>
    match receiver.value? with
    | none => .error (.nullField receiver.typeName name)
    | some (.map entries) => found (.map entries) (Dict.get? entries name)
    | some .noMap => found .noMap none
    | some (.mixed entries) => found (.mixed entries) <| entries.findSome? fun
      | (.string k, v) => if k = name then some v else none
      | _ => none
    | some _ => .error (.noField name receiver.typeName)

/-- Fields one inside the other; arguments go to the last. -/
def fields (hasArguments : Bool) (receiver : Cell) : List Bytes → Except Obstacle Cell
  | [] => .ok receiver
  | [name] => field name hasArguments receiver
  | name :: rest => do fields hasArguments (← field name false receiver) rest

def noArguments (x : Operand) (given : Bool) : RunM Unit :=
  if given then fail (.notFunction x) else return

def constant (text : Bytes) : Constant → Except Obstacle Cell
  | .int n => .ok (.datum (.int n))
  | .float x => .ok (.datum (.float x))
  | .complex re im => .ok (.datum (.complex re im))
  | .tooLarge => .error (.overflow text)

def asText (c : Cell) : Except Obstacle Cell :=
  match c with
  | .absent => .error .invalidText
  | _ =>
    match c.value? with
    | some (.string s) => .ok (.datum (.string s))
    | some d => .error (.wrongType d.typeName)
    | none => .error (.wrongType c.typeName)

/-- Refuses a wrong number of arguments. -/
def checkArity (f : Builtin) (given : Nat) (last : Option Cell) : RunM Unit :=
  let count := given + (if last.isSome then 1 else 0)
  match Function.arity f with
  | (want, true) => if count < want then fail (.tooFewArguments f want given) else return
  | (want, false) => if count = want then return else fail (.argumentCount f want count)

/-- Applies a function, whose failure is reported at a node. -/
def applyAt (site : Spot) (f : Builtin) (args : List Cell) : RunM Cell :=
  match Function.apply f args with
  | .ok c => return c
  | .error fault => do
    visit site
    fail (.call f fault)

/-- Refuses to call a value as a function; there are no functions among values. -/
def refuseCall (site : Spot) (name : Bytes) (callee : Cell) : RunM Cell := do
  visit site
  match callee.value? with
  | none => fail (.call .call .callOfNil)
  | some d => fail (.call .call (.notFunction name d.typeName))

/-- How a value that comes through a pipe is named as a function. -/
def pipedName (c : Cell) : Bytes :=
  match c with
  | .datum (.string s) => s
  | .absent => "<invalid Value>"
  | c => "<" ++ c.typeName ++ " Value>"

/-- Takes the outcome of a pipeline into its variables. -/
def bindAll (p : Pipeline) (c : Cell) : RunM Unit :=
  p.vars.forM fun v => if p.assigns then assign v c else push v c

mutual

/-- The value of an operand as an argument, where a text may be wanted. -/
def argument (dot : Cell) (wantsText : Bool) : Operand → RunM Cell
  | .dot pos => do
    visit (.operand (.dot pos))
    typed dot
  | .null pos => do
    visit (.operand (.null pos))
    if wantsText then fail .nilText else return .absent
  | .bool pos b => do
    visit (.operand (.bool pos b))
    if wantsText then fail (.notText (.bool pos b)) else return .datum (.bool b)
  | .number pos text c => do
    visit (.operand (.number pos text c))
    if wantsText then fail (.notText (.number pos text c)) else orFail (constant text c)
  | .string pos quoted text => do
    visit (.operand (.string pos quoted text))
    return .datum (.string text)
  | .field pos names => do
    visit (.operand (.field pos names))
    typed (← orFail (fields false dot names))
  | .var pos name names => do
    visit (.operand (.var pos name names))
    let c ← variableValue name
    typed (← orFail (fields false c names))
  | .function pos f => do
    visit (.operand (.function pos f))
    checkArity f 0 none
    typed (← applyAt (.operand (.function pos f)) f [])
  | .chain pos base names => do
    visit (.operand (.chain pos base names))
    let c ← argument dot false base
    typed (← orFail (fields false c names))
  | .paren p => do
    visit (.pipeline p)
    typed (← evaluate dot p)
where
  /-- The value, if a text is not wanted or it is one. -/
  typed (c : Cell) : RunM Cell := if wantsText then orFail (asText c) else return c

def arguments (dot : Cell) : List Operand → RunM (List Cell)
  | [] => return []
  | x :: rest => do
    let c ← argument dot false x
    return c :: (← arguments dot rest)

/-- The values of the arguments of a function, the first of which may have to be a text. -/
def argumentsOf (dot : Cell) (f : Builtin) : List Operand → RunM (List Cell)
  | [] => return []
  | x :: rest => do
    let c ← argument dot (f = .printf) x
    return c :: (← arguments dot rest)

/-- The first argument that decides, or the last. -/
def decide (dot : Cell) (stopsAt : Bool) (last : Option Cell) : List Operand → RunM Cell
  | [] => return last.getD .absent
  | [x] => do
    let c ← argument dot false x
    if c.isTrue = stopsAt then return c else return last.getD c
  | x :: rest => do
    let c ← argument dot false x
    if c.isTrue = stopsAt then return c else decide dot stopsAt last rest

/-- The outcome of a command, to which the outcome of the one before may be passed. -/
def command (dot : Cell) (last : Option Cell) : Command → RunM Cell
  | .mk pos (.function fpos f) args => do
    let site := Spot.command (.mk pos (.function fpos f) args)
    visit (.operand (.function fpos f))
    checkArity f args.length last
    match f with
    | .conj => decide dot false last args
    | .disj => decide dot true last args
    | _ =>
      let given ← argumentsOf dot f args
      let last ← match last with
        | some c => if f = .printf ∧ given.isEmpty then pure [← orFail (asText c)] else pure [c]
        | none => pure []
      let all := given ++ last
      if f = .call then
        let name := match args with
          | x :: _ => x.text
          | [] => pipedName (all.headD .absent)
        refuseCall site name (all.headD .absent)
      else applyAt site f all
  | .mk _ (.field pos names) args => do
    visit (.operand (.field pos names))
    orFail (fields (!args.isEmpty || last.isSome) dot names)
  | .mk _ (.chain pos base names) args => do
    visit (.operand (.chain pos base names))
    let c ← argument dot false base
    orFail (fields (!args.isEmpty || last.isSome) c names)
  | .mk _ (.var pos name names) args => do
    visit (.operand (.var pos name names))
    let c ← variableValue name
    if names.isEmpty then noArguments (.var pos name names) (!args.isEmpty || last.isSome)
    orFail (fields (!args.isEmpty || last.isSome) c names)
  | .mk _ (.paren p) args => do
    noArguments (.paren p) (!args.isEmpty || last.isSome)
    evaluate dot p
  | .mk _ (.null pos) args => do
    visit (.operand (.null pos))
    noArguments (.null pos) (!args.isEmpty || last.isSome)
    fail .nilCommand
  | .mk _ x args => do
    visit (.operand x)
    noArguments x (!args.isEmpty || last.isSome)
    argument dot false x

def commands (dot : Cell) (last : Option Cell) : List Command → RunM Cell
  | [] => return last.getD .absent
  | c :: rest => do
    let v ← command dot last c
    commands dot (some v.inside) rest

def evaluate (dot : Cell) : Pipeline → RunM Cell
  | .mk pos vars assigns cs => do
    visit (.pipeline (.mk pos vars assigns cs))
    let c ← commands dot none cs
    bindAll (.mk pos vars assigns cs) c
    return c

end

/-! ## Nodes -/

def eachItem (body : Cell → Cell → RunM Unit) : List (Cell × Cell) → RunM Unit
  | [] => return
  | (key, item) :: rest => do
    body key item
    eachItem body rest

/-- Goes through `count` numbers from `start` on. -/
def eachNumber (body : Nat → RunM Unit) : (count start : Nat) → RunM Unit
  | 0, _ => return
  | count + 1, start => do
    body start
    eachNumber body count (start + 1)

/-- Goes through what a value holds: items with their indexes, entries with their keys, or the
numbers below it. Answers whether there was anything. -/
def each (p : Pipeline) (body : Cell → Cell → RunM Unit) (c : Cell) : RunM Bool := do
  match c.value? with
  | none => return false
  | some .noMap => return false
  | some (.list items _) =>
    eachItem body (items.zipIdx.map fun (v, i) => (.datum (.int (Int64.ofNat i)), .place v))
    return !items.isEmpty
  | some (.map entries) =>
    eachItem body (entries.map fun (k, v) => (.datum (.string k), .place v))
    return !entries.isEmpty
  | some (.mixed entries) =>
    eachItem body (entries.map fun (k, v) => (.place k, .place v))
    return !entries.isEmpty
  | some (.int n) => numbers (.int n) n.toInt.toNat fun i => .int (Int64.ofNat i)
  | some (.int64 n) => numbers (.int64 n) n.toInt.toNat fun i => .int64 (Int64.ofNat i)
  | some (.uint64 n) => numbers (.uint64 n) n.toNat fun i => .uint64 (UInt64.ofNat i)
  | some (.byte n) => numbers (.byte n) n.toNat fun i => .byte (UInt8.ofNat i)
  | some d => fail (.notIterable d)
where
  /-- The numbers below a value, which take one variable. -/
  numbers (d : Datum) (count : Nat) (make : Nat → Datum) : RunM Bool := do
    if 1 < p.vars.length then fail (.oneVariable d)
    else
      eachNumber (fun i => body .absent (.datum (make i))) count 0
      return count != 0

def setItem (p : Pipeline) (key item : Cell) : RunM Unit :=
  match p.vars, p.assigns with
  | [], _ => return
  | [v], true => assign v item
  | v :: w :: _, true => do
    assign v key
    assign w item
  | [_], false => assignAt 0 item
  | _ :: _ :: _, false => do
    assignAt 0 item
    assignAt 1 key

def oneItem (p : Pipeline) (body : Cell → RunM Unit) (key item : Cell) : RunM Unit := do
  setItem p key item
  let count := (← get).vars.length
  tryCatch (body item) fun
    | .skip => return
    | s => throw s
  popTo count

/-- Runs a range. What leaves it leaves no variables behind. -/
def runRange (p : Pipeline) (dot : Cell) (body : Cell → RunM Unit) (otherwise : RunM Unit) :
    RunM Unit := do
  let count := (← get).vars.length
  tryCatch (do
    let c ← evaluate dot p
    if !(← each p (oneItem p body) c) then otherwise) fun
    | .leave => return
    | s => throw s
  popTo count

abbrev Callee := Bytes → Except Obstacle (Cell → RunM Unit)

mutual

def node (callee : Callee) (dot : Cell) : Node → RunM Unit
  | .text s => write s
  | .action p => do
    let c ← evaluate dot p
    if p.vars.isEmpty then
      write (match c.value? with
        | some d => Format.display (some d)
        | none => "<no value>")
  | .branch kind p body otherwise => inScope do
    let c ← evaluate dot p
    if c.isTrue then
      match kind with
      | .test => nodes callee dot body
      | .bind => nodes callee c body
    else nodes callee dot otherwise
  | .range p body otherwise =>
    runRange p dot (fun item => nodes callee item body) (nodes callee dot otherwise)
  | .call pos name p => do
    visit (.call pos name p)
    let run ← orFail (callee name)
    match p with
    | some p => do
      let c ← evaluate dot p
      run c
    | none => run .absent
  | .leave => throw .leave
  | .skip => throw .skip

def nodes (callee : Callee) (dot : Cell) : List Node → RunM Unit
  | [] => return
  | n :: rest => do
    node callee dot n
    nodes callee dot rest

end

/-- Runs something as another template, which sees none of the variables. -/
def within (template : Bytes) (dot : Cell) (body : RunM Unit) : RunM Unit := do
  let outer ← get
  set { outer with template, vars := [("$", dot)] }
  body
  modify fun r => { r with template := outer.template, vars := outer.vars }

/-- The template of a name, as long as templates may still run one another. -/
def callee (trees : Trees) : (depth : Nat) → Callee
  | 0, name => .error (if Dict.has trees name then .tooDeep else .noTemplate name)
  | depth + 1, name =>
    match Dict.get? trees name with
    | none => .error (.noTemplate name)
    | some body => .ok fun dot => within name dot (nodes (callee trees depth) dot body)

end RunM

def render (trees : Trees) (name : Bytes) (data : Cell) : Except Failure Bytes :=
  let body := (Dict.get? trees name).getD []
  let start : Run := { template := name, spot := .operand (.dot 0), vars := [("$", data)] }
  let (result, last) := ((RunM.nodes (RunM.callee trees maxDepth) data body).run).run start
  match result with
  | .error (.failure f) => .error f
  | _ => .ok last.written.reverse.flatten

end EngineHost.Template
