import EngineHost.Yaml.Meaning
import EngineHost.Yaml.Stream

/-!
# Documents as graphs

The nodes of a document are numbered in the order in which they begin. An alias leads to another
node, which may be one that contains the alias, so a document is a graph and not a tree.
-/

namespace EngineHost.Yaml

/-- What a node holds; other nodes are given by their numbers. -/
inductive Content
  | scalar (text : Bytes) (quoted : Bool)
  | sequence (items : List Nat)
  | mapping (entries : List (Nat × Nat))
  | alias (name : Bytes) (target : Nat)
deriving DecidableEq, Inhabited, Repr

/-- A node with its tag in short form and its line, counted from one. -/
structure Node where
  tag : Bytes
  line : Nat
  content : Content
deriving Inhabited, Repr

/-- A document: its nodes and the number of its root. -/
structure Graph where
  nodes : Array Node
  root : Nat
deriving Inhabited, Repr

namespace Graph

def node (g : Graph) (n : Nat) : Node := g.nodes.getD n default

structure Build where
  stream : Stream
  nodes : Array Node := #[]
  anchors : List (Bytes × Nat) := []
  handles : List (Bytes × Bytes) := []
deriving Inhabited

abbrev BuildM := StateT Build (Except Failure)

def tokens {α : Type} (m : StreamM α) : BuildM α := do
  let b ← get
  let (a, stream) ← m.run b.stream
  set { b with stream }
  return a

def peek : BuildM Token := tokens Stream.peek

def take : BuildM Unit := tokens Stream.take

/-- Takes the next token and shows the one behind it. -/
def next : BuildM Token := do take; peek

/-- Fails with a problem that was noted while the last part of the document was read: the beginning or
the end of a document or of a collection, a scalar or an alias. -/
def settle : BuildM Unit := do
  if let some problem := (← get).stream.cursor.noted then throw (.encoding problem)

/-- Adds a node, under its anchor if it has one. -/
def add (n : Node) (anchor : Option Bytes := none) : BuildM Nat := do
  settle
  let b ← get
  let number := b.nodes.size
  set { b with
    nodes := b.nodes.push n
    anchors := match anchor with
      | some name => (name, number) :: b.anchors
      | none => b.anchors }
  return number

/-- Sets what a node holds, at its end. -/
def fill (number : Nat) (content : Content) : BuildM Unit := do
  settle
  modify fun b => { b with nodes := b.nodes.modify number fun n => { n with content } }

/-- The tag of a scalar: the one written, else that of its spelling. A bare mark is no tag. -/
def scalarTag (tag text : Bytes) (quoted : Bool) : Bytes :=
  if !tag.isEmpty && tag ≠ "!" then shortTag tag
  else if quoted then "!!str"
  else if text = "<<" then "!!merge"
  else (spelled true text).1

/-- The tag of a collection: the one written, else the usual one. -/
def collectionTag (tag usual : Bytes) : Bytes :=
  if !tag.isEmpty && tag ≠ "!" then shortTag tag else usual

def addEmpty (here : Mark) : BuildM Nat := add ⟨"!!null", here.line + 1, .scalar [] false⟩

/-- What may stand in front of a node. -/
structure Properties where
  start : Mark
  anchor : Option Bytes := none
  tag : Bytes := []

def expandTag (start here : Mark) (handle suffix : Bytes) : BuildM Bytes := do
  if handle.isEmpty then return suffix
  match (← get).handles.lookup handle with
  | some expansion => return expansion ++ suffix
  | none => throw (.shape start here .undefinedHandle)

/-- Reads the anchor and the tag of a node, in either order. -/
def properties : BuildM Properties := do
  let t ← peek
  match t.word with
  | .anchor name =>
    let u ← next
    match u.word with
    | .tag handle suffix =>
      let _ ← next
      return ⟨t.start, some name, ← expandTag t.start u.start handle suffix⟩
    | _ => return ⟨t.start, some name, []⟩
  | .tag handle suffix =>
    let u ← next
    match u.word with
    | .anchor name =>
      let _ ← next
      return ⟨t.start, some name, ← expandTag t.start t.start handle suffix⟩
    | _ => return ⟨t.start, none, ← expandTag t.start t.start handle suffix⟩
  | _ => return ⟨t.start, none, []⟩

def endsBlockEntry (w : Word) : Bool := w == .blockEntry || w == .blockEnd

/-- Whether a token ends a key or a value of a block mapping. -/
def endsBlockPair (w : Word) : Bool := w == .key || w == .value || w == .blockEnd

mutual

/-- Reads a node: in a block or in a flow collection, and where a sequence may stand without
indentation of its own. -/
def readNode : (steps : Nat) → (block indentless : Bool) → BuildM Nat
  | 0, _, _ => addEmpty {}
  | steps + 1, block, indentless => do
    let first ← peek
    if let .alias name := first.word then
      take
      settle
      match (← get).anchors.lookup name with
      | some target => return ← add ⟨[], first.start.line + 1, .alias name target⟩
      | none => throw (.unknownAnchor name)
    let props ← properties
    let t ← peek
    let line := props.start.line + 1
    let collection (usual : String) (empty : Content) :=
      add ⟨collectionTag props.tag usual, line, empty⟩ props.anchor
    match t.word, block with
    | .scalar text style, _ =>
      take
      let quoted := style != .plain
      add ⟨scalarTag props.tag text quoted, line, .scalar text quoted⟩ props.anchor
    | .openSequence, _ =>
      let n ← collection "!!seq" (.sequence [])
      take
      let items ← readFlowItems steps t.start true []
      fill n (.sequence items.reverse)
      return n
    | .openMapping, _ =>
      let n ← collection "!!map" (.mapping [])
      take
      let entries ← readFlowPairs steps t.start true []
      fill n (.mapping entries.reverse)
      return n
    | .blockSequence, true =>
      let n ← collection "!!seq" (.sequence [])
      take
      let items ← readBlockItems steps t.start []
      fill n (.sequence items.reverse)
      return n
    | .blockMapping, true =>
      let n ← collection "!!map" (.mapping [])
      take
      let entries ← readBlockPairs steps t.start []
      fill n (.mapping entries.reverse)
      return n
    | word, _ =>
      if indentless && word == .blockEntry then
        let n ← collection "!!seq" (.sequence [])
        let items ← readIndentlessItems steps []
        fill n (.sequence items.reverse)
        return n
      else if props.anchor.isSome || !props.tag.isEmpty then
        add ⟨scalarTag props.tag [] false, line, .scalar [] false⟩ props.anchor
      else throw (.shape props.start t.start .nodeContent)

/-- Reads the items of a block sequence, the last first. -/
def readBlockItems : (steps : Nat) → (start : Mark) → (items : List Nat) → BuildM (List Nat)
  | 0, _, items => return items
  | steps + 1, start, items => do
    let t ← peek
    match t.word with
    | .blockEntry =>
      let u ← next
      let item ← if endsBlockEntry u.word then addEmpty t.stop else readNode steps true false
      readBlockItems steps start (item :: items)
    | .blockEnd => take; return items
    | _ => throw (.shape start t.start .blockEntry)

/-- Reads the items of a block sequence without indentation of its own, the last first. -/
def readIndentlessItems : (steps : Nat) → (items : List Nat) → BuildM (List Nat)
  | 0, items => return items
  | steps + 1, items => do
    let t ← peek
    match t.word with
    | .blockEntry =>
      let u ← next
      let item ←
        if endsBlockEntry u.word || endsBlockPair u.word then addEmpty t.stop
        else readNode steps true false
      readIndentlessItems steps (item :: items)
    | _ => return items

/-- Reads the entries of a block mapping, the last first. -/
def readBlockPairs : (steps : Nat) → (start : Mark) → (entries : List (Nat × Nat)) →
    BuildM (List (Nat × Nat))
  | 0, _, entries => return entries
  | steps + 1, start, entries => do
    let t ← peek
    match t.word with
    | .key =>
      let u ← next
      let k ← if endsBlockPair u.word then addEmpty t.stop else readNode steps true true
      let v ← readBlockValue steps
      readBlockPairs steps start ((k, v) :: entries)
    | .blockEnd => take; return entries
    | _ => throw (.shape start t.start .blockKey)

def readBlockValue : (steps : Nat) → BuildM Nat
  | 0 => addEmpty {}
  | steps + 1 => do
    let t ← peek
    match t.word with
    | .value =>
      let u ← next
      if endsBlockPair u.word then addEmpty t.stop else readNode steps true true
    | _ => addEmpty t.start

/-- Reads the items of a flow sequence, the last first. An entry with a colon is a mapping of one
entry. -/
def readFlowItems : (steps : Nat) → (start : Mark) → (first : Bool) → (items : List Nat) →
    BuildM (List Nat)
  | 0, _, _, items => return items
  | steps + 1, start, first, items => do
    let t ← peek
    if t.word == .closeSequence then
      take
      return items
    let t ←
      if first then pure t
      else if t.word == .flowEntry then next
      else throw (.shape start t.start .flowSequence)
    match t.word with
    | .key =>
      let n ← add ⟨"!!map", t.start.line + 1, .mapping []⟩
      take
      let k ← readFlowPairKey steps
      let v ← readFlowPairValue steps
      let _ ← peek
      fill n (.mapping [(k, v)])
      readFlowItems steps start false (n :: items)
    | .closeSequence => take; return items
    | _ =>
      let item ← readNode steps false false
      readFlowItems steps start false (item :: items)

def readFlowPairKey : (steps : Nat) → BuildM Nat
  | 0 => addEmpty {}
  | steps + 1 => do
    let t ← peek
    match t.word with
    | .value | .flowEntry | .closeSequence => take; addEmpty t.stop
    | _ => readNode steps false false

def readFlowPairValue : (steps : Nat) → BuildM Nat
  | 0 => addEmpty {}
  | steps + 1 => do
    let t ← peek
    match t.word with
    | .value =>
      let u ← next
      if u.word == .flowEntry || u.word == .closeSequence then addEmpty t.start
      else readNode steps false false
    | _ => addEmpty t.start

/-- Reads the entries of a flow mapping, the last first. -/
def readFlowPairs : (steps : Nat) → (start : Mark) → (first : Bool) →
    (entries : List (Nat × Nat)) → BuildM (List (Nat × Nat))
  | 0, _, _, entries => return entries
  | steps + 1, start, first, entries => do
    let t ← peek
    if t.word == .closeMapping then
      take
      return entries
    let t ←
      if first then pure t
      else if t.word == .flowEntry then next
      else throw (.shape start t.start .flowMapping)
    match t.word with
    | .key =>
      let u ← next
      let k ←
        if u.word == .value || u.word == .flowEntry || u.word == .closeMapping then
          addEmpty u.start
        else readNode steps false false
      let v ← readFlowValue steps
      readFlowPairs steps start false ((k, v) :: entries)
    | .closeMapping => take; return entries
    | _ =>
      let k ← readNode steps false false
      let u ← peek
      let v ← addEmpty u.start
      readFlowPairs steps start false ((k, v) :: entries)

def readFlowValue : (steps : Nat) → BuildM Nat
  | 0 => addEmpty {}
  | steps + 1 => do
    let t ← peek
    match t.word with
    | .value =>
      let u ← next
      if u.word == .flowEntry || u.word == .closeMapping then addEmpty u.start
      else readNode steps false false
    | _ => addEmpty t.start

end

/-- The handles that every document knows. -/
def usualHandles : List (Bytes × Bytes) := [("!", "!"), ("!!", "tag:yaml.org,2002:")]

def readDirectives : (steps : Nat) → (versioned : Bool) → BuildM Unit
  | 0, _ => pure ()
  | steps + 1, versioned => do
    let t ← peek
    match t.word with
    | .version major minor =>
      if versioned then throw (.shape {} t.start .duplicateVersion)
      if major != 1 || minor != 1 then throw (.shape {} t.start .incompatibleVersion)
      take
      readDirectives steps true
    | .tagHandle handle expansion =>
      if ((← get).handles.lookup handle).isSome then throw (.shape {} t.start .duplicateHandle)
      modify fun b => { b with handles := b.handles ++ [(handle, expansion)] }
      take
      readDirectives steps versioned
    | _ => modify fun b => { b with handles := b.handles ++ usualHandles }

def beginsHead : Word → Bool
  | .version _ _ | .tagHandle _ _ | .documentStart => true
  | _ => false

def readDocument (steps : Nat) : BuildM (Option Nat) := do
  let _ ← peek
  settle
  let t ← next
  if t.word == .streamEnd then
    settle
    return none
  let root ←
    if beginsHead t.word then
      readDirectives steps false
      let u ← peek
      if u.word != .documentStart then throw (.shape {} u.start .documentStart)
      settle
      let v ← next
      if beginsHead v.word || v.word == .documentEnd || v.word == .streamEnd then addEmpty v.start
      else readNode steps true false
    else do
      settle
      modify fun b => { b with handles := usualHandles }
      readNode steps true false
  let _ ← peek
  settle
  return some root

/-- The first document of a text; nothing if it holds none. -/
def ofBytes? (s : Bytes) : Except Failure (Option Graph) :=
  match (readDocument (8 * s.length + 64)).run { stream := Stream.ofBytes s } with
  | .error f => .error f
  | .ok (none, _) => .ok none
  | .ok (some root, b) => .ok (some ⟨b.nodes, root⟩)

end Graph

end EngineHost.Yaml
