import EngineHost.Config.RunConfig
import EngineHost.Text.Base64
import EngineHost.Value.Key
import EngineHost.Yaml.Graph

/-!
# Configurations as documents

A YAML document is read on top of a configuration: the fields that it names are replaced, and named
parameters are added to those already there. Values of the wrong kind, unknown fields and repeated
keys are collected; other failures end the reading at once.
-/

namespace EngineHost.Config.Document

open Yaml

inductive Target
  | config (c : RunConfig)
  | named (entries : Params)
  | mixed (entries : List (Value × Value))
deriving Inhabited

structure Reading where
  /-- What is wrong so far, the last first. -/
  mismatches : List Bytes := []
  /-- The number of nodes read, and of those inside an alias. -/
  steps : Nat := 0
  aliasedSteps : Nat := 0
  /-- The aliases whose targets are being read. -/
  open_ : List Nat := []
  /-- The keys that a merged mapping may not set: those of the mapping that it is merged into and
  those that other mappings merged into it have set. -/
  settled : Option (List Value) := none
deriving Inhabited

abbrev ReadingM := StateT Reading (Except Failure)

def mismatch (text : Bytes) : ReadingM Unit :=
  modify fun r => { r with mismatches := text :: r.mismatches }

/-- The share of nodes, in units of one to 360 million, that may lie inside aliases: 99 parts in a
hundred in documents of up to 400000 nodes, falling evenly to 10 parts from 4000000 on. -/
def allowedShare (steps : Nat) : Nat :=
  if steps ≤ 400000 then 356400000
  else if 4000000 ≤ steps then 36000000
  else 356400000 - 89 * (steps - 400000)

/-- Counts a node, and fails if aliases make up too much of the document. -/
def count : ReadingM Unit := do
  let r ← get
  let steps := r.steps + 1
  let aliased := if r.open_.isEmpty then r.aliasedSteps else r.aliasedSteps + 1
  set { r with steps, aliasedSteps := aliased }
  if 100 < aliased && 1000 < steps && allowedShare steps * steps < aliased * 360000000 then
    throw .excessiveAliasing

/-- Runs a computation inside an alias, which must not be inside itself. -/
def within {α : Type} (number : Nat) (name : Bytes) (m : ReadingM α) : ReadingM α := do
  let r ← get
  if r.open_.contains number then throw (.selfContaining name)
  set { r with open_ := number :: r.open_ }
  let a ← m
  modify fun r' => { r' with open_ := r.open_ }
  return a

/-- The text of a node in a message about its kind: at most ten bytes of a scalar. -/
def excerpt (n : Node) : Bytes :=
  match n.content with
  | .scalar text _ =>
    if n.tag = "!!seq" || n.tag = "!!map" then text
    else if 10 < text.length then " `" ++ text.take 7 ++ "...`"
    else " `" ++ text ++ "`"
  | _ => if n.tag = "!!seq" || n.tag = "!!map" then "" else " ``"

def wrongKind (n : Node) (needed : Bytes) : ReadingM Unit :=
  mismatch ("line " ++ Bytes.ofNat n.line ++ ": cannot unmarshal " ++ shortTag n.tag ++ excerpt n ++
    " into " ++ needed)

/-- Whether a scalar is a text by its tag or because it is quoted. -/
def isText (n : Node) (quoted : Bool) : Bool :=
  shortTag n.tag = "!!str" || ((n.tag.isEmpty || n.tag = "!") && quoted)

def scalarValue (n : Node) (text : Bytes) (quoted : Bool) : Except Failure (Bytes × Value) := do
  if isText n quoted then return ("!!str", .string text)
  let (tag, v) ← resolve n.tag text
  if tag = "!!binary" then
    match Base64.decode? text with
    | some data => return (tag, .string data)
    | none => throw .badBase64
  return (tag, v)

/-- The short tag of a node; an alias has that of its target. -/
def tagOf (g : Graph) : (steps : Nat) → (number : Nat) → Bytes
  | 0, _ => []
  | steps + 1, number =>
    let n := g.node number
    match n.content with
    | .alias _ target => tagOf g steps target
    | .scalar _ quoted => if isText n quoted then "!!str" else shortTag n.tag
    | _ => shortTag n.tag

/-- The text by which two keys of the same shape are the same: that of a scalar, the name of an
alias, nothing for collections. -/
def keyText (n : Node) : Bytes :=
  match n.content with
  | .scalar text _ => text
  | .alias name _ => name
  | _ => []

def sameShape (a b : Node) : Bool :=
  match a.content, b.content with
  | .scalar _ _, .scalar _ _ => true
  | .sequence _, .sequence _ => true
  | .mapping _, .mapping _ => true
  | .alias _ _, .alias _ _ => true
  | _, _ => false

/-- What is wrong with repeated keys. -/
def repeatedKeys : List Node → List Bytes
  | [] => []
  | k :: rest =>
    ((rest.filter fun k' => sameShape k k' && keyText k == keyText k').map fun k' =>
      "line " ++ Bytes.ofNat k'.line ++ ": mapping key " ++ Quoted.text (keyText k') ++
        " already defined at line " ++ Bytes.ofNat k.line) ++ repeatedKeys rest

/-- Notes repeated keys; true if there are none. -/
def keysDiffer (g : Graph) (entries : List (Nat × Nat)) : ReadingM Bool := do
  let texts := repeatedKeys (entries.map fun e => g.node e.1)
  modify fun r => { r with mismatches := texts.reverse ++ r.mismatches }
  return texts.isEmpty

/-- Whether a node is the key under which other mappings are merged. -/
def isMerge (n : Node) : Bool :=
  match n.content with
  | .scalar text _ =>
    text = "<<" && (n.tag.isEmpty || n.tag = "!" || shortTag n.tag = "!!merge")
  | _ => false

def keysAreTexts (g : Graph) (entries : List (Nat × Nat)) : Bool :=
  entries.all fun e =>
    let tag := tagOf g (g.nodes.size + 1) e.1
    tag = "!!str" || tag = "!!merge"

mutual

/-- A value in the notation in which keys that are no scalars are reported. -/
def literal : Value → Bytes
  | .int n => Bytes.ofInt n.toInt
  | .int64 n => Bytes.ofInt n.toInt
  | .uint64 n => "0x" ++ Bytes.ofHex n.toNat
  | .float x => Layout.general x
  | .string s => Quoted.text s
  | .bool b => if b then "true" else "false"
  | .null => "interface \x7b\x7d(nil)"
  | .time t => t.literal
  | .list items => "[]interface \x7b\x7d\x7b" ++ Bytes.join ", " (literalItems items) ++ "\x7d"
  | .map entries =>
    "map[string]interface \x7b\x7d\x7b" ++ Bytes.join ", " (literalEntries entries) ++ "\x7d"
  | .noMap => "map[string]interface \x7b\x7d(nil)"
  | .mixed entries =>
    "map[interface \x7b\x7d]interface \x7b\x7d\x7b" ++ Bytes.join ", " (literalMixed entries) ++
      "\x7d"

def literalItems : List Value → List Bytes
  | [] => []
  | v :: rest => literal v :: literalItems rest

def literalEntries : List (Bytes × Value) → List Bytes
  | [] => []
  | (k, v) :: rest => (Quoted.text k ++ ":" ++ literal v) :: literalEntries rest

/-- The entries of a mapping with keys of any type in that notation. -/
def literalMixed : List (Value × Value) → List Bytes
  | [] => []
  | (k, v) :: rest => (literal k ++ ":" ++ literal v) :: literalMixed rest

end

/-- Takes a key that a merged mapping wants to set; false if the key is settled. -/
def claim (settled : Option (List Value)) (k : Value) : Bool × Option (List Value) :=
  match settled with
  | none => (true, none)
  | some keys => if keys.any k.sameKey then (false, some keys) else (true, some (k :: keys))

/-- Reads a text field; nothing when the value leaves the field as it is. -/
def readText (g : Graph) : (steps : Nat) → (number : Nat) → ReadingM (Option Bytes)
  | 0, _ => return none
  | steps + 1, number => do
    count
    let n := g.node number
    match n.content with
    | .alias name target => within number name (readText g steps target)
    | .scalar text quoted =>
      let (tag, v) ← scalarValue n text quoted
      match v with
      | .null => return none
      | .string s => return some (if tag = "!!binary" then s else text)
      | _ => return some text
    | .sequence _ => wrongKind n "string"; return none
    | .mapping entries =>
      if ← keysDiffer g entries then wrongKind n "string"
      return none

/-- The truth value of a scalar for a truth-valued field, where some further words count. -/
def flagOf? : Value → Option Bool
  | .bool b => some b
  | .string s =>
    if (["y", "Y", "yes", "Yes", "YES", "on", "On", "ON"].map Bytes.ofString).contains s then
      some true
    else if (["n", "N", "no", "No", "NO", "off", "Off", "OFF"].map Bytes.ofString).contains s then
      some false
    else none
  | _ => none

/-- Reads a truth-valued field; nothing when the value leaves the field as it is. -/
def readFlag (g : Graph) : (steps : Nat) → (number : Nat) → ReadingM (Option Bool)
  | 0, _ => return none
  | steps + 1, number => do
    count
    let n := g.node number
    match n.content with
    | .alias name target => within number name (readFlag g steps target)
    | .scalar text quoted =>
      let (_, v) ← scalarValue n text quoted
      match v, flagOf? v with
      | .null, _ => return none
      | _, some b => return some b
      | _, none => wrongKind n "bool"; return none
    | .sequence _ => wrongKind n "bool"; return none
    | .mapping entries =>
      if ← keysDiffer g entries then wrongKind n "bool"
      return none

inductive Field
  | backend | wasmPath | runtime | memDump | source | sample | params
deriving DecidableEq, Repr

def Field.ofName? (name : Bytes) : Option Field :=
  [(Bytes.ofString "backend", Field.backend), (Bytes.ofString "wasm_path", .wasmPath),
    (Bytes.ofString "runtime", .runtime), (Bytes.ofString "mem_dump", .memDump),
    (Bytes.ofString "source", .source), (Bytes.ofString "sample", .sample),
    (Bytes.ofString "params", .params)].lookup name

def setText (c : RunConfig) (f : Field) (s : Bytes) : RunConfig :=
  match f with
  | .backend => { c with backend := s }
  | .wasmPath => { c with wasmPath := s }
  | .runtime => { c with runtime := s }
  | .source => { c with source := s }
  | .sample => { c with sample := s }
  | _ => c

mutual

/-- Reads a value of any kind; nothing when it cannot be used. -/
def readValue (g : Graph) : (steps : Nat) → (number : Nat) → ReadingM (Option Value)
  | 0, _ => return none
  | steps + 1, number => do
    count
    let n := g.node number
    match n.content with
    | .alias name target => within number name (readValue g steps target)
    | .scalar text quoted => return some (← scalarValue n text quoted).2
    | .sequence items => return some (.list (← readItems g steps items))
    | .mapping entries =>
      if ← keysDiffer g entries then
        if keysAreTexts g entries then
          match ← readEntries g steps entries (.named []) with
          | .named found => return some (.map found)
          | _ => return none
        else
          match ← readEntries g steps entries (.mixed []) with
          | .mixed found => return some (.mixed found)
          | _ => return none
      else return none

/-- Reads the items of a list; those that cannot be used are left out. -/
def readItems (g : Graph) : (steps : Nat) → (items : List Nat) → ReadingM (List Value)
  | 0, _ => return []
  | _ + 1, [] => return []
  | steps + 1, item :: rest => do
    let v ← readValue g steps item
    let vs ← readItems g steps rest
    return match v with
      | some v => v :: vs
      | none => vs

/-- Puts the entries of a mapping into a target, then those of the mappings merged into it, which
set no key that the mapping itself sets. -/
def readEntries (g : Graph) : (steps : Nat) → (entries : List (Nat × Nat)) → Target →
    ReadingM Target
  | 0, _, target => return target
  | steps + 1, entries, target => do
    let settled := (← get).settled
    modify fun r => { r with settled := none }
    let (target, settled) ← readOwn g steps entries target settled []
    modify fun r => { r with settled }
    match (entries.filter fun e => isMerge (g.node e.1)).getLast? with
    | none => return target
    | some (_, merged) =>
      if settled.isNone then
        modify fun r => { r with settled := some [] }
        readSettled g steps (entries.map (·.1))
      let target ← readMerged g steps merged target
      if settled.isNone then modify fun r => { r with settled := none }
      return target

def readSettled (g : Graph) : (steps : Nat) → (keys : List Nat) → ReadingM Unit
  | 0, _ => return
  | _ + 1, [] => return
  | steps + 1, k :: rest => do
    if let some v ← readValue g steps k then
      modify fun r => { r with settled := r.settled.map (v :: ·) }
    readSettled g steps rest

/-- Puts the mappings under a merge key into a target. -/
def readMerged (g : Graph) : (steps : Nat) → (number : Nat) → Target → ReadingM Target
  | 0, _, target => return target
  | steps + 1, number, target => do
    match (g.node number).content with
    | .mapping _ | .alias _ _ => readMergedMapping g steps number target
    | .sequence items => readMergedItems g steps items target
    | .scalar _ _ => throw .mergeWithoutMap

/-- Puts the mappings of a list under a merge key into a target. -/
def readMergedItems (g : Graph) : (steps : Nat) → (items : List Nat) → Target → ReadingM Target
  | 0, _, target => return target
  | _ + 1, [], target => return target
  | steps + 1, item :: rest, target => do
    readMergedItems g steps rest (← readMergedMapping g steps item target)

/-- Puts one merged mapping, or one that an alias leads to, into a target. -/
def readMergedMapping (g : Graph) : (steps : Nat) → (number : Nat) → Target → ReadingM Target
  | 0, _, target => return target
  | steps + 1, number, target => do
    match (g.node number).content with
    | .mapping entries =>
      count
      if ← keysDiffer g entries then readEntries g steps entries target else return target
    | .alias name to_ =>
      match (g.node to_).content with
      | .mapping _ =>
        count
        within number name (readMergedMapping g steps to_ target)
      | _ => throw .mergeWithoutMap
    | _ => throw .mergeWithoutMap

/-- Puts the entries of a mapping that are its own into a target. `done` are the fields already
set. -/
def readOwn (g : Graph) : (steps : Nat) → (entries : List (Nat × Nat)) → Target →
    (settled : Option (List Value)) → (done : List Field) →
    ReadingM (Target × Option (List Value))
  | 0, _, target, settled, _ => return (target, settled)
  | _ + 1, [], target, settled, _ => return (target, settled)
  | steps + 1, (k, v) :: rest, target, settled, done => do
    if isMerge (g.node k) then
      readOwn g steps rest target settled done
    else
      match target with
      | .config c =>
        match ← readText g steps k with
        | none => readOwn g steps rest target settled done
        | some name =>
          let (free, settled) := claim settled (.string name)
          if !free then readOwn g steps rest target settled done
          else
            match Field.ofName? name with
            | none =>
              mismatch ("line " ++ Bytes.ofNat (g.node k).line ++ ": field " ++ name ++
                " not found in type entities.RunConfig")
              readOwn g steps rest target settled done
            | some f =>
              if done.contains f then
                mismatch ("line " ++ Bytes.ofNat (g.node k).line ++ ": field " ++ name ++
                  " already set in type entities.RunConfig")
                readOwn g steps rest target settled done
              else
                let c ← readField g steps f v c
                readOwn g steps rest (.config c) settled (f :: done)
      | .named found =>
        match ← readText g steps k with
        | none => readOwn g steps rest target settled done
        | some name =>
          let (free, settled) := claim settled (.string name)
          if !free then readOwn g steps rest target settled done
          else
            match ← readValue g steps v with
            | some value =>
              readOwn g steps rest (.named (Dict.insert found name value)) settled done
            | none => readOwn g steps rest target settled done
      | .mixed found =>
        match ← readValue g steps k with
        | none => readOwn g steps rest target settled done
        | some key =>
          let (free, settled) := claim settled key
          if !free then readOwn g steps rest target settled done
          else
            if key.isCompound then throw (.compoundKey (literal key))
            match ← readValue g steps v with
            | some value =>
              readOwn g steps rest (.mixed (Value.setEntry key value found)) settled done
            | none => readOwn g steps rest target settled done

def readField (g : Graph) : (steps : Nat) → Field → (number : Nat) → RunConfig → ReadingM RunConfig
  | 0, _, _, c => return c
  | steps + 1, .memDump, number, c => do
    match ← readFlag g steps number with
    | some b => return { c with memDump := b }
    | none => return c
  | steps + 1, .params, number, c => do
    return { c with params := ← readParams g steps number c.params }
  | steps + 1, f, number, c => do
    match ← readText g steps number with
    | some s => return setText c f s
    | none => return c

/-- Reads the parameters on top of those already there; a null removes them all. -/
def readParams (g : Graph) : (steps : Nat) → (number : Nat) → Option Params →
    ReadingM (Option Params)
  | 0, _, base => return base
  | steps + 1, number, base => do
    count
    let n := g.node number
    let needed : Bytes := "map[string]interface \x7b\x7d"
    match n.content with
    | .alias name target => within number name (readParams g steps target base)
    | .scalar text quoted =>
      match (← scalarValue n text quoted).2 with
      | .null => return none
      | _ => wrongKind n needed; return base
    | .sequence _ => wrongKind n needed; return base
    | .mapping entries =>
      if ← keysDiffer g entries then
        match ← readEntries g steps entries (.named (base.getD [])) with
        | .named found => return some found
        | _ => return base
      else return base

end

def readConfig (g : Graph) : (steps : Nat) → (number : Nat) → RunConfig → ReadingM RunConfig
  | 0, _, c => return c
  | steps + 1, number, c => do
    count
    let n := g.node number
    let needed : Bytes := "entities.RunConfig"
    match n.content with
    | .alias name target => within number name (readConfig g steps target c)
    | .scalar text quoted =>
      match (← scalarValue n text quoted).2 with
      | .null => return c
      | _ => wrongKind n needed; return c
    | .sequence _ => wrongKind n needed; return c
    | .mapping entries =>
      if ← keysDiffer g entries then
        match ← readEntries g steps entries (.config c) with
        | .config c => return c
        | _ => return c
      else return c

/-- The longest way through a document: between two aliases on it no node comes twice, and no alias
is inside itself. -/
def longestWay (g : Graph) : Nat :=
  let aliases := g.nodes.toList.filter fun n => match n.content with
    | .alias _ _ => true
    | _ => false
  8 * (g.nodes.size + 2) * (aliases.length + 2)

def read (s : Bytes) (base : RunConfig) : Except Failure RunConfig := do
  match ← Graph.ofBytes? s with
  | none => return base
  | some g =>
    let (c, r) ← (do count; readConfig g (longestWay g) g.root base : ReadingM RunConfig).run {}
    if r.mismatches.isEmpty then return c else throw (.mismatches r.mismatches.reverse)

end EngineHost.Config.Document
