import EngineHost.Guest.Demo
import EngineHost.Guest.Linking
import EngineHost.Guest.Running

/-!
# Loading of modules

A module is decoded, linked to the host module that takes log lines, started, given a name,
initialised and checked for the exports that a backend needs. The first step that fails decides the
fault; what the module logged and printed until then remains.
-/

namespace EngineHost.Guest

structure LoadOptions where
  /-- The name of the host module that takes log lines. -/
  hostModule : Bytes := "hvm_host"
  /-- The name that the module gets. -/
  moduleName : Bytes := "hvm"
  /-- The greatest size of a log line. -/
  maxLog : UInt32 := 65536
  /-- How much of what a call prints is kept. -/
  maxStderr : Nat := 4096
deriving DecidableEq, Repr, Inhabited

/-- What a module does when it is initialised, in this order. -/
structure Initializer where
  /-- The log lines that it announces. -/
  lines : List UInt64 := []
  /-- What it prints to the error output. -/
  prints : Bytes := []
  /-- Whether it ends in a trap. -/
  traps : Bool := false
deriving DecidableEq, Repr, Inhabited

structure Module where
  /-- The names of the exported functions. -/
  functions : List Bytes := []
  /-- Whether one page of memory is exported. -/
  memory : Bool := false
  /-- What the memory holds at first. -/
  segments : List (UInt32 × Bytes) := []
  initializer : Option Initializer := none
deriving DecidableEq, Repr, Inhabited

namespace Module

/-- The name from which modules import the function that takes log lines. -/
def logModuleName : Bytes := "hvm_host"

def initializerName : Bytes := "_initialize"

/-- Whether the module imports the function that takes log lines. -/
def importsLog (m : Module) : Bool := m.initializer.any fun i => !i.lines.isEmpty

def importsPrint (m : Module) : Bool := m.initializer.any fun i => !i.prints.isEmpty

def exportNames (m : Module) : List Bytes :=
  m.functions ++ (if m.memory then [memoryName] else []) ++
    (if m.initializer.isSome then [initializerName] else [])

/-- The first name that occurs twice in a list, with the position of its second occurrence. -/
def repeated? (seen : List Bytes) : List Bytes → Option (Nat × Bytes)
  | [] => none
  | name :: rest =>
    if seen.contains name then some (seen.length, name) else repeated? (seen ++ [name]) rest

/-- The segments with their numbers and places. -/
def placed (m : Module) : List (Nat × Nat × Bytes) :=
  m.segments.zipIdx.map fun (s, number) => (number, s.1.toNat, s.2)

def initialMemory? (m : Module) : Option Memory :=
  if m.memory then
    some (m.segments.foldl (fun mem s => mem.store s.1 s.2) (Memory.filled 1 0))
  else none

/-- The number of the initialiser among the functions: imports come first, then the exports. -/
def initializerIndex (m : Module) : Nat :=
  m.importsLog.toNat + m.importsPrint.toNat + m.functions.length

def demo : Module where
  functions := Export.all.map Export.name
  memory := true

end Module

inductive Image
  /-- A file by its bytes. -/
  | bytes (data : Bytes)
  /-- A well-formed file of a known module. -/
  | file (m : Module)
deriving DecidableEq, Repr, Inhabited

namespace Image

/-- The bytes of a file; of a known module only the header. -/
def data : Image → Bytes
  | bytes data => data
  | file _ => Wasm.Binary.magic ++ Wasm.Binary.version

end Image

structure Effects where
  log : List Log.Record := []
  /-- What it printed to the error output. -/
  printed : Bytes := []
deriving Inhabited

def Effects.append (before after : Effects) : Effects where
  log := before.log ++ after.log
  printed := before.printed ++ after.printed

instance : Append Effects := ⟨Effects.append⟩

structure Loaded where
  effects : Effects := {}
  outcome : Except Fault Unit := .ok ()
  /-- The module, if it was loaded from the bytes of a file. -/
  running : Option Running := none

namespace Loaded

def log (l : Loaded) : List Log.Record := l.effects.log

def printed (l : Loaded) : Bytes := l.effects.printed

end Loaded

def loadFault (cause : Fault) : Fault := .load "wasm" (some cause)

/-- The reason why a name cannot be given again. -/
def nameTaken (name : Bytes) : Bytes := "module[" ++ name ++ "] has already been instantiated"

def registerHost (o : LoadOptions) : Except Bytes Unit :=
  if o.hostModule.isEmpty then .error "a module name must not be empty"
  else if o.hostModule = systemName then .error (nameTaken o.hostModule)
  else .ok ()

def registerModule (o : LoadOptions) : Except Bytes Unit :=
  if o.moduleName = systemName || o.moduleName = o.hostModule then .error (nameTaken o.moduleName)
  else .ok ()

structure Linked where
  /-- The names of the exported functions. -/
  functions : List Bytes
  /-- Whether the memory is exported. -/
  exportsMemory : Bool
  /-- What the initialiser does. -/
  initialized : Effects := {}
  /-- The error in which the initialiser ends. -/
  failure : Option Bytes := none
  /-- The module, if it comes from the bytes of a file. -/
  running : Option Running := none

/-- Whether a module exports its memory under the name of the memory of engine modules. -/
def exportsMemory (m : Wasm.Module) : Bool :=
  m.exports.any fun e => e.name == memoryName && e.kind == .memory

/-- The functions of the host during a load. A log line is read from the memory if the module exports
it. -/
def loadingHost (o : LoadOptions) (m : Wasm.Module) : Wasm.Host Effects :=
  Listener.host
    { print := fun text e => { e with printed := e.printed ++ text }
      log := fun word s e =>
        let read? := if exportsMemory m then
          s.memory.map fun memory => fun (addr : UInt32) count => memory.read? addr.toNat count
          else none
        { e with log := e.log ++ [logLineFrom o.maxLog read? word] } }

def runStart (h : Wasm.Host Effects) (r : Running) (e : Effects) :
    Except Bytes Unit × Running × Effects :=
  match r.program.module.start with
  | none => (.ok (), r, e)
  | some f =>
    match r.call h f [] e with
    | (.ok _, r, e) => (.ok (), r, e)
    | (.error (.closed code), r, e) => (.error (CallFailure.exitText code), r, e)
    | (.error (.failed text), r, e) =>
      (.error ("start " ++ r.program.module.describe f ++ " failed: " ++ text), r, e)

/-- Calls the exported start function of a module. Closing the module without a code is no failure. -/
def runExportedStart (o : LoadOptions) (h : Wasm.Host Effects) (r : Running) (e : Effects) :
    Except Bytes Unit × Running × Effects :=
  match r.program.module.exported? "_start" with
  | none => (.ok (), r, e)
  | some f =>
    match r.call h f [] e with
    | (.ok _, r, e) => (.ok (), r, e)
    | (.error (.closed code), r, e) =>
      (if code = 0 then .ok () else .error (CallFailure.exitText code), r, e)
    | (.error (.failed text), r, e) =>
      (.error ("module[" ++ o.moduleName ++ "] function[_start] failed: " ++ text), r, e)

/-- Calls the initialiser of a module, and gives the error in which it ends. -/
def runInitializer (h : Wasm.Host Effects) (r : Running) (e : Effects) :
    Option Bytes × Running × Effects :=
  match r.program.module.exported? Module.initializerName with
  | none => (none, r, e)
  | some f =>
    match r.call h f [] e with
    | (.ok _, r, e) => (none, r, e)
    | (.error failure, r, e) => (some failure.text, r, e)

/-- Checks the module of a file, links it and finds room for its segments. -/
def prepare (o : LoadOptions) (data : Bytes) : Except Bytes Wasm.Module := do
  let m ← Wasm.Module.ofBytes data
  link o.hostModule m
  let pages := (m.memory?.map (·.least)).getD 0
  placeSegments (pages * pageSize) (placedSegments m)
  return m

/-- Links the module of a file, copies its segments, calls its start functions, gives it its name and
initialises it. -/
def instantiateBytes (o : LoadOptions) (data : Bytes) : Effects × Except Bytes Linked :=
  match prepare o data with
  | .error text => ({}, .error text)
  | .ok m =>
    let h := loadingHost o m
    let (started, r, e) := runStart h { program := .ofModule m, store := .ofModule m } {}
    match started.bind fun () => registerModule o with
    | .error text => (e, .error text)
    | .ok () =>
      match runExportedStart o h r e with
      | (.error text, _, e) => (e, .error text)
      | (.ok (), r, e) =>
        let (failure, r, initialized) := runInitializer h r {}
        (e, .ok
          { functions := (m.exports.filter (·.kind == .function)).map (·.name)
            exportsMemory := exportsMemory m
            initialized, failure
            running := some r })

/-- Whether the place of a segment does not fit into 31 bits. -/
def wideOffset (m : Module) : Bool := m.segments.any fun s => 2 ^ 31 ≤ s.1.toNat

def instantiateModule (o : LoadOptions) (m : Module) : Except Bytes Linked := do
  if let some (i, name) := Module.repeated? [] m.exportNames then
    throw ("section export: export[" ++ Bytes.ofNat i ++ "] duplicates name " ++ Quoted.text name)
  if m.memory && wideOffset m then
    throw ("section data: read data segment: read offset expression: read value: " ++
      (Wasm.Fault.overflow 32).message)
  if m.importsLog && o.hostModule != Module.logModuleName then
    throw ("module[" ++ Module.logModuleName ++ "] not instantiated")
  if m.memory then placeSegments pageSize m.placed
  registerModule o
  let i := m.initializer.getD {}
  return {
    functions := m.functions
    exportsMemory := m.memory
    initialized :=
      { log := i.lines.map (logLine o.maxLog m.initialMemory?), printed := i.prints }
    failure :=
      if i.traps then
        some (Demo.trapText "unreachable" ("$" ++ toString m.initializerIndex ++ "()"))
      else none }

/-- Links a module, gives it its name and initialises it; what it did before its initialiser comes
first. -/
def instantiate (o : LoadOptions) : Image → Effects × Except Bytes Linked
  | .bytes data => instantiateBytes o data
  | .file m => ({}, instantiateModule o m)

def loadedRecord (name : Bytes) : Log.Record :=
  ⟨.debug, "wazero: engine module loaded", [⟨"module", .string name⟩]⟩

/-- The outcome of the initialiser and of the look for the exports that a backend needs. -/
def Linked.outcome (l : Linked) : Except Fault Unit :=
  match l.failure with
  | some text => .error (.wrap ("failed to call " ++ Module.initializerName) (.plain text))
  | none => checkExports (fun name => l.functions.contains name) l.exportsMemory

def load (o : LoadOptions) (image : Image) : Loaded :=
  match registerHost o with
  | .error text =>
    { outcome := .error (loadFault (.wrap "failed to register host functions" (.plain text))) }
  | .ok () =>
    match instantiate o image with
    | (effects, .error text) =>
      { effects
        outcome := .error (loadFault (.wrap "failed to instantiate module" (.plain text))) }
    | (effects, .ok l) =>
      let effects := effects ++ l.initialized
      match l.outcome with
      | .error f => { effects, outcome := .error (loadFault f) }
      | .ok () =>
        { effects := effects ++ { log := [loadedRecord o.moduleName] }, running := l.running }

end EngineHost.Guest
