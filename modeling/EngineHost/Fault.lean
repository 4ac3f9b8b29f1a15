import EngineHost.Value.Basic

/-!
# Faults

Everything that can go wrong, as causes. A fault may carry other faults: a layer of context, a
failure to load a backend, a rejected configuration. Classification looks through all layers, from
the outside inwards and from left to right, so context never changes what a fault is.
-/

namespace EngineHost

structure Detail where
  kind : Bytes
  message : Bytes
  code : Bytes := []
  details : Option Params := none
deriving Inhabited, Repr

/-- The text of a detail: its kind in front unless it is internal, its code in brackets. -/
def Detail.text (d : Detail) : Bytes :=
  let body :=
    if d.kind.isEmpty || d.kind = "internal" then d.message else d.kind ++ ": " ++ d.message
  if d.code.isEmpty then body else body ++ " [" ++ d.code ++ "]"

inductive Condition
  | interop
  | released
  | unavailable
deriving DecidableEq, Repr

def Condition.message : Condition → Bytes
  | interop => "native engine reported an error"
  | released => "book already released"
  | unavailable => "boundary backend unavailable"

inductive Fault
  | plain (message : Bytes)
  /-- The engine reported an error through the error slot of a call. -/
  | interop (op message : Bytes)
  /-- The caller broke the rules of the library. -/
  | misuse (op reason : Bytes)
  /-- A backend could not be opened. -/
  | load (backend : Bytes) (cause : Option Fault)
  /-- A configuration was rejected, because of one field if one is named. -/
  | config (field : Bytes) (cause : Option Fault)
  /-- A fault that is already classified; without a detail it has neither text nor kind. -/
  | detail (d : Option Detail)
  | condition (c : Condition)
  /-- A layer of context. -/
  | wrap (context : Bytes) (cause : Fault)
  /-- Several faults at once. -/
  | join (causes : List Fault)
  /-- The outcome of a command with its exit code. -/
  | exit (code : Int) (message : Bytes) (cause : Option Fault)
  /-- The host itself gives up in the middle of an operation, and nothing stops that. -/
  | crash (reason : Bytes)
deriving Inhabited, Repr

namespace Fault

mutual

def message : Fault → Bytes
  | plain text => text
  | interop op text => if op.isEmpty then text else op ++ ": " ++ text
  | misuse op reason => "hvm: misuse of " ++ op ++ ": " ++ reason
  | load backend cause => "failed to load " ++ backend ++ " backend: " ++ causeMessage cause
  | config field cause =>
    if field.isEmpty then "config validation failed: " ++ causeMessage cause
    else "config validation failed for field '" ++ field ++ "': " ++ causeMessage cause
  | detail none => ""
  | detail (some d) => d.text
  | condition c => c.message
  | wrap context cause => context ++ ": " ++ message cause
  | join causes => Bytes.join "\n" (messages causes)
  | exit _ text none => text
  | exit _ text (some cause) => text ++ ": " ++ message cause
  | crash reason => "runtime error: " ++ reason

def causeMessage : Option Fault → Bytes
  | none => "<nil>"
  | some cause => message cause

def messages : List Fault → List Bytes
  | [] => []
  | f :: rest => message f :: messages rest

end

/-- The one fault directly behind a fault. -/
def unwrap : Fault → Option Fault
  | load _ cause => cause
  | config _ cause => cause
  | wrap _ cause => some cause
  | exit _ _ cause => cause
  | _ => none

mutual

/-- A fault and all faults behind it, each before those behind it. -/
def layers : Fault → List Fault
  | load backend cause => load backend cause :: causeLayers cause
  | config field cause => config field cause :: causeLayers cause
  | wrap context cause => wrap context cause :: layers cause
  | join causes => join causes :: allLayers causes
  | exit code text cause => exit code text cause :: causeLayers cause
  | f => [f]

def causeLayers : Option Fault → List Fault
  | none => []
  | some cause => layers cause

def allLayers : List Fault → List Fault
  | [] => []
  | f :: rest => layers f ++ allLayers rest

end

/-- Whether a fault is itself an instance of a condition. -/
def isItself (c : Condition) : Fault → Bool
  | condition c' => c == c'
  | interop _ _ => c == .interop
  | _ => false

/-- Whether a condition holds of a fault or of one behind it. -/
def is (f : Fault) (c : Condition) : Bool := f.layers.any (isItself c)

/-- The detail of a fault that is already classified. -/
def carried? : Fault → Option (Option Detail)
  | detail d => some d
  | _ => none

/-- The detail of a fault that knows its own kind. -/
def described? : Fault → Option Detail
  | interop op text => some ⟨"interop", text, op, none⟩
  | load backend cause => some ⟨"load", message (load backend cause), backend, none⟩
  | config field cause => some ⟨"config", message (config field cause), field, none⟩
  | _ => none

/-- The detail of a fault: the first one carried, else that of the first fault that describes
itself, else the text of the whole as a released or internal fault. -/
def describe (f : Fault) : Option Detail :=
  match f.layers.findSome? carried? with
  | some d => d
  | none =>
    match f.layers.findSome? described? with
    | some d => some d
    | none => some ⟨if f.is .released then "released" else "internal", f.message, [], none⟩

def kind (f : Fault) : Bytes := ((describe f).map Detail.kind).getD []

def isCommandFault : Fault → Bool
  | config _ _ => true
  | load _ _ => true
  | _ => false

/-- The exit code of a failed command: 2 when the configuration or the backend is at fault, else
1. -/
def exitCodeFor (f : Fault) : Int := if f.layers.any isCommandFault then 2 else 1

def carriedExit? : Fault → Option Int
  | exit code _ _ => some code
  | _ => none

def exitCode (f : Fault) : Int := (f.layers.findSome? carriedExit?).getD 1

end Fault

end EngineHost
