import EngineHost.Config.Params
import EngineHost.Sample.Programs
import EngineHost.Template.Program

/-!
# Sample programs

Programs that come with the library. Each is a template whose sizes are integer parameters with a
default and a range; parameters are checked before the template is rendered.
-/

namespace EngineHost

structure Parameter where
  name : Bytes
  default : Int64
  least : Int64
  greatest : Int64
deriving DecidableEq, Repr, Inhabited

/-- A program template that comes with the library. -/
structure Sample where
  name : Bytes
  file : Bytes
  description : Bytes
  params : List Parameter := []
  source : Bytes
deriving DecidableEq, Repr, Inhabited

namespace Sample

def all : List Sample := [
  { name := "bitonic_sort", file := "programs/bitonic_sort.hvm",
    description := "bitonic sort of 2^Depth numbers, summed",
    params := [⟨"Depth", 18, 1, 24⟩],
    source := bitonicSort },
  { name := "faulty", file := "programs/faulty.hvm",
    description := "text that does not parse",
    source := faulty },
  { name := "fib", file := "programs/fib.hvm",
    description := "iterative Fibonacci of N",
    params := [⟨"N", 30, 0, 1048576⟩],
    source := fibonacci },
  { name := "stress", file := "programs/stress.hvm",
    description := "2^Depth parallel countdown loops of Loop steps",
    params := [⟨"Depth", 8, 0, 24⟩, ⟨"Loop", 65536, 0, 1073741824⟩],
    source := stress }]

def find? (name : Bytes) : Option Sample := all.find? fun s => s.name == name

def get (name : Bytes) : Except Fault Sample :=
  match find? name with
  | some s => .ok s
  | none => .error (.config "sample" (some (.plain ("unknown sample " ++ Quoted.text name))))

/-- The value of a parameter: the given one, or the default, within the range. -/
def value (params : Params) (p : Parameter) : Except Fault Int64 := do
  let n ← if Dict.has params p.name then Params.getInt params p.name else pure p.default
  if n < p.least ∨ p.greatest < n then
    throw (.config ("params." ++ p.name) (some (.plain (Bytes.ofInt n.toInt ++ " is outside [" ++
      Bytes.ofInt p.least.toInt ++ ", " ++ Bytes.ofInt p.greatest.toInt ++ "]"))))
  return n

def values (params : Params) : List Parameter → Except Fault Params
  | [] => .ok []
  | p :: rest => do
    let n ← value params p
    return Dict.insert (← values params rest) p.name (.int n)

def hasParameter (s : Sample) (name : Bytes) : Bool := s.params.any fun p => p.name == name

/-- The parameters that a template is rendered with. A name that the sample does not know is
refused, the first one in order if there are several. -/
def resolve (s : Sample) (params : Params) : Except Fault Params := do
  let resolved ← values params s.params
  match (Dict.keys params).find? fun k => !s.hasParameter k with
  | some k => throw (.config ("params." ++ k) (some (.plain ("sample " ++ Quoted.text s.name ++
      " has no parameter " ++ Quoted.text k))))
  | none => return resolved

def template (s : Sample) : Except Fault Template.Program := Template.Program.read s.name s.source

def instantiate (s : Sample) (params : Params) : Except Fault Bytes := do
  let resolved ← s.resolve params
  let program ← s.template
  match program.render (some resolved) with
  | .ok text => return text
  | .error f => throw (.wrap ("render sample " ++ Quoted.text s.name) f)

def render (name : Bytes) (params : Params) : Except Fault Bytes := do
  (← get name).instantiate params

/-- One line about a sample: its name, what it does and the defaults of its parameters. -/
def summary (s : Sample) : Bytes :=
  let defaults := s.params.map fun p => p.name ++ "=" ++ Bytes.ofInt p.default.toInt
  Bytes.padRight 14 32 s.name ++ s.description ++
    (if defaults.isEmpty then ([] : Bytes) else Bytes.ofString " (" ++ Bytes.join ", " defaults ++ ")")

def overview : Bytes := Bytes.join "\n" (all.map summary)

end Sample

end EngineHost
