import EngineHost.Fault
import EngineHost.Template.Execution

/-!
# Program templates

A program template is program text with actions in it, most of them references to parameters such
as `.params.N`. Everything outside actions, the braces of nets included, is passed through.
-/

namespace EngineHost.Template

structure Program where
  name : Bytes
  text : Bytes
  trees : Trees

namespace Program

def read (name text : Bytes) : Except Fault Program :=
  match Trees.ofText name text with
  | .ok trees => .ok { name, text, trees }
  | .error c => .error (.wrap ("failed to parse program template " ++ Quoted.text name)
      (.plain (c.message name)))

def body (p : Program) : List Node := (Dict.get? p.trees p.name).getD []

/-- The names of the parameters that the template refers to, in order and without repetition. -/
def params (p : Program) : List Bytes :=
  Dict.keys (Dict.ofList ((nodesParams p.body).map fun name => (name, ())))

def data (params : Option Params) : Cell :=
  .datum (.map [("params", match params with
    | some entries => .map entries
    | none => .noMap)])

def render (p : Program) (params : Option Params) : Except Fault Bytes :=
  match Template.render p.trees p.name (data params) with
  | .ok text => .ok text
  | .error f => .error (.wrap ("failed to render program template " ++ Quoted.text p.name)
      (.plain (f.message p.name p.text)))

end Program

end EngineHost.Template
