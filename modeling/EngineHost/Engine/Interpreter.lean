import EngineHost.Fault
import EngineHost.Text.Blank
import EngineHost.Text.Quoted

/-!
# Interpreters

The engine evaluates a program with one of its interpreters, chosen by a number that the engine
fixes. Only two numbers have a meaning, but any can be passed on.
-/

namespace EngineHost

structure Interpreter where
  code : UInt32
deriving DecidableEq, Repr, Inhabited

namespace Interpreter

/-- The interpreter that every engine has. -/
def rust : Interpreter := ⟨0⟩

/-- The interpreter that only some builds of the engine have. -/
def c : Interpreter := ⟨1⟩

def name (i : Interpreter) : Bytes :=
  if i = rust then "rust"
  else if i = c then "c"
  else "runtime(" ++ Bytes.ofNat i.code.toNat ++ ")"

def known (i : Interpreter) : Bool := i == rust || i == c

/-- The interpreter of a name, in any case and with blanks around it; the empty name is the
default. -/
def ofName (s : Bytes) : Except Fault Interpreter :=
  let word := Bytes.toLower (Bytes.trim s)
  if word.isEmpty || word = "rust" then .ok rust
  else if word = "c" then .ok c
  else .error (.plain ("unknown runtime " ++ Quoted.text s ++ ": must be one of rust, c"))

end Interpreter

end EngineHost
