import EngineHost.Text.Bytes

/-!
# Native resources

The kinds of allocation that the engine hands to the host, and the transitions they go through.
-/

namespace EngineHost

inductive Resource
  | book
  | vec
  | evaluation
  | text
deriving DecidableEq, Repr

/-- The name of a kind in logs, events and metrics. -/
def Resource.name : Resource → Bytes
  | book => "book"
  | vec => "vec"
  | evaluation => "evaluation_result"
  | text => "cstring"

inductive Transition
  /-- A call handed the host a new allocation. -/
  | allocated
  /-- The matching release call returned. -/
  | released
  /-- The release was made by the finalizer; it follows a release. -/
  | finalized
deriving DecidableEq, Repr

def Transition.name : Transition → Bytes
  | allocated => "allocated"
  | released => "released"
  | finalized => "finalized"

structure Event where
  resource : Resource
  transition : Transition
deriving DecidableEq, Repr

end EngineHost
