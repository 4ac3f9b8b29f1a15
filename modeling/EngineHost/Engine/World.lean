import EngineHost.Engine.Boundary
import EngineHost.Engine.Resource
import EngineHost.Fault

/-!
# The host's world

What the host's operations act on: the state of the backend, and the calls, transitions and log
records that they leave behind, each in the order in which they happened.
-/

namespace EngineHost

/-- The backend and everything observed so far, oldest first. -/
structure World (σ : Type) where
  backend : σ
  trace : List Call := []
  events : List Event := []
  log : List Log.Record := []

abbrev HostM (σ : Type) := StateM (World σ)

namespace World

variable {σ α : Type}

def call (f : σ → Reply σ α) (note : α → Call) : HostM σ α := fun w =>
  let r := f w.backend
  (r.value, { w with
    backend := r.state, trace := w.trace ++ [note r.value], log := w.log ++ r.log })

def emit (r : Log.Record) : HostM σ Unit := fun w => ((), { w with log := w.log ++ [r] })

def observe (e : Event) : HostM σ Unit := fun w => ((), { w with events := w.events ++ [e] })

end World

end EngineHost
