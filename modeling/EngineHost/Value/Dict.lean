import EngineHost.Text.Bytes

/-!
# Dictionaries

A dictionary is a list of entries with its keys in increasing byte order and no key twice, so two
dictionaries with the same entries are equal and every output lists them in key order.
-/

namespace EngineHost

/-- Entries in increasing order of their keys. -/
abbrev Dict (α : Type u) := List (Bytes × α)

namespace Dict

variable {α : Type u}

def get? (d : Dict α) (key : Bytes) : Option α := (d.find? fun e => e.1 == key).map (·.2)

def has (d : Dict α) (key : Bytes) : Bool := d.any fun e => e.1 == key

def insert : Dict α → Bytes → α → Dict α
  | [], key, v => [(key, v)]
  | (k, w) :: rest, key, v =>
    if key == k then (key, v) :: rest
    else if Bytes.less key k then (key, v) :: (k, w) :: rest
    else (k, w) :: insert rest key v

/-- The dictionary of a list of entries, of which later ones win. -/
def ofList (entries : List (Bytes × α)) : Dict α :=
  entries.foldl (fun d e => insert d e.1 e.2) []

/-- A copy of `base` with the entries of `override` on top. -/
def merge (base override : Dict α) : Dict α :=
  override.foldl (fun d e => insert d e.1 e.2) base

def keys (d : Dict α) : List Bytes := d.map (·.1)

end Dict

end EngineHost
