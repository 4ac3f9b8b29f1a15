import EngineHost.Fault
import EngineHost.Number.Literal
import EngineHost.Text.Blank
import EngineHost.Text.Quoted

/-!
# Parameters

Named values that a program template is filled with, and how they are read from `key=value` pairs.
-/

namespace EngineHost.Params

/-- The integer of a value, if it is one. Unsigned integers wrap around, and a floating-point
number counts only if it equals its integer part. -/
def integerOf? : Value → Option Int64
  | .int n => some n
  | .int64 n => some n
  | .uint64 n => some n.toInt64
  | .float x => if Binary64.equal x (Binary64.ofInt x.toInt64.toInt) then some x.toInt64 else none
  | _ => none

def getInt? (params : Params) (key : Bytes) : Option Int64 := (Dict.get? params key).bind integerOf?

def getIntD (params : Params) (key : Bytes) (default : Int64) : Int64 :=
  (getInt? params key).getD default

def getInt (params : Params) (key : Bytes) : Except Fault Int64 :=
  match getInt? params key with
  | some n => .ok n
  | none => .error (.config key
      (some (.plain ("required int field '" ++ key ++ "' is missing or not a number"))))

/-- The value of a pair's text: an integer if it reads as one, else the text itself. -/
def pairValue (text : Bytes) : Value :=
  match Literal.int64? (Bytes.trim text) with
  | some n => .int n
  | none => .string text

/-- A `key=value` pair, split at the first equals sign; the key may not be blank. -/
def pair? (pair : Bytes) : Option (Bytes × Value) :=
  match Bytes.cut 61 pair with
  | some (key, value) =>
    let key := Bytes.trim key
    if key.isEmpty then none else some (key, pairValue value)
  | none => none

/-- The parameters of a list of pairs, of which later ones win. -/
def ofPairs : (pairs : List Bytes) → (acc : Params := []) → Except Fault Params
  | [], acc => .ok acc
  | pair :: rest, acc =>
    match pair? pair with
    | some (key, value) => ofPairs rest (Dict.insert acc key value)
    | none => .error (.config "params"
        (some (.plain ("expected key=value, got " ++ Quoted.text pair))))

/-- A copy of `base` with the entries of `override` on top. -/
def merge (base override : Params) : Params := Dict.merge base override

end EngineHost.Params
