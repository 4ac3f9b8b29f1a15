import EngineHost.Wasm.Operation

/-!
# Lanes of vectors

A vector of 128 bits holds numbers of one width, its lanes, the lowest first. Most functions of vectors
work on one lane after the other; some halve or double the width of the lanes, and take or give only
one half of them.
-/

namespace EngineHost.Wasm.Lanes

/-- The lanes of a vector, the lowest first. -/
def split (w : Nat) (v : BitVec 128) : List (BitVec w) :=
  (List.range (128 / w)).map fun i => v.extractLsb' (i * w) w

/-- The vector of some lanes, the lowest first; above them it is zero. -/
def join {w : Nat} (lanes : List (BitVec w)) : BitVec 128 :=
  lanes.foldr (fun lane rest => rest <<< w ||| lane.setWidth 128) 0

def map {w u : Nat} (f : BitVec w → BitVec u) (v : BitVec 128) : BitVec 128 :=
  join ((split w v).map f)

/-- A function of the lanes at each place of two vectors. -/
def map₂ {w u : Nat} (f : BitVec w → BitVec w → BitVec u) (a b : BitVec 128) : BitVec 128 :=
  join (List.zipWith f (split w a) (split w b))

def splat {w : Nat} (lane : BitVec w) : BitVec 128 := join (List.replicate (128 / w) lane)

def get (w : Nat) (v : BitVec 128) (place : Nat) : BitVec w := (split w v).getD place 0

def set {w : Nat} (v : BitVec 128) (place : Nat) (lane : BitVec w) : BitVec 128 :=
  join ((split w v).set place lane)

def mask {w : Nat} (test : BitVec w → BitVec w → Bool) (a b : BitVec w) : BitVec w :=
  if test a b then BitVec.allOnes w else 0

/-! ## Functions of one width -/

def toInt {w : Nat} (signed : Bool) (a : BitVec w) : Int := if signed then a.toInt else a.toNat

def nearest (w : Nat) (signed : Bool) (n : Int) : BitVec w :=
  let (least, greatest) := Operation.bounds w signed
  BitVec.ofInt w (max least (min greatest n))

def sum {w : Nat} (signed : Bool) (a b : BitVec w) : BitVec w :=
  nearest w signed (toInt signed a + toInt signed b)

def difference {w : Nat} (signed : Bool) (a b : BitVec w) : BitVec w :=
  nearest w signed (toInt signed a - toInt signed b)

def lesser {w : Nat} (signed : Bool) (a b : BitVec w) : BitVec w :=
  if toInt signed b < toInt signed a then b else a

def greater {w : Nat} (signed : Bool) (a b : BitVec w) : BitVec w :=
  if toInt signed a < toInt signed b then b else a

/-- The mean, rounded up. -/
def average {w : Nat} (a b : BitVec w) : BitVec w := BitVec.ofNat w ((a.toNat + b.toNat + 1) / 2)

/-- The product of two numbers between -1 and 1 that have 15 digits behind the point, rounded. -/
def fixedProduct (a b : BitVec 16) : BitVec 16 :=
  nearest 16 true ((a.toInt * b.toInt + 2 ^ 14) / 2 ^ 15)

/-- The lanes shifted by an amount, which counts modulo their width. -/
def shift {w : Nat} (f : BitVec w → Nat → BitVec w) (v : BitVec 128) (amount : Nat) : BitVec 128 :=
  map (fun a => f a (amount % w)) v

def allTrue (w : Nat) (v : BitVec 128) : Bool := (split w v).all (· != 0)

def signs (w : Nat) (v : BitVec 128) : Nat :=
  (split w v).foldr (fun a n => 2 * n + a.msb.toNat) 0

/-! ## Functions that change the width -/

def half {α : Type} (high : Bool) (lanes : List α) : List α :=
  if high then lanes.drop (lanes.length / 2) else lanes.take (lanes.length / 2)

def widened {w : Nat} (signed : Bool) (a : BitVec w) : BitVec (2 * w) :=
  if signed then a.signExtend (2 * w) else a.setWidth (2 * w)

def extended (w : Nat) (signed high : Bool) (v : BitVec 128) : BitVec 128 :=
  join ((half high (split w v)).map (widened signed))

def products (w : Nat) (signed high : Bool) (a b : BitVec 128) : BitVec 128 :=
  join (List.zipWith (fun x y => widened signed x * widened signed y)
    (half high (split w a)) (half high (split w b)))

def pairSums {w : Nat} : List (BitVec w) → List (BitVec w)
  | a :: b :: lanes => (a + b) :: pairSums lanes
  | _ => []

def neighbourSums (w : Nat) (signed : Bool) (v : BitVec 128) : BitVec 128 :=
  join (pairSums ((split w v).map (widened signed)))

/-- The sums of neighbouring products, with twice the width. -/
def dotProducts (w : Nat) (a b : BitVec 128) : BitVec 128 :=
  join (pairSums
    (List.zipWith (fun x y => widened true x * widened true y) (split w a) (split w b)))

/-- The lanes of two vectors with half the width; each is the nearest to a signed number. -/
def narrowed (w : Nat) (signed : Bool) (a b : BitVec 128) : BitVec 128 :=
  join ((split (2 * w) a ++ split (2 * w) b).map fun x => nearest w signed x.toInt)

/-! ## Bytes -/

/-- The bytes at places that a vector gives; zero for places outside. -/
def swizzle (v places : BitVec 128) : BitVec 128 :=
  map (fun (p : BitVec 8) => get 8 v p.toNat) places

/-- The bytes at given places of two vectors. -/
def shuffle (places : List Nat) (a b : BitVec 128) : BitVec 128 :=
  join (places.map fun p => (split 8 a ++ split 8 b).getD p 0)

/-- The bits of one vector or another, as a third says. -/
def bitSelect (a b choice : BitVec 128) : BitVec 128 := (a &&& choice) ||| (b &&& ~~~choice)

/-! ## Fractions -/

/-- The lesser of two fractions, the first one if they cannot be compared. -/
def lesserFraction {w : Nat} (F : FractionFormat w) (a b : BitVec w) : BitVec w :=
  if F.compare Binary64.less b a then b else a

/-- The greater of two fractions, the first one if they cannot be compared. -/
def greaterFraction {w : Nat} (F : FractionFormat w) (a b : BitVec w) : BitVec w :=
  if F.compare Binary64.less a b then b else a

/-- The lesser or the greater of two fractions, undefined if they cannot be compared. -/
def extreme {w : Nat} (F : FractionFormat w) (f : Binary64 → Binary64 → Binary64) (a b : BitVec w) :
    BitVec w :=
  F.settled (f (F.read a) (F.read b))

end EngineHost.Wasm.Lanes
