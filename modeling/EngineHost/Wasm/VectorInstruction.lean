import EngineHost.Wasm.Lanes

/-!
# Instructions on vectors

The instructions on vectors of 128 bits, in the order of the bytes behind their code, with what they
compute.
-/

namespace EngineHost.Wasm

inductive VectorForm
  /-- Makes a vector from some bytes of the memory. -/
  | load (width : Nat) (f : BitVec 128 → BitVec 128)
  | store
  | const
  /-- Makes a vector from bytes of two vectors, at places behind the instruction. -/
  | shuffle
  /-- Takes one of the numbers of a vector. -/
  | extract (lanes : Nat) (type : ValueType) (f : BitVec 128 → (place : Nat) → Value)
  /-- Exchanges one of the numbers of a vector. -/
  | replace (lanes : Nat) (type : ValueType) (f : BitVec 128 → (place : Nat) → Value → BitVec 128)
  /-- Fills one place of a vector from the memory. -/
  | loadLane (width : Nat)
  /-- Copies one place of a vector to the memory. -/
  | storeLane (width : Nat)
  /-- Computes a value from operands in the order in which they are taken. -/
  | compute (operands : List ValueType) (result : ValueType) (apply : List Value → Value)
  /-- A code without an instruction. -/
  | missing

structure VectorInstruction where
  name : Bytes
  form : VectorForm

namespace VectorInstruction

/-! ## Families -/

def family {α : Type} (shape : String) (form : α → VectorForm) (entries : List (String × α)) :
    List VectorInstruction :=
  entries.map fun (name, meaning) => ⟨Bytes.ofString (shape ++ "." ++ name), form meaning⟩

def gap (n : Nat) : List VectorInstruction := List.replicate n ⟨[], .missing⟩

def unary (f : BitVec 128 → BitVec 128) : VectorForm :=
  .compute [.v128] .v128 fun
    | [a] => .v128 (f a.vector)
    | _ => .v128 0

def binary (f : BitVec 128 → BitVec 128 → BitVec 128) : VectorForm :=
  .compute [.v128, .v128] .v128 fun
    | [b, a] => .v128 (f a.vector b.vector)
    | _ => .v128 0

def ternary (f : BitVec 128 → BitVec 128 → BitVec 128 → BitVec 128) : VectorForm :=
  .compute [.v128, .v128, .v128] .v128 fun
    | [c, b, a] => .v128 (f a.vector b.vector c.vector)
    | _ => .v128 0

def test (f : BitVec 128 → Nat) : VectorForm :=
  .compute [.v128] .i32 fun
    | [a] => .i32 (BitVec.ofNat 32 (f a.vector))
    | _ => .i32 0

def shift (f : BitVec 128 → Nat → BitVec 128) : VectorForm :=
  .compute [.i32, .v128] .v128 fun
    | [n, a] => .v128 (f a.vector n.word.toNat)
    | _ => .v128 0

def splat (type : ValueType) (f : Value → BitVec 128) : VectorForm :=
  .compute [type] .v128 fun
    | [a] => .v128 (f a)
    | _ => .v128 0

def shape (w : Nat) : String := s!"i{w}x{128 / w}"

/-- The type of the numbers that stand for lanes of integers. -/
def laneType (w : Nat) : ValueType := if w ≤ 32 then .i32 else .i64

def laneOf (w : Nat) (v : Value) : BitVec w := if w ≤ 32 then v.word.setWidth w else v.long.setWidth w

def laneValue {w : Nat} (signed : Bool) (a : BitVec w) : Value :=
  if w ≤ 32 then .i32 (if signed then a.signExtend 32 else a.setWidth 32) else .i64 (a.setWidth 64)

/-! ## The memory, and numbers in vectors -/

/-- The instructions that make vectors from bytes of the memory. -/
def loads : List VectorInstruction :=
  family "v128" (.load 16) [("load", id)] ++
  family "v128" (.load 8)
    [("load8x8_s", Lanes.extended 8 true false), ("load8x8_u", Lanes.extended 8 false false),
     ("load16x4_s", Lanes.extended 16 true false), ("load16x4_u", Lanes.extended 16 false false),
     ("load32x2_s", Lanes.extended 32 true false), ("load32x2_u", Lanes.extended 32 false false)] ++
  family "v128" (.load 1) [("load8_splat", fun v => Lanes.splat (v.setWidth 8))] ++
  family "v128" (.load 2) [("load16_splat", fun v => Lanes.splat (v.setWidth 16))] ++
  family "v128" (.load 4) [("load32_splat", fun v => Lanes.splat (v.setWidth 32))] ++
  family "v128" (.load 8) [("load64_splat", fun v => Lanes.splat (v.setWidth 64))]

def integerSplats : List VectorInstruction :=
  [8, 16, 32, 64].flatMap fun w =>
    family (shape w) (splat (laneType w)) [("splat", fun v => Lanes.splat (laneOf w v))]

def integerLanes (w : Nat) (extractions : List (String × Bool)) : List VectorInstruction :=
  family (shape w)
    (fun signed => .extract (128 / w) (laneType w) fun v place =>
      laneValue signed (Lanes.get w v place)) extractions ++
  family (shape w) (.replace (128 / w) (laneType w))
    [("replace_lane", fun v place a => Lanes.set v place (laneOf w a))]

/-- The instructions that reach the memory, make vectors from numbers and take them apart. -/
def transfers : List VectorInstruction :=
  loads ++
  [⟨"v128.store", .store⟩, ⟨"v128.const", .const⟩, ⟨"v128.shuffle", .shuffle⟩] ++
  family "i8x16" binary [("swizzle", Lanes.swizzle)] ++
  integerSplats ++
  family "f32x4" (splat .f32) [("splat", fun v => Lanes.splat v.word)] ++
  family "f64x2" (splat .f64) [("splat", fun v => Lanes.splat v.long)] ++
  integerLanes 8 [("extract_lane_s", true), ("extract_lane_u", false)] ++
  integerLanes 16 [("extract_lane_s", true), ("extract_lane_u", false)] ++
  integerLanes 32 [("extract_lane", false)] ++
  integerLanes 64 [("extract_lane", false)] ++
  family "f32x4" (.extract 4 .f32) [("extract_lane", fun v place => .f32 (Lanes.get 32 v place))] ++
  family "f32x4" (.replace 4 .f32)
    [("replace_lane", fun v place a => Lanes.set v place a.word)] ++
  family "f64x2" (.extract 2 .f64) [("extract_lane", fun v place => .f64 (Lanes.get 64 v place))] ++
  family "f64x2" (.replace 2 .f64)
    [("replace_lane", fun v place a => Lanes.set v place a.long)]

/-! ## Comparisons and logic -/

def integerComparisons (w : Nat) : List VectorInstruction :=
  family (shape w) (fun f => binary (Lanes.map₂ (Lanes.mask f))) (Operation.integerComparisons w)

def floatComparisons {w : Nat} (shape : String) (F : FractionFormat w) : List VectorInstruction :=
  family shape (fun f => binary (Lanes.map₂ (Lanes.mask (F.compare f)))) Operation.floatComparisons

def logic : List VectorInstruction :=
  family "v128" unary [("not", fun a => ~~~a)] ++
  family "v128" binary
    [("and", fun a b => a &&& b), ("andnot", fun a b => a &&& ~~~b), ("or", fun a b => a ||| b),
     ("xor", fun a b => a ^^^ b)] ++
  family "v128" ternary [("bitselect", Lanes.bitSelect)] ++
  family "v128" test [("any_true", fun a => (a != 0).toNat)]

/-- The comparisons, the logic and the accesses to single places. -/
def comparisons : List VectorInstruction :=
  integerComparisons 8 ++ integerComparisons 16 ++ integerComparisons 32 ++
  floatComparisons "f32x4" .short ++ floatComparisons "f64x2" .long ++
  logic ++
  family "v128" .loadLane
    [("load8_lane", 1), ("load16_lane", 2), ("load32_lane", 4), ("load64_lane", 8)] ++
  family "v128" .storeLane
    [("store8_lane", 1), ("store16_lane", 2), ("store32_lane", 4), ("store64_lane", 8)] ++
  family "v128" (.load 4) [("load32_zero", id)] ++
  family "v128" (.load 8) [("load64_zero", id)] ++
  family "f32x4" unary [("demote_f64x2_zero", Lanes.map FractionFormat.demote)] ++
  family "f64x2" unary [("promote_low_f32x4", Lanes.map FractionFormat.promote)]

/-! ## Arithmetic of integers -/

def lanewise (w : Nat) (entries : List (String × (BitVec w → BitVec w))) : List VectorInstruction :=
  family (shape w) (fun f => unary (Lanes.map f)) entries

def pairwise (w : Nat) (entries : List (String × (BitVec w → BitVec w → BitVec w))) :
    List VectorInstruction :=
  family (shape w) (fun f => binary (Lanes.map₂ f)) entries

def signFunctions (w : Nat) : List VectorInstruction :=
  lanewise w [("abs", BitVec.abs), ("neg", fun a => -a)]

def tests (w : Nat) : List VectorInstruction :=
  family (shape w) test [("all_true", fun v => (Lanes.allTrue w v).toNat), ("bitmask", Lanes.signs w)]

def narrowings (w : Nat) : List VectorInstruction :=
  family (shape w) binary
    [(s!"narrow_{shape (2 * w)}_s", Lanes.narrowed w true),
     (s!"narrow_{shape (2 * w)}_u", Lanes.narrowed w false)]

def shifts (w : Nat) : List VectorInstruction :=
  family (shape w) (fun f => shift (Lanes.shift f))
    [("shl", fun (a : BitVec w) n => a <<< n), ("shr_s", fun a n => a.sshiftRight n),
     ("shr_u", fun a n => a >>> n)]

/-- The sums and differences that stay in the range of their lanes, with the names of the
differences. -/
def sums (w : Nat) (less lessUnsigned : String) : List VectorInstruction :=
  pairwise w
    [("add", fun a b => a + b), ("add_sat_s", Lanes.sum true), ("add_sat_u", Lanes.sum false),
     ("sub", fun a b => a - b), (less, Lanes.difference true),
     (lessUnsigned, Lanes.difference false)]

/-- The lesser and the greater of two lanes. -/
def extremes (w : Nat) : List VectorInstruction :=
  pairwise w
    [("min_s", Lanes.lesser true), ("min_u", Lanes.lesser false), ("max_s", Lanes.greater true),
     ("max_u", Lanes.greater false)]

def averages (w : Nat) : List VectorInstruction := pairwise w [("avgr_u", Lanes.average)]

/-- The lanes of twice the width that are sums of lanes of a width. -/
def neighbourSums (w : Nat) : List VectorInstruction :=
  family (shape (2 * w)) unary
    [(s!"extadd_pairwise_{shape w}_s", Lanes.neighbourSums w true),
     (s!"extadd_pairwise_{shape w}_u", Lanes.neighbourSums w false)]

def extensions (w : Nat) : List VectorInstruction :=
  family (shape (2 * w)) unary
    [(s!"extend_low_{shape w}_s", Lanes.extended w true false),
     (s!"extend_high_{shape w}_s", Lanes.extended w true true),
     (s!"extend_low_{shape w}_u", Lanes.extended w false false),
     (s!"extend_high_{shape w}_u", Lanes.extended w false true)]

def products (w : Nat) : List VectorInstruction :=
  family (shape (2 * w)) binary
    [(s!"extmul_low_{shape w}_s", Lanes.products w true false),
     (s!"extmul_high_{shape w}_s", Lanes.products w true true),
     (s!"extmul_low_{shape w}_u", Lanes.products w false false),
     (s!"extmul_high_{shape w}_u", Lanes.products w false true)]

def roundings {w : Nat} (shape : String) (F : FractionFormat w)
    (entries : List (String × (Binary64 → Binary64))) : List VectorInstruction :=
  family shape (fun f => unary (Lanes.map (F.map f))) entries

def byteArithmetic : List VectorInstruction :=
  signFunctions 8 ++ lanewise 8 [("popcnt", BitVec.cpop)] ++ tests 8 ++ narrowings 8 ++
  roundings "f32x4" .short
    [("ceil", Binary64.ceil), ("floor", Binary64.floor), ("trunc", Binary64.trunc),
     ("nearest", Binary64.nearest)] ++
  shifts 8 ++ sums 8 "sub_s" "sub_u" ++
  roundings "f64x2" .long [("ceil", Binary64.ceil), ("floor", Binary64.floor)] ++
  extremes 8 ++
  roundings "f64x2" .long [("trunc", Binary64.trunc)] ++
  averages 8 ++ neighbourSums 8 ++ neighbourSums 16

def shortArithmetic : List VectorInstruction :=
  signFunctions 16 ++ pairwise 16 [("q15mulr_sat_s", Lanes.fixedProduct)] ++ tests 16 ++
  narrowings 16 ++ extensions 8 ++ shifts 16 ++ sums 16 "sub_sat_s" "sub_sat_u" ++
  roundings "f64x2" .long [("nearest", Binary64.nearest)] ++
  pairwise 16 [("mul", fun a b => a * b)] ++ extremes 16 ++ gap 1 ++ averages 16 ++ products 8

def wordArithmetic : List VectorInstruction :=
  signFunctions 32 ++ gap 1 ++ tests 32 ++ gap 2 ++ extensions 16 ++ shifts 32 ++
  pairwise 32 [("add", fun a b => a + b)] ++ gap 2 ++
  pairwise 32 [("sub", fun a b => a - b)] ++ gap 3 ++
  pairwise 32 [("mul", fun a b => a * b)] ++ extremes 32 ++
  family "i32x4" binary [("dot_i16x8_s", Lanes.dotProducts 16)] ++ gap 1 ++ products 16

def longArithmetic : List VectorInstruction :=
  signFunctions 64 ++ gap 1 ++ tests 64 ++ gap 2 ++ extensions 32 ++ shifts 64 ++
  pairwise 64 [("add", fun a b => a + b)] ++ gap 2 ++
  pairwise 64 [("sub", fun a b => a - b)] ++ gap 3 ++
  pairwise 64
    [("mul", fun a b => a * b), ("eq", Lanes.mask fun a b => a == b),
     ("ne", Lanes.mask fun a b => a != b), ("lt", Lanes.mask fun a b => a.slt b),
     ("gt", Lanes.mask fun a b => b.slt a), ("le", Lanes.mask fun a b => a.sle b),
     ("ge", Lanes.mask fun a b => b.sle a)] ++
  products 32

/-! ## Arithmetic of fractions -/

def fractions {w : Nat} (shape : String) (F : FractionFormat w) : List VectorInstruction :=
  family shape (fun f => unary (Lanes.map f)) (Operation.signFunctions w) ++
  gap 1 ++
  roundings shape F [("sqrt", Binary64.sqrt)] ++
  family shape (fun f => binary (Lanes.map₂ (F.map₂ f)))
    [("add", Binary64.add), ("sub", Binary64.sub), ("mul", Binary64.mul), ("div", Binary64.div)] ++
  family shape (fun f => binary (Lanes.map₂ f))
    [("min", Lanes.extreme F Binary64.min), ("max", Lanes.extreme F Binary64.max),
     ("pmin", Lanes.lesserFraction F), ("pmax", Lanes.greaterFraction F)]

def ofIntegers {w : Nat} (F : FractionFormat w) (signed : Bool) (v : BitVec 128) : BitVec 128 :=
  Lanes.map (fun (a : BitVec 32) => F.write (.ofInt (Lanes.toInt signed a))) v

def toIntegers {w : Nat} (F : FractionFormat w) (signed : Bool) (v : BitVec 128) : BitVec 128 :=
  Lanes.map (fun a => Operation.saturated 32 signed (F.read a)) v

def conversions : List VectorInstruction :=
  family "i32x4" unary
    [("trunc_sat_f32x4_s", toIntegers .short true), ("trunc_sat_f32x4_u", toIntegers .short false)] ++
  family "f32x4" unary
    [("convert_i32x4_s", ofIntegers .short true), ("convert_i32x4_u", ofIntegers .short false)] ++
  family "i32x4" unary
    [("trunc_sat_f64x2_s_zero", toIntegers .long true),
     ("trunc_sat_f64x2_u_zero", toIntegers .long false)] ++
  family "f64x2" unary
    [("convert_low_i32x4_s", ofIntegers .long true),
     ("convert_low_i32x4_u", ofIntegers .long false)]

/-- The instructions on vectors in the order of the bytes behind their code. -/
def all : List VectorInstruction :=
  transfers ++ comparisons ++ byteArithmetic ++ shortArithmetic ++ wordArithmetic ++
    longArithmetic ++ fractions "f32x4" .short ++ fractions "f64x2" .long ++ conversions

/-- The operation of an instruction that takes operands and puts a value on the stack. -/
def operation (v : VectorInstruction) (operands : List ValueType) (result : ValueType)
    (f : List Value → Value) : Operation where
  name := v.name
  operands := operands.map (Bytes.ofString "operand", ·)
  result := result
  apply values := .ok (f values)

/-- The operation that takes bytes at some places of two vectors. -/
def shuffled (v : VectorInstruction) (places : List Nat) : Operation :=
  v.operation [.v128, .v128] .v128 fun
    | [b, a] => .v128 (Lanes.shuffle places a.vector b.vector)
    | _ => .v128 0

def extracted (v : VectorInstruction) (type : ValueType) (f : BitVec 128 → Value) : Operation :=
  v.operation [.v128] type fun
    | [a] => f a.vector
    | _ => .zero type

def replaced (v : VectorInstruction) (type : ValueType) (f : BitVec 128 → Value → BitVec 128) :
    Operation :=
  v.operation [type, .v128] .v128 fun
    | [n, a] => .v128 (f a.vector n)
    | _ => .v128 0

end VectorInstruction

end EngineHost.Wasm
