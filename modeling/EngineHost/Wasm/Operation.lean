import EngineHost.Wasm.Fraction

/-!
# Operations on numbers

The instructions that take numbers from the stack and put one number there, with what they compute.
Integers wrap around; a division fails if its result is no integer of the type, and so does the
conversion of a fraction that has no integral part in the type.
-/

namespace EngineHost.Wasm

/-- An instruction that takes numbers from the stack and puts one number there. -/
structure Operation where
  name : Bytes
  /-- What messages call each operand, with its type, in the order in which they are taken. -/
  operands : List (Bytes × ValueType)
  result : ValueType
  /-- The result for operands in the order in which they are taken. -/
  apply : List Value → Except Trap Value

namespace Operation

/-! ## Integers -/

def integerComparisons (w : Nat) : List (String × (BitVec w → BitVec w → Bool)) :=
  [("eq", fun a b => a == b), ("ne", fun a b => a != b), ("lt_s", fun a b => a.slt b),
   ("lt_u", fun a b => a.ult b), ("gt_s", fun a b => b.slt a), ("gt_u", fun a b => b.ult a),
   ("le_s", fun a b => a.sle b), ("le_u", fun a b => a.ule b), ("ge_s", fun a b => b.sle a),
   ("ge_u", fun a b => b.ule a)]

def integerFunctions (w : Nat) : List (String × (BitVec w → BitVec w)) :=
  [("clz", BitVec.clz), ("ctz", BitVec.ctz), ("popcnt", BitVec.cpop)]

/-- A quotient, which fails for the divisor zero. -/
def divided {w : Nat} (f : BitVec w → BitVec w → BitVec w) (a b : BitVec w) :
    Except Trap (BitVec w) :=
  if b = 0 then .error .divisionByZero else .ok (f a b)

/-- The signed quotient, which fails also where it does not fit. -/
def signedQuotient {w : Nat} (a b : BitVec w) : Except Trap (BitVec w) :=
  if a = BitVec.intMin w ∧ b = -1 then .error .integerOverflow else divided BitVec.sdiv a b

/-- The arithmetic of integers. Shifts take their amount modulo the width. -/
def integerArithmetic (w : Nat) :
    List (String × (BitVec w → BitVec w → Except Trap (BitVec w))) :=
  [("add", fun a b => .ok (a + b)), ("sub", fun a b => .ok (a - b)),
   ("mul", fun a b => .ok (a * b)), ("div_s", signedQuotient),
   ("div_u", divided BitVec.udiv), ("rem_s", divided BitVec.srem), ("rem_u", divided BitVec.umod),
   ("and", fun a b => .ok (a &&& b)), ("or", fun a b => .ok (a ||| b)),
   ("xor", fun a b => .ok (a ^^^ b)), ("shl", fun a b => .ok (a <<< (b.toNat % w))),
   ("shr_s", fun a b => .ok (a.sshiftRight (b.toNat % w))),
   ("shr_u", fun a b => .ok (a >>> (b.toNat % w))),
   ("rotl", fun a b => .ok (a.rotateLeft (b.toNat % w))),
   ("rotr", fun a b => .ok (a.rotateRight (b.toNat % w)))]

/-- The lowest `bits` bits of an integer, with their sign. -/
def signedPart {w : Nat} (bits : Nat) (a : BitVec w) : BitVec w := (a.setWidth bits).signExtend w

/-! ## Fractions -/

def floatComparisons : List (String × (Binary64 → Binary64 → Bool)) :=
  [("eq", Binary64.equal), ("ne", fun a b => !a.equal b), ("lt", Binary64.less),
   ("gt", fun a b => b.less a), ("le", Binary64.lessEqual), ("ge", fun a b => b.lessEqual a)]

/-- The functions of a pattern that only touch its sign. -/
def signFunctions (w : Nat) : List (String × (BitVec w → BitVec w)) :=
  [("abs", fun a => a &&& ~~~BitVec.intMin w), ("neg", fun a => a ^^^ BitVec.intMin w)]

def copySign {w : Nat} (a b : BitVec w) : BitVec w :=
  (a &&& ~~~BitVec.intMin w) ||| (b &&& BitVec.intMin w)

def floatFunctions : List (String × (Binary64 → Binary64)) :=
  [("ceil", Binary64.ceil), ("floor", Binary64.floor), ("trunc", Binary64.trunc),
   ("nearest", Binary64.nearest), ("sqrt", Binary64.sqrt)]

def floatArithmetic : List (String × (Binary64 → Binary64 → Binary64)) :=
  [("add", Binary64.add), ("sub", Binary64.sub), ("mul", Binary64.mul), ("div", Binary64.div),
   ("min", Binary64.min), ("max", Binary64.max)]

/-! ## Conversions -/

/-- The least and the greatest integer of a width. -/
def bounds (w : Nat) (signed : Bool) : Int × Int :=
  if signed then (-(2 ^ (w - 1)), 2 ^ (w - 1) - 1) else (0, 2 ^ w - 1)

def truncated (w : Nat) (signed : Bool) (x : Binary64) : Except Trap (BitVec w) :=
  let (least, greatest) := bounds w signed
  if x.isNaN then .error .noInteger
  else if !x.isFinite || x.truncate < least || greatest < x.truncate then .error .integerOverflow
  else .ok (BitVec.ofInt w x.truncate)

/-- The integral part of a fraction, or the integer nearest to it; zero where there is none. -/
def saturated (w : Nat) (signed : Bool) (x : Binary64) : BitVec w :=
  let (least, greatest) := bounds w signed
  if x.isNaN then 0
  else if x.isInfinite then BitVec.ofInt w (if x.negative then least else greatest)
  else BitVec.ofInt w (max least (min greatest x.truncate))

def fractionOf (n : Int) : ValueType → Value
  | .f32 => .f32 (Binary32.ofInt n).bits.toBitVec
  | _ => .ofDouble (.ofInt n)

/-! ## The table -/

def firstCode : Nat := 0x45

def unary (word : String) (type result : ValueType) (name : Bytes)
    (f : Value → Except Trap Value) : Operation where
  name := name
  operands := [(word, type)]
  result := result
  apply
    | [a] => f a
    | _ => .ok (.zero result)

def binary (word : String) (type result : ValueType) (name : Bytes)
    (f : Value → Value → Except Trap Value) : Operation where
  name := name
  operands := [("1st " ++ word, type), ("2nd " ++ word, type)]
  result := result
  apply
    | [b, a] => f a b
    | _ => .ok (.zero result)

def named (type : ValueType) (name : String) : Bytes := type.name ++ "." ++ name

def conversions (word : String) (type result : ValueType)
    (entries : List (String × (Value → Except Trap Value))) : List Operation :=
  entries.map fun (name, f) => unary word type result (named result name) f

/-- The operations on integers of 32 bits with truth values as results. -/
def wordComparisons : List Operation :=
  unary "operand" .i32 .i32 "i32.eqz" (fun a => .ok (.ofBool (a.word == 0))) ::
  (integerComparisons 32).map fun (name, f) =>
    binary "i32 operand" .i32 .i32 (named .i32 name) fun a b => .ok (.ofBool (f a.word b.word))

/-- The operations on integers of 64 bits with truth values as results. -/
def longComparisons : List Operation :=
  unary "operand" .i64 .i32 "i64.eqz" (fun a => .ok (.ofBool (a.long == 0))) ::
  (integerComparisons 64).map fun (name, f) =>
    binary "i64 operand" .i64 .i32 (named .i64 name) fun a b => .ok (.ofBool (f a.long b.long))

def fractionComparisons : List Operation :=
  (floatComparisons.map fun (name, f) =>
    binary "f32 operand" .f32 .i32 (named .f32 name) fun a b =>
      .ok (.ofBool (FractionFormat.short.compare f a.word b.word))) ++
  floatComparisons.map fun (name, f) =>
    binary "f64 operand" .f64 .i32 (named .f64 name) fun a b =>
      .ok (.ofBool (FractionFormat.long.compare f a.long b.long))

def integers : List Operation :=
  ((integerFunctions 32).map fun (name, f) =>
    unary "i32 operand" .i32 .i32 (named .i32 name) fun a => .ok (.i32 (f a.word))) ++
  ((integerArithmetic 32).map fun (name, f) =>
    binary "operand" .i32 .i32 (named .i32 name) fun a b => (f a.word b.word).map Value.i32) ++
  ((integerFunctions 64).map fun (name, f) =>
    unary "i64 operand" .i64 .i64 (named .i64 name) fun a => .ok (.i64 (f a.long))) ++
  (integerArithmetic 64).map fun (name, f) =>
    binary "i64 operand" .i64 .i64 (named .i64 name) fun a b => (f a.long b.long).map Value.i64

def shortFractions : List Operation :=
  ((signFunctions 32).map fun (name, f) =>
    unary "1st f32 operand" .f32 .f32 (named .f32 name) fun a => .ok (.f32 (f a.word))) ++
  (floatFunctions.map fun (name, f) =>
    unary "1st f32 operand" .f32 .f32 (named .f32 name) fun a =>
      .ok (.f32 (FractionFormat.short.map f a.word))) ++
  (floatArithmetic.map fun (name, f) =>
    binary "f32 operand" .f32 .f32 (named .f32 name) fun a b =>
      .ok (.f32 (FractionFormat.short.map₂ f a.word b.word))) ++
  [binary "f32 operand" .f32 .f32 "f32.copysign" fun a b => .ok (.f32 (copySign a.word b.word))]

def longFractions : List Operation :=
  ((signFunctions 64).map fun (name, f) =>
    unary "1st f64 operand" .f64 .f64 (named .f64 name) fun a => .ok (.f64 (f a.long))) ++
  (floatFunctions.map fun (name, f) =>
    unary "1st f64 operand" .f64 .f64 (named .f64 name) fun a =>
      .ok (.f64 (FractionFormat.long.map f a.long))) ++
  (floatArithmetic.map fun (name, f) =>
    binary "f64 operand" .f64 .f64 (named .f64 name) fun a b =>
      .ok (.f64 (FractionFormat.long.map₂ f a.long b.long))) ++
  [binary "f64 operand" .f64 .f64 "f64.copysign" fun a b => .ok (.f64 (copySign a.long b.long))]

def toIntegers : List Operation :=
  conversions "operand" .i64 .i32 [("wrap_i64", fun a => .ok (.i32 (a.long.setWidth 32)))] ++
  conversions "f32 operand" .f32 .i32
    [("trunc_f32_s", fun a => (truncated 32 true a.toSingle).map Value.i32),
     ("trunc_f32_u", fun a => (truncated 32 false a.toSingle).map Value.i32)] ++
  conversions "f64 operand" .f64 .i32
    [("trunc_f64_s", fun a => (truncated 32 true a.toDouble).map Value.i32),
     ("trunc_f64_u", fun a => (truncated 32 false a.toDouble).map Value.i32)] ++
  conversions "i32 operand" .i32 .i64
    [("extend_i32_s", fun a => .ok (.i64 (a.word.signExtend 64))),
     ("extend_i32_u", fun a => .ok (.i64 (a.word.setWidth 64)))] ++
  conversions "f32 operand" .f32 .i64
    [("trunc_f32_s", fun a => (truncated 64 true a.toSingle).map Value.i64),
     ("trunc_f32_u", fun a => (truncated 64 false a.toSingle).map Value.i64)] ++
  conversions "f64 operand" .f64 .i64
    [("trunc_f64_s", fun a => (truncated 64 true a.toDouble).map Value.i64),
     ("trunc_f64_u", fun a => (truncated 64 false a.toDouble).map Value.i64)]

/-- The conversions of integers to fractions of a type; `last` is the name of the last one. -/
def fromIntegers (result : ValueType) (last : String) : List Operation :=
  conversions "i32 operand" .i32 result
    [("convert_i32_s", fun a => .ok (fractionOf a.word.toInt result)),
     ("convert_i32_u", fun a => .ok (fractionOf a.word.toNat result))] ++
  conversions "i64 operand" .i64 result
    [("convert_i64_s", fun a => .ok (fractionOf a.long.toInt result)),
     (last, fun a => .ok (fractionOf a.long.toNat result))]

def toFractions : List Operation :=
  fromIntegers .f32 "convert_i64u" ++
  conversions "operand" .f64 .f32 [("demote_f64", fun a => .ok (.f32 (FractionFormat.demote a.long)))] ++
  fromIntegers .f64 "convert_i64_u" ++
  conversions "operand" .f32 .f64 [("promote_f32", fun a => .ok (.f64 (FractionFormat.promote a.word)))]

/-- The conversions that keep all bits. -/
def reinterpretations : List Operation :=
  conversions "operand" .f32 .i32 [("reinterpret_f32", fun a => .ok (.i32 a.word))] ++
  conversions "operand" .f64 .i64 [("reinterpret_f64", fun a => .ok (.i64 a.long))] ++
  conversions "operand" .i32 .f32 [("reinterpret_i32", fun a => .ok (.f32 a.word))] ++
  conversions "operand" .i64 .f64 [("reinterpret_i64", fun a => .ok (.f64 a.long))]

/-- The extensions of the sign of a part. -/
def signExtensions : List Operation :=
  conversions "operand" .i32 .i32
    [("extend8_s", fun a => .ok (.i32 (signedPart 8 a.word))),
     ("extend16_s", fun a => .ok (.i32 (signedPart 16 a.word)))] ++
  conversions "operand" .i64 .i64
    [("extend8_s", fun a => .ok (.i64 (signedPart 8 a.long))),
     ("extend16_s", fun a => .ok (.i64 (signedPart 16 a.long))),
     ("extend32_s", fun a => .ok (.i64 (signedPart 32 a.long)))]

/-- The instructions that compute with numbers, in the order of their codes. -/
def all : List Operation :=
  wordComparisons ++ longComparisons ++ fractionComparisons ++ integers ++ shortFractions ++
    longFractions ++ toIntegers ++ toFractions ++ reinterpretations ++ signExtensions

/-- The conversions to integers that never fail, in the order of the numbers behind their code. -/
def saturating : List Operation :=
  conversions "operand" .f32 .i32
    [("trunc_sat_f32_s", fun a => .ok (.i32 (saturated 32 true a.toSingle))),
     ("trunc_sat_f32_u", fun a => .ok (.i32 (saturated 32 false a.toSingle)))] ++
  conversions "operand" .f64 .i32
    [("trunc_sat_f64_s", fun a => .ok (.i32 (saturated 32 true a.toDouble))),
     ("trunc_sat_f64_u", fun a => .ok (.i32 (saturated 32 false a.toDouble)))] ++
  conversions "operand" .f32 .i64
    [("trunc_sat_f32_s", fun a => .ok (.i64 (saturated 64 true a.toSingle))),
     ("trunc_sat_f32_u", fun a => .ok (.i64 (saturated 64 false a.toSingle)))] ++
  conversions "operand" .f64 .i64
    [("trunc_sat_f64_s", fun a => .ok (.i64 (saturated 64 true a.toDouble))),
     ("trunc_sat_f64_u", fun a => .ok (.i64 (saturated 64 false a.toDouble)))]

end Operation

end EngineHost.Wasm
