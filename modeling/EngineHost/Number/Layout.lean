import EngineHost.Number.Decimal

/-!
# Layouts of decimal numbers

The digits of a number are written positionally or with an exponent; the layouts of the output
formats differ in when they choose which.
-/

namespace EngineHost.Layout

def digit (d : Nat) : UInt8 := (48 + d).toUInt8

/-- The digit at a position, zero outside the digits. -/
def digitAt (d : Decimal) (i : Int) : UInt8 :=
  if i < 0 then digit 0 else digit (d.digits.getD i.toNat 0)

/-- Positional notation with the given number of places behind the point. -/
def positional (d : Decimal) (places : Nat) : Bytes :=
  let whole : Bytes :=
    if 0 < d.point then (List.range d.point.toNat).map fun (i : Nat) => digitAt d i else "0"
  let fraction : Bytes :=
    if places = 0 then []
    else "." ++ (List.range places).map fun (i : Nat) => digitAt d (d.point + i)
  whole ++ fraction

/-- The exponent of the leading digit. -/
def leadingExponent (d : Decimal) : Int := if d.digits.isEmpty then 0 else d.point - 1

/-- Notation with an exponent of at least two digits and the given number of places. -/
def scientific (mark : Char) (d : Decimal) (places : Nat) : Bytes :=
  let e := leadingExponent d
  let fraction : Bytes :=
    if places = 0 then []
    else "." ++ (List.range places).map fun (i : Nat) => digitAt d (i + 1)
  [digitAt d 0] ++ fraction ++ [Bytes.ofAscii mark] ++ (if e < 0 then "-" else "+") ++
    Bytes.padLeft 2 (digit 0) (Bytes.ofNat e.natAbs)

/-- The minus sign of a negative number, zeros and infinities included. -/
def sign (x : Binary64) : Bytes := if x.negative then "-" else []

/-- The texts of numbers that have no digits. -/
def special? (x : Binary64) : Option Bytes :=
  if x.isNaN then some "NaN"
  else if x.isInfinite then some (if x.negative then "-Inf" else "+Inf")
  else none

/-- All digits behind the point that a decimal has. -/
def allPlaces (d : Decimal) : Nat := ((d.digits.length : Int) - d.point).toNat

/-- The shortest digits, with an exponent from a million upwards and below `10 ^ -4`. -/
def general (x : Binary64) : Bytes :=
  match special? x with
  | some text => text
  | none =>
    let d := Decimal.shortest x
    let e := leadingExponent d
    sign x ++ (if e < -4 || 6 ≤ e then scientific 'e' d (d.digits.length - 1)
      else positional d (allPlaces d))

/-- A fixed number of places behind the point, a half rounding to even. -/
def fixed (x : Binary64) (places : Nat) : Bytes :=
  match special? x with
  | some text => text
  | none => sign x ++ positional (Decimal.places x places) places

end EngineHost.Layout
