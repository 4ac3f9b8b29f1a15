import EngineHost.Number.Literal

/-!
# Durations

A duration is a signed 64-bit count of nanoseconds. Its text uses the largest fitting units, such
as `1h1m1.001s`, `1.5µs` and `0s`; reading accepts any sequence of numbers with units.
-/

namespace EngineHost

structure Duration where
  nanoseconds : Int64
deriving DecidableEq, Repr, Inhabited

namespace Duration

def longest : Duration := ⟨Int64.maxValue⟩

/-- A floating-point count of seconds as a duration. Negative numbers and NaN become zero, and
what lies beyond the range becomes the longest duration. -/
def ofSeconds (seconds : Binary64) : Duration :=
  if !Binary64.less Binary64.zero seconds then ⟨0⟩
  else
    let ns := Binary64.mul seconds (Binary64.ofNat 1000000000)
    if Binary64.lessEqual (Binary64.ofNat (2 ^ 63)) ns then longest else ⟨ns.toInt64⟩

/-- The seconds of a duration: whole seconds and the rest are converted apart and added. -/
def seconds (d : Duration) : Binary64 :=
  let ns := d.nanoseconds.toInt
  Binary64.add (Binary64.ofInt (ns.tdiv 1000000000))
    (Binary64.div (Binary64.ofInt (ns.tmod 1000000000)) (Binary64.ofNat 1000000000))

/-- The digits of `n / 10 ^ places` behind the point, with the point and without trailing zeros;
empty for a whole number. -/
def fraction (n places : Nat) : Bytes :=
  let digits := Bytes.padLeft places 48 (Bytes.ofNat (n % 10 ^ places))
  let kept := Bytes.dropTrailing (· == 48) digits
  if places = 0 ∨ kept.isEmpty then [] else "." ++ kept

def units (n places : Nat) (unit : Bytes) : Bytes :=
  Bytes.ofNat (n / 10 ^ places) ++ fraction n places ++ unit

def magnitudeText (n : Nat) : Bytes :=
  if n = 0 then "0s"
  else if n < 1000 then units n 0 "ns"
  else if n < 1000000 then units n 3 "µs"
  else if n < 1000000000 then units n 6 "ms"
  else
    let total := n / 1000000000
    let seconds := Bytes.ofNat (total % 60) ++ fraction n 9 ++ "s"
    let minutes := total / 60
    if minutes = 0 then seconds
    else
      let withMinutes := Bytes.ofNat (minutes % 60) ++ "m" ++ seconds
      let hours := minutes / 60
      if hours = 0 then withMinutes else Bytes.ofNat hours ++ "h" ++ withMinutes

def text (d : Duration) : Bytes :=
  let n := d.nanoseconds.toInt
  (if n < 0 then "-" else "") ++ magnitudeText n.natAbs

def unit? (s : Bytes) : Option Nat :=
  if s = "ns" then some 1
  else if s = "us" ∨ s = "µs" ∨ s = "μs" then some 1000
  else if s = "ms" then some 1000000
  else if s = "s" then some 1000000000
  else if s = "m" then some 60000000000
  else if s = "h" then some 3600000000000
  else none

/-- Takes up one more digit behind a point, unless the number is full. -/
def fractionStep (acc : Nat × Binary64 × Bool) (b : UInt8) : Nat × Binary64 × Bool :=
  let (x, scale, full) := acc
  if full then acc
  else if (2 ^ 63 - 1) / 10 < x then (x, scale, true)
  else
    let y := 10 * x + (b.toNat - 48)
    if 2 ^ 63 < y then (x, scale, true) else (y, Binary64.mul scale (Binary64.ofNat 10), false)

/-- The value of the digits behind a point and the power of ten that they are over, which is rounded
at each step; digits that no longer fit are dropped. -/
def leadingFraction (digits : Bytes) : Nat × Binary64 :=
  let (x, scale, _) := digits.foldl fractionStep (0, Binary64.ofNat 1, false)
  (x, scale)

/-- The value of one number with its unit, if it is in range. -/
def component? (whole fractionDigits unitName : Bytes) : Option Nat :=
  let v := Bytes.digitsValue whole
  if 2 ^ 63 < v then none
  else (unit? unitName).bind fun unit =>
    if 2 ^ 63 / unit < v then none
    else
      let (f, scale) := leadingFraction fractionDigits
      let extra := (Binary64.mul (Binary64.ofNat f)
        (Binary64.div (Binary64.ofNat unit) scale)).truncate.toNat
      let total := v * unit + (if 0 < f then extra else 0)
      if 2 ^ 63 < total then none else some total

/-- Whether a byte belongs to the name of a unit: all but digits and the point do. -/
def isUnitByte (b : UInt8) : Bool := b != 46 && !Bytes.isDigit b

/-- Splits off the digits behind a point, if a point stands at the front. -/
def splitFraction : Bytes → Bytes × Bytes
  | 46 :: rest => (rest.takeWhile Bytes.isDigit, rest.dropWhile Bytes.isDigit)
  | s => ([], s)

/-- Splits off a number with its unit: the digits before a point and behind it, and the name. -/
def splitComponent (s : Bytes) : (Bytes × Bytes × Bytes) × Bytes :=
  let (digits, rest) := splitFraction (s.dropWhile Bytes.isDigit)
  ((s.takeWhile Bytes.isDigit, digits, rest.takeWhile isUnitByte), rest.dropWhile isUnitByte)

/-- Adds up numbers with units. The sum is a 64-bit word that may not pass `2 ^ 63`. -/
def components? : (fuel : Nat) → UInt64 → Bytes → Option UInt64
  | 0, _, _ => none
  | _ + 1, sum, [] => some sum
  | fuel + 1, sum, b :: s =>
    let ((whole, digits, unitName), rest) := splitComponent (b :: s)
    if whole.isEmpty && digits.isEmpty then none
    else if unitName.isEmpty then none
    else (component? whole digits unitName).bind fun v =>
      let sum := sum + UInt64.ofNat v
      if 0x8000000000000000 < sum then none else components? fuel sum rest

/-- Reads a duration: an optional sign, then numbers with units, or a bare `0`. -/
def parse? (s : Bytes) : Option Duration :=
  let (neg, body) := Literal.splitSign s
  if body = "0" then some ⟨0⟩
  else if body.isEmpty then none
  else (components? (body.length + 1) 0 body).bind fun sum =>
    if neg then some ⟨Int64.ofInt (-(sum.toNat : Int))⟩
    else if 0x8000000000000000 ≤ sum then none
    else some ⟨Int64.ofNat sum.toNat⟩

end Duration

end EngineHost
