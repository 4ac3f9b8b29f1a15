import EngineHost.Time.Duration

/-!
# Instants

Points in time with the offset of the zone in which they are shown, their RFC 3339 text, and
reading such texts in the stricter and the looser spellings that the input formats allow.
-/

namespace EngineHost

/-- A point in time. The zero value is the first second of the year 1. -/
structure Instant where
  /-- Seconds since the start of the year 1, in the zone with offset 0. -/
  seconds : Int := 0
  nanos : Nat := 0
  /-- The offset of the zone in which the instant is shown, in seconds. -/
  offset : Int := 0
  /-- Whether the zone was given by its offset. -/
  numbered : Bool := false
deriving DecidableEq, Repr, Inhabited

namespace Instant

def isLeap (year : Int) : Bool := year % 4 == 0 && (year % 100 != 0 || year % 400 == 0)

def daysIn (year : Int) (month : Nat) : Nat :=
  match month with
  | 2 => if isLeap year then 29 else 28
  | 4 | 6 | 9 | 11 => 30
  | _ => 31

def daysBeforeMonth (year : Int) (month : Nat) : Nat :=
  ((List.range (month - 1)).map fun m => daysIn year (m + 1)).sum

/-- The days before the first of January of a year, counted from the year 1. -/
def daysBeforeYear (year : Int) : Int :=
  let y := year - 1
  365 * y + y / 4 - y / 100 + y / 400

/-- The days from the start of the year 1 to a date. -/
def dayNumber (year : Int) (month day : Nat) : Int :=
  daysBeforeYear year + daysBeforeMonth year month + (day : Int) - 1

/-- The year that a day lies in: an estimate from the mean length of a year, which is off by at
most one. -/
def yearOf (dayNumber : Int) : Int :=
  let guess := dayNumber * 400 / 146097 + 1
  if dayNumber < daysBeforeYear guess then guess - 1
  else if daysBeforeYear (guess + 1) ≤ dayNumber then guess + 1
  else guess

/-- The month and the day of a day of the year, counted from 0. -/
def monthOf (year : Int) : (months : List Nat) → (day : Nat) → Nat × Nat
  | [], day => (12, day + 1)
  | m :: rest, day =>
    if day < daysIn year m then (m, day + 1) else monthOf year rest (day - daysIn year m)

/-- The year, month and day of a day number. -/
def dateOf (dayNumber : Int) : Int × Nat × Nat :=
  let year := yearOf dayNumber
  let (month, day) := monthOf year (List.range' 1 12) (dayNumber - daysBeforeYear year).toNat
  (year, month, day)

/-- A number with leading zeros up to a width; the sign of a negative one comes first. -/
def padded (width : Nat) (n : Int) : Bytes :=
  (if n < 0 then "-" else "") ++ Bytes.padLeft width 48 (Bytes.ofNat n.natAbs)

/-- The date as year, month and day with hyphens. -/
def dateText (t : Instant) : Bytes :=
  let (year, month, day) := dateOf ((t.seconds + t.offset) / 86400)
  padded 4 year ++ "-" ++ padded 2 month ++ "-" ++ padded 2 day

/-- The time of day with colons and a fraction without trailing zeros. -/
def clockText (t : Instant) : Bytes :=
  let s := (t.seconds + t.offset) % 86400
  padded 2 (s / 3600) ++ ":" ++ padded 2 (s % 3600 / 60) ++ ":" ++ padded 2 (s % 60) ++
    Duration.fraction t.nanos 9

def zoneText (separator : Bytes) (t : Instant) : Bytes :=
  let minutes := t.offset.tdiv 60
  (if minutes < 0 then "-" else "+") ++ padded 2 (minutes.natAbs / 60 : Nat) ++ separator ++
    padded 2 (minutes.natAbs % 60 : Nat)

/-- The RFC 3339 text; the zone with offset 0 is written `Z`. -/
def text (t : Instant) : Bytes :=
  dateText t ++ "T" ++ clockText t ++ (if t.offset = 0 then ("Z" : Bytes) else zoneText ":" t)

def display (t : Instant) : Bytes :=
  dateText t ++ " " ++ clockText t ++ " " ++ zoneText [] t ++ " " ++
    (if t.offset = 0 then ("UTC" : Bytes) else zoneText [] t)

def monthNames : List String :=
  ["January", "February", "March", "April", "May", "June", "July", "August", "September",
    "October", "November", "December"]

/-- An instant as an expression for it. The zone with offset 0 is the local one if it was given by
its offset; the others have no name. -/
def literal (t : Instant) : Bytes :=
  let (year, month, day) := dateOf ((t.seconds + t.offset) / 86400)
  let s := (t.seconds + t.offset) % 86400
  let zone : Bytes :=
    if t.offset ≠ 0 then "time.Location(\"\")" else if t.numbered then "time.Local" else "time.UTC"
  "time.Date(" ++ Bytes.join ", " [Bytes.ofInt year,
    "time." ++ Bytes.ofString (monthNames.getD (month - 1) ""), Bytes.ofNat day,
    Bytes.ofInt (s / 3600), Bytes.ofInt (s % 3600 / 60), Bytes.ofInt (s % 60),
    Bytes.ofNat t.nanos, zone] ++ ")"

def year (t : Instant) : Int := yearOf ((t.seconds + t.offset) / 86400)

/-- Nanoseconds since the start of the year 1. -/
def totalNanos (t : Instant) : Int := t.seconds * 1000000000 + t.nanos

/-- The duration from one instant to another, held within the range of durations. -/
def since (stop start : Instant) : Duration :=
  let d := stop.totalNanos - start.totalNanos
  ⟨Int64.ofInt (max (-(2 ^ 63)) (min (2 ^ 63 - 1) d))⟩

structure Spelling where
  /-- Month, day, minute and second always have two digits. -/
  padded : Bool
  /-- The byte between date and time. -/
  separator : UInt8
  /-- Whether a zone is written. -/
  zoned : Bool

def standard : Spelling := ⟨true, 84, true⟩

def number? (twoDigits : Bool) : Bytes → Option (Nat × Bytes)
  | a :: rest =>
    if !Bytes.isDigit a then none
    else match rest with
      | b :: rest' =>
        if Bytes.isDigit b then some (10 * (a.toNat - 48) + (b.toNat - 48), rest')
        else if twoDigits then none else some (a.toNat - 48, rest)
      | [] => if twoDigits then none else some (a.toNat - 48, [])
  | [] => none

def year? : Bytes → Option (Nat × Bytes)
  | a :: b :: c :: d :: rest =>
    if [a, b, c, d].all Bytes.isDigit then some (Bytes.digitsValue [a, b, c, d], rest) else none
  | _ => none

/-- A byte that must stand at the front; a blank stands for any number of blanks. -/
def expect? (b : UInt8) : Bytes → Option Bytes
  | a :: rest =>
    if a ≠ b then none else some (if b = 32 then rest.dropWhile (· == 32) else rest)
  | [] => if b = 32 then some [] else none

def numberWithin? (twoDigits : Bool) (least greatest : Nat) (s : Bytes) : Option (Nat × Bytes) :=
  (number? twoDigits s).filter fun p => least ≤ p.1 && p.1 ≤ greatest

/-- A date. The day is checked against the month after the whole text has been read. -/
def date? (twoDigits : Bool) (s : Bytes) : Option ((Nat × Nat × Nat) × Bytes) := do
  let (year, s) ← year? s
  let s ← expect? 45 s
  let (month, s) ← numberWithin? twoDigits 1 12 s
  let s ← expect? 45 s
  let (day, s) ← number? twoDigits s
  return ((year, month, day), s)

def clock? (twoDigits : Bool) (s : Bytes) : Option (Nat × Bytes) := do
  let (hour, s) ← numberWithin? false 0 23 s
  let s ← expect? 58 s
  let (minute, s) ← numberWithin? twoDigits 0 59 s
  let s ← expect? 58 s
  let (second, s) ← numberWithin? twoDigits 0 59 s
  return (hour * 3600 + minute * 60 + second, s)

/-- Nanoseconds behind a point or comma; digits beyond the ninth are dropped. -/
def leadingNanos (s : Bytes) : Nat × Bytes :=
  match s with
  | p :: d :: rest =>
    if (p = 46 ∨ p = 44) ∧ Bytes.isDigit d then
      let digits := d :: rest.takeWhile Bytes.isDigit
      (Bytes.digitsValue (Bytes.padRight 9 48 (digits.take 9)), rest.dropWhile Bytes.isDigit)
    else (0, s)
  | _ => (0, s)

/-- The offset of a zone and whether it is given as such: `Z`, or a sign with hours and minutes. -/
def zone? : Bytes → Option ((Int × Bool) × Bytes)
  | 90 :: rest => some ((0, false), rest)
  | sign :: a :: b :: 58 :: c :: d :: rest => do
    let (hours, _) ← number? true [a, b]
    let (minutes, _) ← number? true [c, d]
    if 24 < hours ∨ 60 < minutes then none
    else
      let offset : Int := (hours * 60 + minutes) * 60
      if sign = 43 then some ((offset, true), rest)
      else if sign = 45 then some ((-offset, true), rest)
      else none
  | _ => none

/-- The zone of a text, which is the one with offset 0 where none is written. -/
def writtenZone? (zoned : Bool) (s : Bytes) : Option ((Int × Bool) × Bytes) :=
  if zoned then zone? s else some ((0, false), s)

/-- An instant from its calendar fields, if the day exists. -/
def ofFields? (date : Nat × Nat × Nat) (secondOfDay nanos : Nat) (zone : Int × Bool) :
    Option Instant :=
  let (year, month, day) := date
  if day = 0 ∨ daysIn year month < day then none
  else some ⟨dayNumber year month day * 86400 + secondOfDay - zone.1, nanos, zone.1, zone.2⟩

def parse? (spelling : Spelling) (s : Bytes) : Option Instant := do
  let (date, s) ← date? spelling.padded s
  let s ← expect? spelling.separator s
  let (secondOfDay, s) ← clock? spelling.padded s
  let (nanos, s) := leadingNanos s
  let (zone, s) ← writtenZone? spelling.zoned s
  if s.isEmpty then ofFields? date secondOfDay nanos zone else none

/-- Reads a date alone, which stands for its first second. -/
def parseDate? (s : Bytes) : Option Instant := do
  let (date, rest) ← date? false s
  if rest.isEmpty then ofFields? date 0 0 (0, false) else none

end Instant

end EngineHost
