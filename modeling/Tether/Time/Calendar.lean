import Tether.Text.Integer

/-!
# Points in time on the calendar

A point in time is a number of nanoseconds since the start of 1970, UTC. `DateTime` is
the same point as calendar and clock show it. Dates in property lists are written as
`2023-11-14T22:13:20.5Z` and read in the same form with any offset from UTC; the times of
files are written without the `Z`, with a fraction in groups of three digits.
-/

namespace Tether.Time

/-- A point in time as the calendar and the clock show it. -/
structure DateTime where
  year : Int
  month : Nat
  day : Nat
  hour : Nat
  minute : Nat
  second : Nat
  nanosecond : Nat
  deriving DecidableEq, Repr

/-- Nanoseconds in a second. -/
def nanosPerSecond : Nat := 1000000000

/-- Whether February has a day more. -/
def isLeapYear (year : Int) : Bool :=
  year % 4 = 0 && (year % 100 != 0 || year % 400 = 0)

/-- How many days a month has. -/
def daysInMonth (year : Int) (month : Nat) : Nat :=
  if month = 2 then if isLeapYear year then 29 else 28
  else if month = 4 ∨ month = 6 ∨ month = 9 ∨ month = 11 then 30
  else 31

/-- The days from the start of 1970 to a date. Years are counted from March, so that the
leap day is the last of its year. -/
def daysOfDate (year : Int) (month day : Nat) : Int :=
  let y := if month ≤ 2 then year - 1 else year
  let monthFromMarch : Int := if month ≤ 2 then month + 9 else month - 3
  let yearOfEra := y % 400
  let dayOfYear := (153 * monthFromMarch + 2) / 5 + day - 1
  y / 400 * 146097 + yearOfEra * 365 + yearOfEra / 4 - yearOfEra / 100 + dayOfYear - 719468

/-- The date a number of days after the start of 1970. -/
def dateOfDays (days : Int) : Int × Nat × Nat :=
  let z := days + 719468
  let dayOfEra := z % 146097
  let yearOfEra := (dayOfEra - dayOfEra / 1460 + dayOfEra / 36524 - dayOfEra / 146096) / 365
  let dayOfYear := dayOfEra - (365 * yearOfEra + yearOfEra / 4 - yearOfEra / 100)
  let monthFromMarch := (5 * dayOfYear + 2) / 153
  let day := dayOfYear - (153 * monthFromMarch + 2) / 5 + 1
  let month := if monthFromMarch < 10 then monthFromMarch + 3 else monthFromMarch - 9
  let year := yearOfEra + z / 146097 * 400 + (if month ≤ 2 then 1 else 0)
  (year, month.toNat, day.toNat)

namespace DateTime

/-- The date and time of a point in time. -/
def ofNanoseconds (nanoseconds : Int) : DateTime :=
  let seconds := nanoseconds / nanosPerSecond
  let ofDay := (seconds % 86400).toNat
  let (year, month, day) := dateOfDays (seconds / 86400)
  { year, month, day
    hour := ofDay / 3600, minute := ofDay / 60 % 60, second := ofDay % 60
    nanosecond := (nanoseconds % nanosPerSecond).toNat }

/-- The point in time of a date and time. -/
def toNanoseconds (t : DateTime) : Int :=
  (daysOfDate t.year t.month t.day * 86400 + t.hour * 3600 + t.minute * 60 + t.second) *
    nanosPerSecond + t.nanosecond

/-- A year, at least four digits wide. -/
def yearText (year : Int) : String :=
  (if year < 0 then "-" else "") ++ Text.paddedDecimal 4 year.natAbs

/-- Date and time without a fraction. -/
def toSecondText (t : DateTime) : String :=
  let two := Text.paddedDecimal 2
  yearText t.year ++ "-" ++ two t.month ++ "-" ++ two t.day ++ "T" ++ two t.hour ++ ":" ++
    two t.minute ++ ":" ++ two t.second

/-- The fraction of the second with as few digits as show it exactly. -/
def fractionText (t : DateTime) : String :=
  if t.nanosecond = 0 then ""
  else
    let digits := (Text.paddedDecimal 9 t.nanosecond).toList
    "." ++ String.ofList (digits.reverse.dropWhile (· = '0')).reverse

/-- The fraction of the second in as few groups of three digits as show it exactly. -/
def groupedFractionText (t : DateTime) : String :=
  if t.nanosecond = 0 then ""
  else if t.nanosecond % 1000000 = 0 then "." ++ Text.paddedDecimal 3 (t.nanosecond / 1000000)
  else if t.nanosecond % 1000 = 0 then "." ++ Text.paddedDecimal 6 (t.nanosecond / 1000)
  else "." ++ Text.paddedDecimal 9 t.nanosecond

/-- The form that property lists use. -/
def text (t : DateTime) : String :=
  t.toSecondText ++ t.fractionText ++ "Z"

/-- The form for the times of files. -/
def plainText (t : DateTime) : String :=
  t.toSecondText ++ t.groupedFractionText

end DateTime

/-! ## Reading -/

/-- Exactly `width` digits. -/
def takeDigits? (width : Nat) (cs : List Char) : Option (Nat × List Char) :=
  if (cs.take width).length = width then
    (Text.natural? (cs.take width)).map fun n => (n, cs.drop width)
  else none

/-- The given character. -/
def takeChar? (c : Char) : List Char → Option (List Char)
  | d :: cs => if d = c then some cs else none
  | [] => none

/-- The nanoseconds in an optional fraction; digits behind the ninth are cut off. -/
def takeFraction? (cs : List Char) : Option (Nat × List Char) :=
  match cs with
  | '.' :: cs =>
    let digits := cs.takeWhile fun c => (Text.digitValue? c).isSome
    (Text.natural? ((digits ++ List.replicate 9 '0').take 9)).bind fun n =>
      if digits.isEmpty then none else some (n, cs.drop digits.length)
  | _ => some (0, cs)

/-- The offset from UTC in minutes: `Z`, or a sign, hours and minutes. -/
def takeOffset? (cs : List Char) : Option (Int × List Char) := do
  match cs with
  | 'Z' :: cs | 'z' :: cs => return (0, cs)
  | sign :: cs =>
    if sign ≠ '+' ∧ sign ≠ '-' then none
    let (hours, cs) ← takeDigits? 2 cs
    let cs ← takeChar? ':' cs
    let (minutes, cs) ← takeDigits? 2 cs
    if 23 < hours ∨ 59 < minutes then none
    let offset : Int := hours * 60 + minutes
    return (if sign = '-' then -offset else offset, cs)
  | [] => none

/-- Whether a point in time is in the years from -9999 to 9999. -/
def isPointInTime (nanoseconds : Int) : Bool :=
  -377705116800 * nanosPerSecond ≤ nanoseconds && nanoseconds < 253402300800 * nanosPerSecond

/-- Whether a date and time exist. -/
def DateTime.exists (t : DateTime) : Bool :=
  1 ≤ t.month && t.month ≤ 12 && 1 ≤ t.day && t.day ≤ daysInMonth t.year t.month &&
    t.hour ≤ 23 && t.minute ≤ 59 && t.second ≤ 59

/-- Any one ASCII character. -/
def takeSeparator? : List Char → Option (List Char)
  | c :: cs => if c.toNat < 128 then some cs else none
  | [] => none

/-- Reads a date, any one separator, a time and an offset. A sixtieth second is taken only
as the last one of a month in UTC, and then stands for the nanosecond before it. -/
def ofText? (s : String) : Option Int := do
  let (year, cs) ← takeDigits? 4 s.toList
  let cs ← takeChar? '-' cs
  let (month, cs) ← takeDigits? 2 cs
  let cs ← takeChar? '-' cs
  let (day, cs) ← takeDigits? 2 cs
  let cs ← takeSeparator? cs
  let (hour, cs) ← takeDigits? 2 cs
  let cs ← takeChar? ':' cs
  let (minute, cs) ← takeDigits? 2 cs
  let cs ← takeChar? ':' cs
  let (second, cs) ← takeDigits? 2 cs
  let (nanosecond, cs) ← takeFraction? cs
  let (offset, cs) ← takeOffset? cs
  let isLeap := second = 60
  let clock : DateTime :=
    if isLeap then { year, month, day, hour, minute, second := 59, nanosecond := 999999999 }
    else { year, month, day, hour, minute, second, nanosecond }
  if !cs.isEmpty || !clock.exists then none
  let point := clock.toNanoseconds - offset * (60 * nanosPerSecond)
  let utc := DateTime.ofNanoseconds point
  if isLeap ∧ ¬(utc.hour = 23 ∧ utc.minute = 59 ∧ utc.second = 59 ∧
      utc.day = daysInMonth utc.year utc.month) then none
  if isPointInTime point then return point else none

end Tether.Time
