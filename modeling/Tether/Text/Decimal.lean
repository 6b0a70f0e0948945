import Tether.Text.Double
import Tether.Text.Integer

/-!
# Double precision numbers in decimal

A number is written with the fewest decimal digits that read back as the same number, and
of the shortest such texts the nearest one (`Double.shortest`). The digits are found on
the grids of one, two, … seventeen digits: the first grid that has a point among the
reals which round to the number decides, and of its two points next to the number the
nearer one is taken. The text never uses an exponent.

`Double.ofText?` reads the usual forms, with exponents too, and rounds correctly.
-/

namespace Tether.Double

/-- How many digits a number has in base ten. -/
def decimalLength (n : Nat) : Nat :=
  (toString n).length

/-- The exponent of the first power of ten above a positive fraction. -/
def decimalMagnitude (num den : Nat) : Int :=
  if den ≤ num then decimalLength (num / den)
  else 1 - (decimalLength ((den - 1) / num) : Int)

/-- The reals that round to `mantissa * 2 ^ exponent`, as a range of fractions over one
denominator with the number itself in the middle. -/
structure RoundingRange where
  low : Nat
  value : Nat
  high : Nat
  den : Nat
  /-- Whether the ends belong to the range. -/
  closed : Bool

/-- The range of a positive finite number. Below a power of two the gap is half as wide. -/
def roundingRange (mantissa : Nat) (exponent : Int) : RoundingRange :=
  let scale := 2 ^ exponent.toNat
  let narrow := mantissa = 2 ^ 52 ∧ -1074 < exponent
  { low := (if narrow then 4 * mantissa - 1 else 4 * mantissa - 2) * scale
    value := 4 * mantissa * scale
    high := (4 * mantissa + 2) * scale
    den := 4 * 2 ^ (-exponent).toNat
    closed := mantissa % 2 = 0 }

/-- Whether the decimal number `digits * 10 ^ power` is in the range. -/
def RoundingRange.contains (r : RoundingRange) (digits : Nat) (power : Int) : Bool :=
  let num := digits * 10 ^ power.toNat * r.den
  let unit := 10 ^ (-power).toNat
  if r.closed then r.low * unit ≤ num ∧ num ≤ r.high * unit
  else r.low * unit < num ∧ num < r.high * unit

/-- The point of a decimal grid that is in the range and nearest to the number, if one of
the number's two neighbours on the grid is; a tie goes up. -/
def RoundingRange.onGrid? (r : RoundingRange) (power : Int) : Option Nat :=
  let num := r.value * 10 ^ (-power).toNat
  let den := r.den * 10 ^ power.toNat
  let below := num / den
  match r.contains below power, r.contains (below + 1) power with
  | true, true => if 2 * (num % den) < den then some below else some (below + 1)
  | true, false => some below
  | false, true => some (below + 1)
  | false, false => none

/-- Drops the zeros at the end of a decimal number `digits * 10 ^ power`. -/
def dropZeros (digits : Nat) (power : Int) : Nat × Int :=
  if digits = 0 then (0, 0)
  else if digits % 10 = 0 then dropZeros (digits / 10) (power + 1)
  else (digits, power)
termination_by digits
decreasing_by omega

/-- The shortest decimal number `digits * 10 ^ power` that reads back as the positive
number `mantissa * 2 ^ exponent`. -/
def shortest (mantissa : Nat) (exponent : Int) : Nat × Int :=
  let range := roundingRange mantissa exponent
  let top := decimalMagnitude range.value range.den
  let found := (List.range 17).findSome? fun n =>
    let power := top - (n + 1 : Nat)
    (range.onGrid? power).map fun digits => dropZeros digits power
  found.getD (0, 0)

/-- A decimal number `digits * 10 ^ power` written without an exponent. -/
def positional (digits : Nat) (power : Int) : String :=
  let text := toString digits
  if 0 ≤ power then text ++ String.ofList (List.replicate power.toNat '0')
  else
    let places := (-power).toNat
    let padded := (Text.paddedDecimal (places + 1) digits).toList
    let whole := padded.take (padded.length - places)
    let fractional := padded.drop (padded.length - places)
    String.ofList (whole ++ '.' :: fractional)

/-- The text of a number. -/
def text (d : Double) : String :=
  let sign (negative : Bool) : String := if negative then "-" else ""
  match d.decode with
  | .nan => "NaN"
  | .infinite negative => sign negative ++ "inf"
  | .finite negative 0 _ => sign negative ++ "0"
  | .finite negative mantissa exponent =>
    let (digits, power) := shortest mantissa exponent
    sign negative ++ positional digits power

/-! ## Reading -/

/-- The number nearest to `digits * 10 ^ power`. Powers far out of range are cut off
first: the result is infinite or zero there anyway. -/
def ofDecimal (negative : Bool) (digits : Nat) (power : Int) : Double :=
  if digits = 0 then nearest negative 0 1
  else
    let magnitude := power + (decimalLength digits : Int)
    if 400 < magnitude then infinity negative
    else if magnitude < -400 then nearest negative 0 1
    else nearest negative (digits * 10 ^ power.toNat) (10 ^ (-power).toNat)

/-- The exponent that stands behind the digits: nothing, or an `e` and a whole number. -/
def exponent? : List Char → Option Int
  | [] => some 0
  | c :: cs =>
    if c = 'e' ∨ c = 'E' then
      match cs with
      | '-' :: cs => (Text.natural? cs).map fun n => -(n : Int)
      | '+' :: cs => (Text.natural? cs).map fun n => (n : Int)
      | cs => (Text.natural? cs).map fun n => (n : Int)
    else none

/-- Reads a number without its sign: digits with or without a point, then an exponent. -/
def ofDigits? (negative : Bool) (cs : List Char) : Option Double :=
  let isDigit (c : Char) : Bool := (Text.digitValue? c).isSome
  let whole := cs.takeWhile isDigit
  let rest := cs.dropWhile isDigit
  let (fractional, rest) :=
    match rest with
    | '.' :: rest => (rest.takeWhile isDigit, rest.dropWhile isDigit)
    | _ => ([], rest)
  (Text.natural? (whole ++ fractional)).bind fun digits =>
    (exponent? rest).map fun power => ofDecimal negative digits (power - fractional.length)

/-- Reads a number: an optional sign, then digits or the name of a special value. -/
def ofText? (s : String) : Option Double :=
  let (negative, cs) :=
    match s.toList with
    | '-' :: cs => (true, cs)
    | '+' :: cs => (false, cs)
    | cs => (false, cs)
  let word := String.ofList (cs.map Char.toLower)
  if word = "inf" ∨ word = "infinity" then some (infinity negative)
  else if word = "nan" then some (notANumber negative)
  else ofDigits? negative cs

end Tether.Double
