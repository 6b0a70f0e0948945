/-!
# Whole numbers in text

Devices like to send numbers as decimal text. A number is read strictly: an optional
sign, then ASCII digits and nothing else, at least one of them, and the value has to be
in the range asked for. A minus sign is no part of an unsigned number, not even of zero.
-/

namespace Tether.Text

/-- The value of an ASCII digit. -/
def digitValue? (c : Char) : Option Nat :=
  if '0' ≤ c ∧ c ≤ '9' then some (c.toNat - '0'.toNat) else none

/-- The value of an ASCII hexadecimal digit. -/
def hexValue? (c : Char) : Option Nat :=
  if '0' ≤ c ∧ c ≤ '9' then some (c.toNat - '0'.toNat)
  else if 'a' ≤ c ∧ c ≤ 'f' then some (c.toNat - 'a'.toNat + 10)
  else if 'A' ≤ c ∧ c ≤ 'F' then some (c.toNat - 'A'.toNat + 10)
  else none

/-- The value of a run of digits of the given base, if there is at least one digit and
nothing but digits. -/
def digits? (base : Nat) (value? : Char → Option Nat) (cs : List Char) : Option Nat :=
  if cs.isEmpty then none
  else cs.foldl (fun n c => n.bind fun n => (value? c).map fun d => base * n + d) (some 0)

/-- The value of a run of decimal digits. -/
def natural? (cs : List Char) : Option Nat :=
  digits? 10 digitValue? cs

/-- Reads an unsigned number below `bound`. -/
def unsigned? (bound : Nat) (s : String) : Option Nat :=
  (match s.toList with
    | '+' :: cs => natural? cs
    | cs => natural? cs).filter (· < bound)

/-- Reads a signed number from `-bound` up to and excluding `bound`. -/
def signed? (bound : Nat) (s : String) : Option Int :=
  match s.toList with
  | '-' :: cs => ((natural? cs).filter (· ≤ bound)).map fun n => -(n : Int)
  | '+' :: cs => ((natural? cs).filter (· < bound)).map fun n => (n : Int)
  | cs => ((natural? cs).filter (· < bound)).map fun n => (n : Int)

/-- One hexadecimal digit, upper case on request. -/
def hexDigit (upper : Bool) (n : Nat) : Char :=
  if n < 10 then Char.ofNat ('0'.toNat + n)
  else Char.ofNat ((if upper then 'A' else 'a').toNat + (n - 10))

/-- A number as hexadecimal digits, exactly `width` of them. -/
def hexDigits (upper : Bool) (width n : Nat) : List Char :=
  match width with
  | 0 => []
  | width + 1 => hexDigits upper width (n / 16) ++ [hexDigit upper (n % 16)]

/-- A number as decimal digits, zeros put in front up to `width`. -/
def paddedDecimal (width n : Nat) : String :=
  let digits := toString n
  String.ofList (List.replicate (width - digits.length) '0') ++ digits

end Tether.Text
