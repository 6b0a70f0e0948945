import Tether.Bytes

/-!
# Double precision numbers

A number is kept as the 64 bits of its IEEE 754 form, so that every value, each NaN and
both zeros included, is exactly what was received. `Double.decode` splits the bits into
sign, exponent and mantissa; `Double.same` is the comparison of numbers, for which a NaN
differs from itself and the zeros are one. `Double.nearest` is the way back from a
fraction: the number next to it, and of two equally near the one with an even mantissa.
-/

namespace Tether

/-- A double precision number, by its bits. -/
structure Double where
  bits : UInt64
  deriving DecidableEq, Repr, Inhabited

namespace Double

/-- The kinds of value that 64 bits can hold. A finite one is `mantissa * 2 ^ exponent`. -/
inductive Parts where
  | finite (negative : Bool) (mantissa : Nat) (exponent : Int)
  | infinite (negative : Bool)
  | nan
  deriving DecidableEq, Repr

/-- The sign bit. -/
def negative (d : Double) : Bool :=
  d.bits.toNat / 2 ^ 63 == 1

/-- The eleven bits of the exponent. -/
def exponentField (d : Double) : Nat :=
  d.bits.toNat / 2 ^ 52 % 2 ^ 11

/-- The fifty-two bits of the mantissa. -/
def mantissaField (d : Double) : Nat :=
  d.bits.toNat % 2 ^ 52

/-- What the bits stand for. -/
def decode (d : Double) : Parts :=
  if d.exponentField = 2047 then
    if d.mantissaField = 0 then .infinite d.negative else .nan
  else if d.exponentField = 0 then .finite d.negative d.mantissaField (-1074)
  else .finite d.negative (2 ^ 52 + d.mantissaField) ((d.exponentField : Int) - 1075)

/-- Whether two numbers are equal as numbers. -/
def same (a b : Double) : Bool :=
  match a.decode, b.decode with
  | .nan, _ => false
  | _, .nan => false
  | .finite _ 0 _, .finite _ 0 _ => true
  | _, _ => a.bits == b.bits

/-- The sign bit on its own. -/
def signBit (negative : Bool) : Nat :=
  if negative then 2 ^ 63 else 0

/-- Infinity. -/
def infinity (negative : Bool) : Double :=
  ⟨UInt64.ofNat (signBit negative + 2047 * 2 ^ 52)⟩

/-- The usual NaN. -/
def notANumber (negative : Bool) : Double :=
  ⟨UInt64.ofNat (signBit negative + 4095 * 2 ^ 51)⟩

/-- A quotient rounded to the nearest whole number, a half to the even neighbour. -/
def roundDiv (num den : Nat) : Nat :=
  let twice := 2 * (num % den)
  if twice < den ∨ (twice = den ∧ num / den % 2 = 0) then num / den else num / den + 1

/-- The exponent of the highest power of two in a positive fraction. -/
def binaryMagnitude (num den : Nat) : Int :=
  let guess : Int := (num.log2 : Int) - den.log2
  if num * 2 ^ (-guess).toNat < den * 2 ^ guess.toNat then guess - 1 else guess

/-- The number nearest to a fraction. The mantissa may round up to the next power of two;
its carry then goes into the exponent, as it should. -/
def nearest (negative : Bool) (num den : Nat) : Double :=
  if num = 0 then ⟨UInt64.ofNat (signBit negative)⟩
  else
    let exponent := max (-1074) (binaryMagnitude num den - 52)
    let mantissa := roundDiv (num * 2 ^ (-exponent).toNat) (den * 2 ^ exponent.toNat)
    let magnitude := (exponent + 1074).toNat * 2 ^ 52 + mantissa
    if magnitude < 2047 * 2 ^ 52 then ⟨UInt64.ofNat (signBit negative + magnitude)⟩
    else infinity negative

/-- A finite number as a fraction: sign, numerator, denominator. -/
def fraction? (d : Double) : Option (Bool × Nat × Nat) :=
  match d.decode with
  | .finite negative mantissa exponent =>
    some (negative, mantissa * 2 ^ exponent.toNat, 2 ^ (-exponent).toNat)
  | _ => none

/-- The number a single precision one (by its bits) stands for. -/
def ofSingle (bits : UInt32) : Double :=
  let negative := bits.toNat / 2 ^ 31 == 1
  let exponent := bits.toNat / 2 ^ 23 % 2 ^ 8
  let mantissa := bits.toNat % 2 ^ 23
  if exponent = 255 then
    if mantissa = 0 then infinity negative
    else
      let payload := mantissa % 2 ^ 22
      ⟨UInt64.ofNat (signBit negative + 4095 * 2 ^ 51 + payload * 2 ^ 29)⟩
  else if exponent = 0 then nearest negative mantissa (2 ^ 149)
  else nearest negative ((2 ^ 23 + mantissa) * 2 ^ exponent) (2 ^ 150)

end Double

end Tether
