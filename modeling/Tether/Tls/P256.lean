import Tether.Bytes

/-!
# The elliptic curve P-256

Private keys of hosts are numbers, and the public key of a number is that multiple of the
curve's base point. `publicPoint?` computes it, for comparing it with a certificate, and
`writtenForms` are the ways in which a key may state it.
-/

namespace Tether.Tls.P256

/-- The prime of the field. -/
def fieldPrime : Nat := 2 ^ 256 - 2 ^ 224 + 2 ^ 192 + 2 ^ 96 - 1

/-- The number of points. -/
def order : Nat := 0xFFFFFFFF00000000FFFFFFFFFFFFFFFFBCE6FAADA7179E84F3B9CAC2FC632551

/-- A power in the field, bit by bit from the lowest; `fuel` bounds the bits. -/
def powerMod (fuel base exponent : Nat) : Nat :=
  match fuel with
  | 0 => 1
  | fuel + 1 =>
    if exponent = 0 then 1
    else
      let rest := powerMod fuel (base * base % fieldPrime) (exponent / 2)
      if exponent % 2 = 1 then rest * base % fieldPrime else rest

/-- The inverse of a number other than zero in the field. -/
def inverse (n : Nat) : Nat :=
  powerMod 256 n (fieldPrime - 2)

/-- A difference in the field. -/
def minus (a b : Nat) : Nat :=
  (a + (fieldPrime - b % fieldPrime)) % fieldPrime

/-- A point, or nothing for the point at infinity. -/
abbrev Point := Option (Nat × Nat)

/-- The sum of two points. -/
def add : Point → Point → Point
  | none, q => q
  | p, none => p
  | some (x, y), some (u, v) =>
    if x = u ∧ (y + v) % fieldPrime = 0 then none
    else
      let slope :=
        if x = u then (3 * x * x + (fieldPrime - 3)) % fieldPrime * inverse (2 * y % fieldPrime)
        else minus v y * inverse (minus u x)
      let s := slope % fieldPrime
      let w := minus (s * s) (x + u)
      some (w, minus (s * minus x w) y)

/-- A multiple of a point, bit by bit from the lowest; `fuel` bounds the bits. -/
def multiple (fuel n : Nat) (p : Point) : Point :=
  match fuel with
  | 0 => none
  | fuel + 1 =>
    if n = 0 then none
    else
      let rest := multiple fuel (n / 2) (add p p)
      if n % 2 = 1 then add p rest else rest

/-- The base point. -/
def base : Point :=
  some (0x6B17D1F2E12C4247F8BCE6E563A440F277037D812DEB33A0F4A13945D898C296,
    0x4FE342E2FE1A7F9B8EE7EB4A7C0F9E162BCE33576B315ECECBB6406837BF51F5)

/-- The coefficients of the curve. -/
def coefficientA : Nat := fieldPrime - 3
def coefficientB : Nat := 0x5AC635D8AA3A93E7B3EBBD55769886BC651D06B0CC53B0F63BCE3C3E27D2604B

/-- The public key of a private one, which must be less than the number of points. -/
def publicPoint? (secret : Nat) : Option (Nat × Nat) :=
  if 0 < secret ∧ secret < order then multiple 256 secret base else none

/-- The usual written form of a point: both coordinates behind a mark. -/
def uncompressed (point : Nat × Nat) : Bytes :=
  4 :: (Bytes.ofNatBE 32 point.1 ++ Bytes.ofNatBE 32 point.2)

/-- The written forms of a point. The second one leaves out a coordinate and the third one
repeats, and both tell by their mark whether that coordinate is odd. -/
def writtenForms (point : Nat × Nat) : List Bytes :=
  let (x, y) := point
  let parity := UInt8.ofNat (y % 2)
  [uncompressed point, (2 + parity) :: Bytes.ofNatBE 32 x,
    (6 + parity) :: (Bytes.ofNatBE 32 x ++ Bytes.ofNatBE 32 y)]

end Tether.Tls.P256
