import Tether.Bytes

/-!
# Base 64

Bytes as text: three bytes become four digits of six bits each, and a shorter last group
is filled up with padding. `decode?` is strict: it takes whole groups only, with the
padding and with zeros in the bits that carry no data, so each byte string has one
written form.

* `decode?_encode`: what was written reads back.
-/

namespace Tether.Text.Base64

/-- The character for six bits. -/
def digit (n : Nat) : Char :=
  if n < 26 then Char.ofNat ('A'.toNat + n)
  else if n < 52 then Char.ofNat ('a'.toNat + (n - 26))
  else if n < 62 then Char.ofNat ('0'.toNat + (n - 52))
  else if n = 62 then '+'
  else '/'

/-- The six bits a character stands for. -/
def value? (c : Char) : Option Nat :=
  if 'A' ≤ c ∧ c ≤ 'Z' then some (c.toNat - 'A'.toNat)
  else if 'a' ≤ c ∧ c ≤ 'z' then some (c.toNat - 'a'.toNat + 26)
  else if '0' ≤ c ∧ c ≤ '9' then some (c.toNat - '0'.toNat + 52)
  else if c = '+' then some 62
  else if c = '/' then some 63
  else none

theorem value?_digit {n : Nat} (h : n < 64) : value? (digit n) = some n := by
  have : ∀ n : Fin 64, value? (digit n) = some n.val := by decide
  exact this ⟨n, h⟩

theorem digit_ne_padding {n : Nat} (h : n < 64) : digit n ≠ '=' := by
  have : ∀ n : Fin 64, digit n ≠ '=' := by decide
  exact this ⟨n, h⟩

/-- The written form of a byte string. -/
def encode : Bytes → List Char
  | [] => []
  | [a] => [digit (a.toNat / 4), digit (a.toNat % 4 * 16), '=', '=']
  | [a, b] =>
    [digit (a.toNat / 4), digit (a.toNat % 4 * 16 + b.toNat / 16), digit (b.toNat % 16 * 4), '=']
  | a :: b :: c :: rest =>
    digit (a.toNat / 4) :: digit (a.toNat % 4 * 16 + b.toNat / 16) ::
      digit (b.toNat % 16 * 4 + c.toNat / 64) :: digit (c.toNat % 64) :: encode rest

/-- The byte in a last group of two digits. -/
def decodeOne (p q : Nat) : Option Bytes :=
  if q % 16 = 0 then some [UInt8.ofNat (p * 4 + q / 16)] else none

/-- The bytes in a last group of three digits. -/
def decodeTwo (p q r : Nat) : Option Bytes :=
  if r % 4 = 0 then
    some [UInt8.ofNat (p * 4 + q / 16), UInt8.ofNat (q % 16 * 16 + r / 4)]
  else none

/-- The bytes in a full group. -/
def decodeThree (p q r s : Nat) : Bytes :=
  [UInt8.ofNat (p * 4 + q / 16), UInt8.ofNat (q % 16 * 16 + r / 4), UInt8.ofNat (r % 4 * 64 + s)]

/-- Reads the written form. -/
def decode? : List Char → Option Bytes
  | [] => some []
  | a :: b :: c :: d :: rest => do
    let p ← value? a
    let q ← value? b
    if c = '=' ∧ d = '=' ∧ rest = [] then decodeOne p q
    else do
      let r ← value? c
      if d = '=' ∧ rest = [] then decodeTwo p q r
      else do
        let s ← value? d
        return decodeThree p q r s ++ (← decode? rest)
  | _ => none

theorem decode?_encode (bs : Bytes) : decode? (encode bs) = some bs := by
  fun_induction encode bs with
  | case1 => rfl
  | case2 a =>
    have := a.toNat_lt
    simp only [decode?, value?_digit (show a.toNat / 4 < 64 by omega),
      value?_digit (show a.toNat % 4 * 16 < 64 by omega), decodeOne, Option.bind_eq_bind,
      Option.bind_some, and_self, if_true]
    rw [if_pos (by omega), show a.toNat / 4 * 4 + a.toNat % 4 * 16 / 16 = a.toNat by omega]
    simp
  | case3 a b =>
    have := a.toNat_lt
    have := b.toNat_lt
    have hc : digit (b.toNat % 16 * 4) ≠ '=' := digit_ne_padding (by omega)
    simp only [decode?, value?_digit (show a.toNat / 4 < 64 by omega),
      value?_digit (show a.toNat % 4 * 16 + b.toNat / 16 < 64 by omega),
      value?_digit (show b.toNat % 16 * 4 < 64 by omega), decodeTwo, Option.bind_eq_bind,
      Option.bind_some, hc, false_and, if_false, and_self, if_true]
    rw [if_pos (by omega),
      show a.toNat / 4 * 4 + (a.toNat % 4 * 16 + b.toNat / 16) / 16 = a.toNat by omega,
      show (a.toNat % 4 * 16 + b.toNat / 16) % 16 * 16 + b.toNat % 16 * 4 / 4 = b.toNat by omega]
    simp
  | case4 a b c rest ih =>
    have := a.toNat_lt
    have := b.toNat_lt
    have := c.toNat_lt
    have hc : digit (b.toNat % 16 * 4 + c.toNat / 64) ≠ '=' := digit_ne_padding (by omega)
    have hd : digit (c.toNat % 64) ≠ '=' := digit_ne_padding (by omega)
    simp only [decode?, value?_digit (show a.toNat / 4 < 64 by omega),
      value?_digit (show a.toNat % 4 * 16 + b.toNat / 16 < 64 by omega),
      value?_digit (show b.toNat % 16 * 4 + c.toNat / 64 < 64 by omega),
      value?_digit (show c.toNat % 64 < 64 by omega), decodeThree, Option.bind_eq_bind,
      Option.bind_some, hc, hd, false_and, if_false, ih]
    rw [show a.toNat / 4 * 4 + (a.toNat % 4 * 16 + b.toNat / 16) / 16 = a.toNat by omega,
      show (a.toNat % 4 * 16 + b.toNat / 16) % 16 * 16 + (b.toNat % 16 * 4 + c.toNat / 64) / 4 =
        b.toNat by omega,
      show (b.toNat % 16 * 4 + c.toNat / 64) % 4 * 64 + c.toNat % 64 = c.toNat by omega]
    simp

end Tether.Text.Base64
