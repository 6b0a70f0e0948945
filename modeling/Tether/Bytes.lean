/-!
# Bytes

Everything the library exchanges with a device is a string of bytes. This module
fixes the representation (a list, so that proofs can follow it by induction), how
numbers of a given width are laid out in it, how text is, and how a long string is
cut into pieces of bounded size.

* `toNatLE_ofNatLE`, `toNatBE_ofNatBE`: a number that fits its width reads back;
* `toString?_ofString`: text reads back from its own bytes;
* `flatten_pieces`: cutting into pieces loses nothing.
-/

-- A power of numbers is the core library's, also where another library has powers of its own.
attribute [instance (20000), default_instance 20000] instPowNat

namespace Tether

/-- A string of bytes. -/
abbrev Bytes := List UInt8

/-- Cuts a list into pieces of `size` elements, the last one possibly shorter. A size of
zero counts as one. -/
def pieces {α : Type} (size : Nat) : List α → List (List α)
  | [] => []
  | x :: xs => (x :: xs.take (size - 1)) :: pieces size (xs.drop (size - 1))
termination_by xs => xs.length
decreasing_by simp only [List.length_drop, List.length_cons]; omega

theorem flatten_pieces {α : Type} (size : Nat) (xs : List α) : (pieces size xs).flatten = xs := by
  fun_induction pieces size xs with
  | case1 => rfl
  | case2 x xs ih => simp [ih]

theorem length_le_of_mem_pieces {α : Type} {size : Nat} (h : 0 < size) {xs p : List α}
    (hp : p ∈ pieces size xs) : p.length ≤ size := by
  fun_induction pieces size xs with
  | case1 => simp at hp
  | case2 x xs ih =>
    rcases List.mem_cons.1 hp with rfl | hp
    · simp only [List.length_cons, List.length_take]
      omega
    · exact ih hp

namespace Bytes

/-- The `width` low bytes of a number, least significant first. -/
def ofNatLE : Nat → Nat → Bytes
  | 0, _ => []
  | width + 1, n => UInt8.ofNat n :: ofNatLE width (n / 256)

/-- The `width` low bytes of a number, most significant first. -/
def ofNatBE (width n : Nat) : Bytes :=
  (ofNatLE width n).reverse

/-- The number whose bytes these are, least significant first. -/
def toNatLE : Bytes → Nat
  | [] => 0
  | b :: bs => b.toNat + 256 * toNatLE bs

/-- The number whose bytes these are, most significant first. -/
def toNatBE (bs : Bytes) : Nat :=
  bs.foldl (fun n b => 256 * n + b.toNat) 0

/-- The UTF-8 bytes of a text. -/
def ofString (s : String) : Bytes :=
  s.toByteArray.data.toList

/-- The text whose UTF-8 bytes these are, if they are valid UTF-8. -/
def toString? (bs : Bytes) : Option String :=
  String.fromUTF8? ⟨bs.toArray⟩

@[simp] theorem length_ofNatLE (width n : Nat) : (ofNatLE width n).length = width := by
  induction width generalizing n with
  | zero => rfl
  | succ w ih => simp [ofNatLE, ih]

@[simp] theorem length_ofNatBE (width n : Nat) : (ofNatBE width n).length = width := by
  simp [ofNatBE]

theorem toNatLE_ofNatLE (width n : Nat) : toNatLE (ofNatLE width n) = n % 256 ^ width := by
  induction width generalizing n with
  | zero => simp [ofNatLE, toNatLE, Nat.mod_one]
  | succ w ih =>
    rw [ofNatLE, toNatLE, ih, Nat.pow_succ, Nat.mul_comm (256 ^ w) 256, Nat.mod_mul]
    simp

theorem toNatLE_lt (bs : Bytes) : toNatLE bs < 256 ^ bs.length := by
  induction bs with
  | nil => simp [toNatLE]
  | cons b bs ih =>
    have hb := b.toNat_lt
    rw [toNatLE, List.length_cons, Nat.pow_succ]
    omega

/-- Bytes are those of the number that they are the bytes of. -/
theorem ofNatLE_toNatLE (bs : Bytes) : ofNatLE bs.length (toNatLE bs) = bs := by
  induction bs with
  | nil => rfl
  | cons b bs ih =>
    have hb := b.toNat_lt
    have hlow : UInt8.ofNat (b.toNat + 256 * toNatLE bs) = b := by
      apply UInt8.toNat_inj.1
      simp only [UInt8.toNat_ofNat']
      omega
    have hhigh : (b.toNat + 256 * toNatLE bs) / 256 = toNatLE bs := by omega
    rw [List.length_cons, toNatLE, ofNatLE, hlow, hhigh, ih]

theorem toNatBE_append_singleton (bs : Bytes) (b : UInt8) :
    toNatBE (bs ++ [b]) = 256 * toNatBE bs + b.toNat := by
  simp [toNatBE]

theorem toNatBE_reverse (bs : Bytes) : toNatBE bs.reverse = toNatLE bs := by
  induction bs with
  | nil => rfl
  | cons b bs ih =>
    rw [List.reverse_cons, toNatBE_append_singleton, ih, toNatLE, Nat.add_comm]

theorem toNatBE_ofNatBE (width n : Nat) : toNatBE (ofNatBE width n) = n % 256 ^ width := by
  rw [ofNatBE, toNatBE_reverse, toNatLE_ofNatLE]

theorem ofNatBE_toNatBE (bs : Bytes) : ofNatBE bs.length (toNatBE bs) = bs := by
  have h := ofNatLE_toNatLE bs.reverse
  rw [List.length_reverse, ← toNatBE_reverse, List.reverse_reverse] at h
  rw [ofNatBE, h, List.reverse_reverse]

theorem toString?_ofString (s : String) : toString? (ofString s) = some s := by
  have h : (⟨(ofString s).toArray⟩ : ByteArray) = s.toByteArray := by
    simp [ofString]
  rw [toString?, h, String.fromUTF8?, dif_pos s.isValidUTF8]
  rfl

end Bytes

end Tether
