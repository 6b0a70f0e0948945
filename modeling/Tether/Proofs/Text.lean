import Mathlib
import Tether.Text.Base64
import Tether.Text.Integer
import Tether.Text.Utf8

/-!
# Text and its bytes

A zero byte stands for the character zero and for nothing else, so text without that character
can be told apart from what follows it by a zero byte. A byte below `0x80` stands for the character
with its number wherever it is, and no piece of a text's bytes is broken.

* `zero_notMem_ofString`, `zero_mem_ofString`: which text has a zero byte;
* `ofString_of_toString?`: text that was read has the bytes that it was read from;
* `wholePrefix_ofString`: a text's bytes are whole;
* `natural?_toDigits`, `signed?_of_natural`, `unsigned?_of_natural`: numbers are read from their
  digits;
* `Base64.forall_mem_encode`: the characters of base 64.
-/

namespace Tether.Bytes

/-- Only the character zero has a zero byte. -/
theorem zero_notMem_utf8EncodeChar {c : Char} (h : c ≠ '\x00') :
    0 ∉ String.utf8EncodeChar c := by
  have hval : c.val.toNat ≠ 0 := by
    intro hc
    exact h (Char.val_inj.1 (UInt32.toNat_inj.1 hc))
  have hbyte (n : Nat) : (0 : UInt8) = UInt8.ofNat n ↔ n % 256 = 0 := by
    rw [← UInt8.toNat_inj, UInt8.toNat_ofNat']
    exact eq_comm
  simp only [String.utf8EncodeChar]
  split
  · simp only [List.mem_singleton, hbyte]
    omega
  · split
    · simp only [List.mem_cons, List.not_mem_nil, or_false, hbyte]
      omega
    · split
      · simp only [List.mem_cons, List.not_mem_nil, or_false, hbyte]
        omega
      · simp only [List.mem_cons, List.not_mem_nil, or_false, hbyte]
        omega

/-- A byte below `0x80` is that of the character with its number. -/
theorem toNat_of_mem_utf8EncodeChar {c : Char} {b : UInt8} (hb : b.toNat < 128)
    (h : b ∈ String.utf8EncodeChar c) : c.toNat = b.toNat := by
  have hbyte (n : Nat) : b = UInt8.ofNat n ↔ b.toNat = n % 256 := by
    rw [← UInt8.toNat_inj, UInt8.toNat_ofNat']
  rw [show c.toNat = c.val.toNat from rfl]
  simp only [String.utf8EncodeChar] at h
  split at h
  · rw [List.mem_singleton, hbyte] at h
    omega
  · split at h
    · simp only [List.mem_cons, List.not_mem_nil, or_false, hbyte] at h
      omega
    · split at h
      · simp only [List.mem_cons, List.not_mem_nil, or_false, hbyte] at h
        omega
      · simp only [List.mem_cons, List.not_mem_nil, or_false, hbyte] at h
        omega

/-- The bytes of a text are those of its characters. -/
theorem ofString_eq_flatMap (s : String) : ofString s = s.toList.flatMap String.utf8EncodeChar := by
  rw [ofString, ← String.ofList_toList (s := s), String.toByteArray_ofList]
  simp [List.utf8Encode]

theorem zero_notMem_ofString {s : String} (h : '\x00' ∉ s.toList) : 0 ∉ ofString s := by
  rw [ofString_eq_flatMap, List.mem_flatMap]
  rintro ⟨c, hc, hzero⟩
  exact zero_notMem_utf8EncodeChar (ne_of_mem_of_not_mem hc h) hzero

/-- Text that was read from bytes has these bytes. -/
theorem ofString_of_toString? {bs : Bytes} {s : String} (h : toString? bs = some s) :
    ofString s = bs := by
  rw [toString?, String.fromUTF8?] at h
  split at h
  · rw [Option.some.injEq] at h
    subst h
    rfl
  · contradiction

theorem ofString_append (s t : String) : ofString (s ++ t) = ofString s ++ ofString t := by
  simp [ofString]

theorem ofString_join (l : List String) : ofString (String.join l) = l.flatMap ofString := by
  induction l with
  | nil => rfl
  | cons s l ih => rw [String.join_cons, ofString_append, ih, List.flatMap_cons]

/-- Plain text has one byte for each character. -/
theorem ofString_ofList_of_lt {cs : List Char} (h : ∀ c ∈ cs, c.toNat < 128) :
    ofString (String.ofList cs) = cs.map fun c => UInt8.ofNat c.toNat := by
  rw [ofString_eq_flatMap, String.toList_ofList]
  induction cs with
  | nil => rfl
  | cons c cs ih =>
    have hc : c.val.toNat ≤ 127 := Nat.le_of_lt_succ (h c List.mem_cons_self)
    rw [List.flatMap_cons, ih fun d hd => h d (List.mem_cons_of_mem _ hd), List.map_cons,
      String.utf8EncodeChar, if_pos hc]
    rfl

/-- The character zero is written as a zero byte. -/
theorem zero_mem_ofString {s : String} (h : '\x00' ∈ s.toList) : 0 ∈ ofString s := by
  rw [ofString_eq_flatMap, List.mem_flatMap]
  exact ⟨'\x00', h, by decide⟩

/-- Only the empty text has no bytes. -/
theorem isEmpty_ofString (s : String) : (ofString s).isEmpty = decide (s = "") := by
  rw [Bool.eq_iff_iff, List.isEmpty_iff, decide_eq_true_eq]
  refine ⟨fun h => ?_, fun h => h ▸ rfl⟩
  rw [← Text.lossy_ofString s, h]
  rfl

end Tether.Bytes

namespace Tether.Text

/-! ### Whole pieces -/

theorem isContinuation_ofNat (n : Nat) : isContinuation (UInt8.ofNat (n % 64 + 128)) = true := by
  simp only [isContinuation, Bool.and_eq_true, decide_eq_true_eq, UInt8.le_iff_toNat_le,
    UInt8.toNat_ofNat', UInt8.reduceToNat]
  omega

/-- The second byte of a character of three bytes is in the range for the first one. -/
theorem secondRange_three {n : Nat} (hlow : 2047 < n) (hhigh : n ≤ 65535) (hvalid : n.isValidChar) :
    (secondRange (UInt8.ofNat (n / 4096 % 16 + 224))).1 ≤ UInt8.ofNat (n / 64 % 64 + 128) ∧
      UInt8.ofNat (n / 64 % 64 + 128) ≤ (secondRange (UInt8.ofNat (n / 4096 % 16 + 224))).2 := by
  simp only [secondRange, ← UInt8.toNat_inj, UInt8.le_iff_toNat_le, Nat.isValidChar] at hvalid ⊢
  split_ifs <;> simp only [UInt8.toNat_ofNat', UInt8.reduceToNat] at * <;> omega

/-- So is that of a character of four bytes. -/
theorem secondRange_four {n : Nat} (hlow : 65535 < n) (hvalid : n.isValidChar) :
    (secondRange (UInt8.ofNat (n / 262144 % 8 + 240))).1 ≤ UInt8.ofNat (n / 4096 % 64 + 128) ∧
      UInt8.ofNat (n / 4096 % 64 + 128) ≤ (secondRange (UInt8.ofNat (n / 262144 % 8 + 240))).2 := by
  simp only [secondRange, ← UInt8.toNat_inj, UInt8.le_iff_toNat_le, Nat.isValidChar] at hvalid ⊢
  split_ifs <;> simp only [UInt8.toNat_ofNat', UInt8.reduceToNat] at * <;> omega

/-- The bytes of a character are no broken piece. -/
theorem nextChar_encode (c : Char) (rest : Bytes) :
    ∃ b more, String.utf8EncodeChar c = b :: more ∧
      (nextChar b (more ++ rest)).1.isSome ∧ (nextChar b (more ++ rest)).2 = more.length := by
  have hvalid : c.val.toNat.isValidChar := c.valid
  have hlt : c.val.toNat < 1114112 := by
    simp only [Nat.isValidChar] at hvalid
    omega
  simp only [String.utf8EncodeChar]
  generalize c.val.toNat = n at hvalid hlt ⊢
  have hbelow (b : UInt8) (m : Nat) : UInt8.ofNat m < b ↔ m % 256 < b.toNat := by
    rw [UInt8.lt_iff_toNat_lt, UInt8.toNat_ofNat']
  split
  · refine ⟨_, _, rfl, ?_⟩
    simp only [nextChar, hbelow, UInt8.reduceToNat]
    rw [if_pos (by omega)]
    exact ⟨rfl, rfl⟩
  split
  · refine ⟨_, _, rfl, ?_⟩
    simp only [nextChar, hbelow, UInt8.reduceToNat]
    rw [if_neg (by omega), if_neg (by omega), if_pos (by omega)]
    simp only [List.cons_append, isContinuation_ofNat, if_true]
    exact ⟨rfl, rfl⟩
  split
  · obtain ⟨hleast, hmost⟩ := secondRange_three (n := n) (by omega) (by omega) hvalid
    refine ⟨_, _, rfl, ?_⟩
    simp only [nextChar, hbelow, UInt8.reduceToNat]
    rw [if_neg (by omega), if_neg (by omega), if_neg (by omega), if_pos (by omega)]
    simp only [List.cons_append, isContinuation_ofNat, hleast, hmost, decide_true, Bool.and_self,
      if_true]
    exact ⟨rfl, rfl⟩
  · obtain ⟨hleast, hmost⟩ := secondRange_four (n := n) (by omega) hvalid
    refine ⟨_, _, rfl, ?_⟩
    simp only [nextChar, hbelow, UInt8.reduceToNat]
    rw [if_neg (by omega), if_neg (by omega), if_neg (by omega), if_neg (by omega),
      if_pos (by omega)]
    simp only [List.cons_append, isContinuation_ofNat, hleast, hmost, decide_true, Bool.and_self,
      if_true]
    exact ⟨rfl, rfl⟩

/-- Text has no broken piece. -/
theorem wholeLength_flatMap (cs : List Char) (done : Nat) :
    wholeLength done (cs.flatMap String.utf8EncodeChar) =
      done + (cs.flatMap String.utf8EncodeChar).length := by
  induction cs generalizing done with
  | nil => simp [wholeLength]
  | cons c cs ih =>
    obtain ⟨b, more, hc, hsome, hlength⟩ := nextChar_encode c (cs.flatMap String.utf8EncodeChar)
    obtain ⟨d, hd⟩ := Option.isSome_iff_exists.1 hsome
    have hnext : nextChar b (more ++ cs.flatMap String.utf8EncodeChar) = (some d, more.length) :=
      Prod.ext hd hlength
    rw [List.flatMap_cons, hc, List.cons_append, wholeLength, hnext]
    dsimp only
    rw [List.drop_left, ih, List.length_cons, List.length_append]
    omega

theorem wholePrefix_ofString (s : String) : wholePrefix (Bytes.ofString s) = Bytes.ofString s := by
  rw [wholePrefix, Bytes.ofString_eq_flatMap, wholeLength_flatMap, Nat.zero_add, List.take_length]

theorem le_wholeLength (done : Nat) (bs : Bytes) : done ≤ wholeLength done bs := by
  fun_induction wholeLength done bs with
  | case1 => exact Nat.le_refl _
  | case2 done b rest c more hnext ih => omega
  | case3 => exact Nat.le_refl _

/-- A character of one byte is whole. -/
theorem wholePrefix_of_lt {b : UInt8} (hb : b.toNat < 128) (bs : Bytes) :
    ∃ whole, wholePrefix (b :: bs) = b :: whole := by
  have hnext : nextChar b bs = (some (Char.ofNat b.toNat), 0) := by
    have hlt : b < 0x80 := UInt8.lt_iff_toNat_lt.2 hb
    simp only [nextChar, hlt, if_true]
  have hpos : 1 ≤ wholeLength 0 (b :: bs) := by
    rw [wholeLength, hnext]
    exact le_wholeLength _ _
  obtain ⟨n, hn⟩ := Nat.exists_eq_add_of_le' hpos
  exact ⟨bs.take n, by rw [wholePrefix, hn, List.take_succ_cons]⟩

/-! ### Decimal numbers -/

theorem digitValue?_of_isDigit {c : Char} (h : c.isDigit = true) :
    digitValue? c = some (c.toNat - '0'.toNat) := by
  rw [Char.isDigit, Bool.and_eq_true, decide_eq_true_eq, decide_eq_true_eq] at h
  exact if_pos h

/-- A number is read from its digits. -/
theorem natural?_toDigits (n : Nat) : natural? (Nat.toDigits 10 n) = some n := by
  have hfold (cs : List Char) (hcs : ∀ c ∈ cs, c.isDigit = true) (init : Nat) :
      cs.foldl (fun n c => n.bind fun n => (digitValue? c).map fun d => 10 * n + d) (some init) =
        some (Nat.ofDigitChars 10 cs init) := by
    induction cs generalizing init with
    | nil => rfl
    | cons c cs ih =>
      rw [List.foldl_cons, Option.bind_some, digitValue?_of_isDigit (hcs c List.mem_cons_self),
        Option.map_some, ih fun d hd => hcs d (List.mem_cons_of_mem _ hd)]
      rfl
  have hne : (Nat.toDigits 10 n).isEmpty = false := by
    simp
  rw [natural?, digits?, hne, if_neg (by decide),
    hfold _ fun c hc => Nat.isDigit_of_mem_toDigits (by decide) (by decide) hc,
    Nat.ofDigitChars_toDigits (by decide) (by decide)]

theorem notMem_toDigits {c : Char} (h : c.isDigit = false) (n : Nat) : c ∉ Nat.toDigits 10 n := by
  intro hc
  rw [Nat.isDigit_of_mem_toDigits (by decide) (by decide) hc] at h
  contradiction

/-- So is a signed number, unless it is too great. -/
theorem signed?_of_natural {bound : Nat} {s : String} {n : Nat} (h : s.toList = Nat.toDigits 10 n) :
    signed? bound s = if n < bound then some (n : Int) else none := by
  rw [signed?, h]
  split
  · next cs heq => exact absurd (heq ▸ List.mem_cons_self) (notMem_toDigits (c := '-') rfl n)
  · next cs heq => exact absurd (heq ▸ List.mem_cons_self) (notMem_toDigits (c := '+') rfl n)
  · rw [natural?_toDigits, Option.filter_some]
    split_ifs <;> simp_all

theorem signed?_neg {bound : Nat} {s : String} {n : Nat} (h : s.toList = '-' :: Nat.toDigits 10 n)
    (hn : n ≤ bound) : signed? bound s = some (-(n : Int)) := by
  rw [signed?, h]
  split
  · next cs heq =>
    obtain rfl : Nat.toDigits 10 n = cs := by simpa using heq
    rw [natural?_toDigits, Option.filter_some, if_pos (by simpa using hn)]
    rfl
  · next cs heq => simp at heq
  · next hminus _ => exact absurd rfl (hminus _)

theorem unsigned?_of_natural {bound : Nat} {s : String} {n : Nat} (h : s.toList = Nat.toDigits 10 n)
    (hn : n < bound) : unsigned? bound s = some n := by
  rw [unsigned?, h]
  split
  · next cs heq => exact absurd (heq ▸ List.mem_cons_self) (notMem_toDigits (c := '+') rfl n)
  · rw [natural?_toDigits, Option.filter_some, if_pos (by simpa using hn)]

theorem toList_toString (v : Int) :
    (toString v).toList =
      if 0 ≤ v then Nat.toDigits 10 v.toNat else '-' :: Nat.toDigits 10 (-v).toNat := by
  split_ifs with h <;> simp [Int.repr_eq_if, h]

/-- A whole number is written with digits, and a minus sign if it has one. -/
theorem forall_mem_toString (v : Int) : ∀ c ∈ (toString v).toList, c.isDigit = true ∨ c = '-' := by
  intro c hc
  rw [toList_toString] at hc
  split_ifs at hc with h
  · exact .inl (Nat.isDigit_of_mem_toDigits (by decide) (by decide) hc)
  · rw [List.mem_cons] at hc
    exact hc.symm.imp_left (Nat.isDigit_of_mem_toDigits (by decide) (by decide))

end Tether.Text

namespace Tether.Text.Base64

/-! ### The characters of base 64 -/

/-- What is true of the digits and of padding is true of all that is written. -/
theorem forall_mem_encode {P : Char → Prop} (hdigit : ∀ n : Fin 64, P (digit n)) (hpadding : P '=')
    (bs : Bytes) : ∀ c ∈ encode bs, P c := by
  have hdigit {n : Nat} (h : n < 64) : P (digit n) := hdigit ⟨n, h⟩
  fun_induction encode bs with
  | case1 => simp
  | case2 a =>
    have := a.toNat_lt
    simp only [List.forall_mem_cons]
    exact ⟨hdigit (by omega), hdigit (by omega), hpadding, hpadding, List.forall_mem_nil _⟩
  | case3 a b =>
    have := a.toNat_lt
    have := b.toNat_lt
    simp only [List.forall_mem_cons]
    exact ⟨hdigit (by omega), hdigit (by omega), hdigit (by omega), hpadding, List.forall_mem_nil _⟩
  | case4 a b c rest ih =>
    have := a.toNat_lt
    have := b.toNat_lt
    have := c.toNat_lt
    simp only [List.forall_mem_cons]
    exact ⟨hdigit (by omega), hdigit (by omega), hdigit (by omega), hdigit (by omega), ih⟩

theorem length_encode (bs : Bytes) : (encode bs).length = 4 * ((bs.length + 2) / 3) := by
  fun_induction encode bs with
  | case1 => rfl
  | case2 => simp
  | case3 => simp
  | case4 a b c rest ih =>
    simp only [List.length_cons, ih]
    omega

end Tether.Text.Base64
