/-!
# Text in units of sixteen bits

A character above the first 65536 takes two units, a high and a low surrogate. Surrogates
that do not pair up make no text.

* `ofUnits?_units`: a text reads back from its own units.
-/

namespace Tether.Text

/-- The units of a character. -/
def unitsOfChar (c : Char) : List Nat :=
  if c.toNat < 0x10000 then [c.toNat]
  else [0xD800 + (c.toNat - 0x10000) / 0x400, 0xDC00 + (c.toNat - 0x10000) % 0x400]

/-- The units of a text. -/
def units (s : String) : List Nat :=
  s.toList.flatMap unitsOfChar

/-- The characters of a row of units. -/
def ofUnits? : List Nat → Option (List Char)
  | [] => some []
  | u :: us =>
    if u < 0xD800 ∨ 0xDFFF < u then (ofUnits? us).map (Char.ofNat u :: ·)
    else if u < 0xDC00 then
      match us with
      | v :: us =>
        if 0xDC00 ≤ v ∧ v ≤ 0xDFFF then
          (ofUnits? us).map (Char.ofNat (0x10000 + (u - 0xD800) * 0x400 + (v - 0xDC00)) :: ·)
        else none
      | [] => none
    else none

theorem ofUnits?_units (s : String) : ofUnits? (units s) = some s.toList := by
  unfold units
  induction s.toList with
  | nil => rfl
  | cons c cs ih =>
    have hc : c.toNat.isValidChar := c.valid
    have hof : Char.ofNat c.toNat = c := Char.ofNat_toNat c
    simp only [Nat.isValidChar] at hc
    simp only [List.flatMap_cons, unitsOfChar]
    split
    · simp only [List.cons_append, List.nil_append]
      unfold ofUnits?
      rw [if_pos (by omega), ih, hof]
      rfl
    · simp only [List.cons_append, List.nil_append]
      unfold ofUnits?
      rw [if_neg (by omega), if_pos (by omega)]
      simp only
      rw [if_pos (by omega), ih,
        show 0x10000 + (0xD800 + (c.toNat - 0x10000) / 0x400 - 0xD800) * 0x400 +
          (0xDC00 + (c.toNat - 0x10000) % 0x400 - 0xDC00) = c.toNat by omega, hof]
      rfl

end Tether.Text
