import Tether.Pairing.Pem
import Tether.Proofs.Text

/-!
# Sections that were written

A section is read from the lines that were written for it, whatever its label and whatever its
content. Base 64 is read eight digits at a time and written for three bytes at a time, so two groups
are a block, and the last block holds six bytes at most. The lines of digits have no dash in them:
none of them is taken for the end of the section.

* `decodeDigits_encode`: base 64 of any length;
* `lines_flatMap`, `findIn_append`: the lines of a section;
* `find_encode`, `certificate_encode`: whole sections.
-/

namespace Tether.Pem

open Text.Base64 (value? value?_digit decodeThree length_encode forall_mem_encode digit)

/-! ### Digits -/

/-- The byte of a digit or of padding. -/
def digitByte (c : Char) : UInt8 :=
  UInt8.ofNat c.toNat

theorem digit?_digitByte (bs : Bytes) :
    ∀ c ∈ Text.Base64.encode bs, digit? (digitByte c) = .ok (value? c) :=
  forall_mem_encode (by decide) (by decide) bs

theorem mapM_digit? {cs : List Char} (h : ∀ c ∈ cs, digit? (digitByte c) = .ok (value? c)) :
    (cs.map digitByte).mapM digit? = .ok (cs.map value?) := by
  induction cs with
  | nil => rfl
  | cons c cs ih =>
    rw [List.map_cons, List.mapM_cons, h c List.mem_cons_self,
      ih fun d hd => h d (List.mem_cons_of_mem _ hd)]
    rfl

theorem decodeThree_encode (a b c : UInt8) :
    decodeThree (a.toNat / 4) (a.toNat % 4 * 16 + b.toNat / 16) (b.toNat % 16 * 4 + c.toNat / 64)
      (c.toNat % 64) = [a, b, c] := by
  have := a.toNat_lt
  have := b.toNat_lt
  have := c.toNat_lt
  rw [decodeThree,
      show a.toNat / 4 * 4 + (a.toNat % 4 * 16 + b.toNat / 16) / 16 = a.toNat by omega,
      show (a.toNat % 4 * 16 + b.toNat / 16) % 16 * 16 + (b.toNat % 16 * 4 + c.toNat / 64) / 4 =
        b.toNat by omega,
      show (b.toNat % 16 * 4 + c.toNat / 64) % 4 * 64 + c.toNat % 64 = c.toNat by omega]
  simp

theorem value?_padding : value? '=' = none := by
  decide

/-- The six bits of each of the digits of three bytes. -/
def values (a b c : UInt8) : List (Option Nat) :=
  [some (a.toNat / 4), some (a.toNat % 4 * 16 + b.toNat / 16),
    some (b.toNat % 16 * 4 + c.toNat / 64), some (c.toNat % 64)]

theorem groupBytes_values (a b c : UInt8) : groupBytes (values a b c) = [a, b, c] :=
  decodeThree_encode a b c

theorem map_value?_encode (a b c : UInt8) (rest : Bytes) :
    (Text.Base64.encode (a :: b :: c :: rest)).map value? =
      values a b c ++ (Text.Base64.encode rest).map value? := by
  have := a.toNat_lt
  have := b.toNat_lt
  have := c.toNat_lt
  rw [Text.Base64.encode]
  simp only [List.map_cons, value?_digit (show a.toNat / 4 < 64 by omega),
    value?_digit (show a.toNat % 4 * 16 + b.toNat / 16 < 64 by omega),
    value?_digit (show b.toNat % 16 * 4 + c.toNat / 64 < 64 by omega),
    value?_digit (show c.toNat % 64 < 64 by omega), values, List.cons_append, List.nil_append]

/-! ### Blocks -/

/-- The last group holds three bytes at most. -/
theorem lastGroup_encode {bs : Bytes} (h : bs.length ≤ 3) :
    lastGroup ((Text.Base64.encode bs).map value?) = .ok bs := by
  rcases bs with _ | ⟨a, _ | ⟨b, _ | ⟨c, _ | ⟨d, rest⟩⟩⟩⟩
  · rfl
  · have := a.toNat_lt
    have hthree : decodeThree (a.toNat / 4) (a.toNat % 4 * 16) 0 0 = [a, 0, 0] :=
      decodeThree_encode a 0 0
    simp only [Text.Base64.encode, List.map_cons, List.map_nil,
      value?_digit (show a.toNat / 4 < 64 by omega),
      value?_digit (show a.toNat % 4 * 16 < 64 by omega), value?_padding, lastGroup, groupBytes,
      Option.getD_some, Option.getD_none, List.getD_cons_zero, List.getD_cons_succ, hthree,
      List.take_succ_cons, List.take_zero]
  · have := a.toNat_lt
    have := b.toNat_lt
    have hthree : decodeThree (a.toNat / 4) (a.toNat % 4 * 16 + b.toNat / 16) (b.toNat % 16 * 4) 0 =
        [a, b, 0] :=
      decodeThree_encode a b 0
    simp only [Text.Base64.encode, List.map_cons, List.map_nil,
      value?_digit (show a.toNat / 4 < 64 by omega),
      value?_digit (show a.toNat % 4 * 16 + b.toNat / 16 < 64 by omega),
      value?_digit (show b.toNat % 16 * 4 < 64 by omega), value?_padding, lastGroup, groupBytes,
      Option.getD_some, Option.getD_none, List.getD_cons_zero, List.getD_cons_succ, hthree,
      List.take_succ_cons, List.take_zero]
  · rw [map_value?_encode]
    exact congrArg Except.ok (groupBytes_values a b c)
  · simp only [List.length_cons] at h
    omega

theorem exists_three {bs : Bytes} (h : 3 ≤ bs.length) :
    ∃ a b c rest, bs = a :: b :: c :: rest := by
  rcases bs with _ | ⟨a, _ | ⟨b, _ | ⟨c, rest⟩⟩⟩
  · simp at h
  · simp at h
  · simp at h
  · exact ⟨a, b, c, rest, rfl⟩

theorem lastBlock_encode {bs : Bytes} (h : bs.length ≤ 6) :
    lastBlock ((Text.Base64.encode bs).map value?) = .ok bs := by
  by_cases hthree : bs.length ≤ 3
  · rw [lastBlock, if_pos, lastGroup_encode hthree]
    rw [List.length_map, length_encode]
    omega
  · -- The first group is full, and the second one holds what is left.
    obtain ⟨a, b, c, rest, rfl⟩ := exists_three (Nat.le_of_not_le hthree)
    have hrest : 0 < rest.length ∧ rest.length ≤ 3 := by
      simp only [List.length_cons] at h hthree
      omega
    have hlength : (values a b c ++ (Text.Base64.encode rest).map value?).length = 8 := by
      rw [List.length_append, List.length_map, length_encode,
        show (values a b c).length = 4 from rfl]
      omega
    rw [map_value?_encode, lastBlock, if_neg (by omega), if_neg (by simp [values])]
    calc (lastGroup ((Text.Base64.encode rest).map value?)).map (groupBytes (values a b c) ++ ·)
        = .ok (groupBytes (values a b c) ++ rest) := by rw [lastGroup_encode hrest.2, Except.map]
      _ = .ok (a :: b :: c :: rest) := by rw [groupBytes_values]; rfl

theorem decodeDigits_of_length_le {l : Bytes} {block : List (Option Nat)} (h : l.length ≤ 8)
    (hblock : l.mapM digit? = .ok block) : decodeDigits l = lastBlock block := by
  rw [decodeDigits, List.take_of_length_le h, hblock]
  dsimp only [bind, Except.bind]
  split
  · rfl
  · next heq =>
    rw [List.drop_of_length_le h] at heq
    contradiction

theorem decodeDigits_of_drop {l rest : Bytes} {b : UInt8} {block : List (Option Nat)}
    {d : Option Nat} (hdrop : l.drop 8 = b :: rest) (hblock : (l.take 8).mapM digit? = .ok block)
    (hnone : none ∉ block) (hb : digit? b = .ok d) :
    decodeDigits l = (decodeDigits (b :: rest)).map fun more =>
      groupBytes (block.take 4) ++ groupBytes (block.drop 4) ++ more := by
  have hcontains : block.contains none = false := by simpa using hnone
  rw [decodeDigits, hblock]
  dsimp only [bind, Except.bind]
  split
  · next heq =>
    rw [hdrop] at heq
    contradiction
  · next b' rest' heq =>
    rw [hdrop] at heq
    cases heq
    rw [hb, hcontains]
    cases decodeDigits (b :: rest) <;> rfl

/-- What was written is read, whatever its length. -/
theorem decodeDigits_encode (bs : Bytes) :
    decodeDigits ((Text.Base64.encode bs).map digitByte) = .ok bs := by
  induction hn : bs.length using Nat.strongRecOn generalizing bs with
  | ind n ih =>
    have hread := digit?_digitByte bs
    by_cases hshort : bs.length ≤ 6
    · rw [decodeDigits_of_length_le _ (mapM_digit? hread), lastBlock_encode hshort]
      rw [List.length_map, length_encode]
      omega
    · -- Two groups are a block, and there is a digit behind them.
      have hthree : 3 ≤ bs.length := by omega
      obtain ⟨a, b, c, more, rfl⟩ := exists_three hthree
      have hmore : 3 ≤ more.length := by
        simp only [List.length_cons] at hshort
        omega
      obtain ⟨d, e, f, rest, rfl⟩ := exists_three hmore
      have hlength : 0 < (Text.Base64.encode rest).length := by
        simp only [List.length_cons] at hshort
        rw [length_encode]
        omega
      obtain ⟨p, ps, hps⟩ := List.exists_cons_of_length_pos hlength
      have hdrop :
          ((Text.Base64.encode (a :: b :: c :: d :: e :: f :: rest)).map digitByte).drop 8 =
            digitByte p :: ps.map digitByte := by
        rw [Text.Base64.encode, Text.Base64.encode, hps]
        rfl
      have hblock :
          (((Text.Base64.encode (a :: b :: c :: d :: e :: f :: rest)).map digitByte).take 8).mapM
            digit? = .ok (values a b c ++ values d e f) := by
        rw [← List.map_take, mapM_digit? fun c hc => hread c (List.mem_of_mem_take hc),
          List.map_take, map_value?_encode, map_value?_encode]
        rfl
      rw [decodeDigits_of_drop hdrop hblock (by simp [values])
        (digit?_digitByte rest p (hps ▸ List.mem_cons_self)), ← List.map_cons, ← hps,
        ih rest.length (by simp only [List.length_cons] at hn; omega) rest rfl]
      exact congrArg Except.ok (by
        rw [show (values a b c ++ values d e f).take 4 = values a b c from rfl,
          show (values a b c ++ values d e f).drop 4 = values d e f from rfl, groupBytes_values,
          groupBytes_values]
        rfl)

/-! ### Lines -/

theorem ofString_encode (bs : Bytes) :
    ∀ line ∈ pieces 64 (Text.Base64.encode bs),
      Bytes.ofString (String.ofList line) = line.map digitByte := by
  intro line hline
  refine Bytes.ofString_ofList_of_lt fun c hc => ?_
  refine forall_mem_encode (P := fun c => c.toNat < 128) (by decide) (by decide) bs c ?_
  rw [← flatten_pieces 64 (Text.Base64.encode bs)]
  exact List.mem_flatten_of_mem hline hc

theorem lines_lineFeed (rest : Bytes) : lines (0x0A :: rest) = [] :: lines rest :=
  rfl

theorem lines_cons_of_ne {b : UInt8} {bs line : Bytes} {more : List Bytes}
    (hb : b ≠ 0x0A ∧ b ≠ 0x0D) (hbs : bs ≠ []) (h : lines bs = line :: more) :
    lines (b :: bs) = (b :: line) :: more := by
  obtain ⟨c, cs, rfl⟩ := List.exists_cons_of_ne_nil hbs
  rw [lines.eq_def]
  dsimp only
  rw [if_neg (by tauto), h]

/-- A line goes up to its line feed. -/
theorem lines_append {line : Bytes} (h : ∀ b ∈ line, b ≠ 0x0A ∧ b ≠ 0x0D) (rest : Bytes) :
    lines (line ++ 0x0A :: rest) = line :: lines rest := by
  induction line with
  | nil => exact lines_lineFeed rest
  | cons b line ih =>
    exact lines_cons_of_ne (h b List.mem_cons_self) (by simp)
      (ih fun d hd => h d (List.mem_cons_of_mem _ hd))

/-- The lines of digits of a section. -/
def digitLines (bs : Bytes) : List Bytes :=
  (pieces 64 (Text.Base64.encode bs)).map fun line => line.map digitByte

theorem flatten_digitLines (bs : Bytes) :
    (digitLines bs).flatten = (Text.Base64.encode bs).map digitByte := by
  rw [digitLines, ← List.map_flatten, flatten_pieces]

theorem forall_mem_digitLines {P : UInt8 → Prop} (hdigit : ∀ n : Fin 64, P (digitByte (digit n)))
    (hpadding : P (digitByte '=')) (bs : Bytes) : ∀ line ∈ digitLines bs, ∀ b ∈ line, P b := by
  intro line hline b hb
  have hmem : b ∈ (Text.Base64.encode bs).map digitByte := by
    rw [← flatten_digitLines]
    exact List.mem_flatten_of_mem hline hb
  obtain ⟨c, hc, rfl⟩ := List.mem_map.1 hmem
  exact forall_mem_encode (P := fun c => P (digitByte c)) hdigit hpadding bs c hc

theorem lines_flatMap {ls : List Bytes} (h : ∀ line ∈ ls, ∀ b ∈ line, b ≠ 0x0A ∧ b ≠ 0x0D)
    (rest : Bytes) : lines (ls.flatMap (· ++ [0x0A]) ++ rest) = ls ++ lines rest := by
  induction ls with
  | nil => rfl
  | cons line ls ih =>
    rw [List.flatMap_cons, List.append_assoc, List.append_assoc, List.singleton_append,
      lines_append (h line List.mem_cons_self), ih fun l hl => h l (List.mem_cons_of_mem _ hl)]
    rfl

/-! ### Sections -/

/-- The first line of a section. -/
def firstLine (label : Label) : Bytes :=
  beginMark ++ Bytes.ofString label.text ++ Bytes.ofString "-----"

/-- The last line of a section. -/
def lastLine (label : Label) : Bytes :=
  endMark (Bytes.ofString label.text)

theorem encode_eq (label : Label) (bs : Bytes) :
    encode label bs = firstLine label ++ 0x0A ::
      ((digitLines bs).flatMap (· ++ [0x0A]) ++ (lastLine label ++ [0x0A])) := by
  have hlines : (pieces 64 (Text.Base64.encode bs)).flatMap
      (fun line => Bytes.ofString (String.ofList line) ++ Bytes.ofString "\n") =
        (digitLines bs).flatMap (· ++ [0x0A]) := by
    rw [digitLines, List.flatMap_map]
    exact List.flatMap_congr fun line hline => by rw [ofString_encode bs line hline]; rfl
  have hend : Bytes.ofString "-----\n" = Bytes.ofString "-----" ++ [0x0A] := rfl
  simp only [encode, firstLine, lastLine, beginMark, endMark, hend, Bytes.ofString_append,
    Bytes.ofString_join, List.flatMap_map, hlines, List.append_assoc, List.cons_append,
    List.nil_append]

/-- A line without dashes is no mark. -/
theorem isPrefixOf_eq_false {mark line : Bytes} (hmark : mark.head? = some 0x2D)
    (hline : ∀ b ∈ line, b ≠ 0x2D) : mark.isPrefixOf line = false := by
  rw [Bool.eq_false_iff, ne_eq, List.isPrefixOf_iff_prefix]
  rintro ⟨rest, rfl⟩
  exact hline 0x2D (List.mem_append_left _ (List.mem_of_mem_head? hmark)) rfl

/-- Lines without dashes are collected. -/
theorem findIn_append (wanted : Label → Bool) (name digits : Bytes) {ls : List Bytes}
    (h : ∀ line ∈ ls, ∀ b ∈ line, b ≠ 0x2D) (rest : List Bytes) :
    findIn wanted (some name) digits (ls ++ rest) =
      findIn wanted (some name) (digits ++ ls.flatten) rest := by
  induction ls generalizing digits with
  | nil => rw [List.nil_append, List.flatten_nil, List.append_nil]
  | cons line ls ih =>
    have hline := h line List.mem_cons_self
    rw [List.cons_append, findIn, isPrefixOf_eq_false rfl hline, isPrefixOf_eq_false rfl hline]
    simp only [Bool.false_eq_true, if_false]
    rw [ih _ fun l hl => h l (List.mem_cons_of_mem _ hl), List.flatten_cons, List.append_assoc]

theorem decode_digitLines (bs : Bytes) : decode (digitLines bs).flatten = .ok bs := by
  have hblank : ∀ line ∈ digitLines bs, ∀ b ∈ line, (!isBlank b) = true :=
    forall_mem_digitLines (by decide) (by decide) bs
  rw [decode, List.filter_eq_self.2, flatten_digitLines, decodeDigits_encode]
  intro b hb
  obtain ⟨line, hline, hmem⟩ := List.mem_flatten.1 hb
  exact hblank line hline b hmem

theorem lines_encode (label : Label) (bs : Bytes) :
    lines (encode label bs) = firstLine label :: (digitLines bs ++ [lastLine label]) := by
  have hfirst : (firstLine label).all (fun b => b ≠ 0x0A ∧ b ≠ 0x0D) = true := by
    cases label <;> decide +kernel
  have hlast : (lastLine label).all (fun b => b ≠ 0x0A ∧ b ≠ 0x0D) = true := by
    cases label <;> decide +kernel
  simp only [List.all_eq_true, decide_eq_true_eq] at hfirst hlast
  have hdigits : ∀ line ∈ digitLines bs, ∀ b ∈ line, b ≠ 0x0A ∧ b ≠ 0x0D :=
    forall_mem_digitLines (by decide) (by decide) bs
  rw [encode_eq, lines_append hfirst, lines_flatMap hdigits, lines_append hlast]
  rfl

/-- The first line says what section it is. -/
theorem findIn_firstLine (wanted : Label → Bool) (label : Label) (rest : List Bytes) :
    findIn wanted none [] (firstLine label :: rest) =
      findIn wanted (some (Bytes.ofString label.text)) [] rest := by
  have hbegins : beginMark.isPrefixOf (firstLine label) = true := by
    cases label <;> decide
  have hlabel : sectionLabel? (firstLine label) = .ok (Bytes.ofString label.text) := by
    cases label <;> decide
  rw [findIn, hbegins, hlabel]
  rfl

/-- With the last line a section is complete. -/
theorem findIn_lastLine {wanted : Label → Bool} {label : Label} (h : wanted label = true)
    (bs : Bytes) (rest : List Bytes) :
    findIn wanted (some (Bytes.ofString label.text)) (digitLines bs).flatten
      (lastLine label :: rest) = .ok (label, bs) := by
  have hbegins : beginMark.isPrefixOf (lastLine label) = false := by
    cases label <;> decide
  have hends : (endMark (Bytes.ofString label.text)).isPrefixOf (lastLine label) = true :=
    List.isPrefixOf_iff_prefix.2 (List.prefix_refl _)
  have hlabel : Label.ofBytes? (Bytes.ofString label.text) = some label := by
    cases label <;> rfl
  rw [findIn, hbegins]
  simp only [Bool.false_eq_true, if_false, hends, if_true, hlabel, decode_digitLines, h]

/-- A section that was written is read again. -/
theorem find_encode {wanted : Label → Bool} {label : Label} (h : wanted label = true) (bs : Bytes) :
    find wanted (encode label bs) = .ok (label, bs) := by
  have hdash : ∀ line ∈ digitLines bs, ∀ b ∈ line, b ≠ 0x2D :=
    forall_mem_digitLines (by decide) (by decide) bs
  rw [find, lines_encode, findIn_firstLine, findIn_append wanted _ _ hdash, List.nil_append,
    findIn_lastLine h]

theorem certificate_encode (bs : Bytes) : certificate (encode .certificate bs) = .ok bs := by
  rw [certificate, find_encode (by decide)]
  rfl

end Tether.Pem
