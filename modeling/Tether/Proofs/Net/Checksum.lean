import Tether.Net.Segment
import Tether.Proofs.Net.Wrapping

/-!
# Checksums

A checksum makes the one's complement sum of what it covers come out as all ones. Such a sum is a
residue modulo 65535 with one ambiguity, as zero and all ones are the same residue; only a sum of
nothing but zeros is zero, so all ones say that there is something and that 65535 divides its sum
(`foldCarries_eq_ones_iff`). A byte stands in its word with a weight of 1 or 256, so changing one
byte moves the sum by less than 65535 (`wordSum_alter`): such a change never goes unnoticed.

Sums are kept in 32 bits. `checkedSum?` is the sum that gives up where an addition would leave
them, with the carries added back in one by one; on what goes into a packet it never gives up, and
it is `onesComplementSum` (`sumsIn32Bits_of_length_le`).

* `Segment.checksumValid_iff`: when a segment verifies;
* `Segment.checksumValid_altered`: a segment that verifies does not when one byte is changed;
* `checksums_guard`: segments and version 4 headers that are written.
-/

namespace Tether.Net

variable {bs bs' : Bytes}

/-! ## Changing a byte -/

/-- The same bytes but for one. -/
inductive Altered : Bytes → Bytes → Prop where
  | byte (front : Bytes) {a b : UInt8} (behind : Bytes) (h : a ≠ b) :
    Altered (front ++ a :: behind) (front ++ b :: behind)

theorem Altered.length_eq (h : Altered bs bs') : bs'.length = bs.length := by
  cases h with
  | byte front behind h => simp

theorem Altered.append_left (h : Altered bs bs') (t : Bytes) : Altered (t ++ bs) (t ++ bs') := by
  cases h with
  | byte front behind h =>
    rw [← List.append_assoc, ← List.append_assoc]
    exact .byte (t ++ front) behind h

theorem Altered.append_right (h : Altered bs bs') (t : Bytes) : Altered (bs ++ t) (bs' ++ t) := by
  cases h with
  | byte front behind h =>
    rw [List.append_assoc, List.append_assoc, List.cons_append, List.cons_append]
    exact .byte front (behind ++ t) h

/-! ## Sums of words -/

theorem wordSum_append {front : Bytes} (h : front.length % 2 = 0) (back : Bytes) :
    wordSum (front ++ back) = wordSum front + wordSum back := by
  fun_induction wordSum front with
  | case1 a b rest ih =>
    rw [List.length_cons, List.length_cons] at h
    rw [List.cons_append, List.cons_append, wordSum, ih (by omega), ← Nat.add_assoc]
  | case2 a => simp at h
  | case3 => rw [List.nil_append, Nat.zero_add]

theorem wordSum_le (bs : Bytes) : wordSum bs ≤ 65535 * ((bs.length + 1) / 2) := by
  fun_induction wordSum bs with
  | case1 a b rest ih =>
    have ha := a.toNat_lt
    have hb := b.toNat_lt
    rw [List.length_cons, List.length_cons]
    omega
  | case2 a =>
    have ha := a.toNat_lt
    rw [List.length_singleton]
    omega
  | case3 => exact Nat.zero_le _

theorem wordSum_ofNatBE {n : Nat} (h : n < 65536) : wordSum (Bytes.ofNatBE 2 n) = n := by
  have hword : Bytes.ofNatBE 2 n = [UInt8.ofNat (n / 256), UInt8.ofNat n] := rfl
  rw [hword]
  simp only [wordSum, UInt8.toNat_ofNat']
  omega

/-- A number in the place of a word of zeros adds itself to the sum. -/
theorem wordSum_insert {front : Bytes} (h : front.length % 2 = 0) {n : Nat} (hn : n < 65536)
    (behind : Bytes) :
    wordSum (front ++ Bytes.ofNatBE 2 n ++ behind) =
      wordSum (front ++ Bytes.ofNatBE 2 0 ++ behind) + n := by
  have hword (m : Nat) : (front ++ Bytes.ofNatBE 2 m).length % 2 = 0 := by
    rw [List.length_append, Bytes.length_ofNatBE, Nat.add_mod_right, h]
  rw [wordSum_append (hword n), wordSum_append (hword 0), wordSum_append h, wordSum_append h,
    wordSum_ofNatBE hn, wordSum_ofNatBE (by decide)]
  omega

/-- What a byte at some place counts in a sum of words. -/
def weight (place : Nat) : Nat :=
  if place % 2 = 0 then 256 else 1

theorem wordSum_alter (front behind : Bytes) (a b : UInt8) :
    wordSum (front ++ a :: behind) + weight front.length * b.toNat =
      wordSum (front ++ b :: behind) + weight front.length * a.toNat := by
  fun_induction wordSum front with
  | case1 x y rest ih =>
    -- A word in front leaves every place as heavy as it was.
    have hweight : weight (x :: y :: rest).length = weight rest.length := by
      simp only [weight, List.length_cons, Nat.add_assoc, Nat.add_mod_right]
    simp only [List.cons_append, wordSum, hweight]
    omega
  | case2 x =>
    -- The byte is the second one of its word.
    have hweight : weight [x].length = 1 := rfl
    simp only [List.singleton_append, wordSum, hweight]
    omega
  | case3 =>
    -- The byte is the first one of its word, and may be the only one.
    have hweight : weight ([] : Bytes).length = 256 := rfl
    simp only [List.nil_append, hweight]
    cases behind with
    | nil =>
      simp only [wordSum]
      omega
    | cons y behind =>
      simp only [wordSum]
      omega

/-- Bytes that differ in one place do not both complete a sum. -/
theorem Altered.not_dvd (h : Altered bs bs') {m : Nat} (hdvd : 65535 ∣ m + wordSum bs) :
    ¬ 65535 ∣ m + wordSum bs' := by
  cases h with
  | @byte front a b behind hne =>
    have halter := wordSum_alter front behind a b
    have ha := a.toNat_lt
    have hb := b.toNat_lt
    have hne : a.toNat ≠ b.toNat := fun h => hne (UInt8.toNat_inj.1 h)
    have hweight : weight front.length = 256 ∨ weight front.length = 1 := by
      rw [weight]
      split
      · exact .inl rfl
      · exact .inr rfl
    rcases hweight with hweight | hweight
    · rw [hweight] at halter
      omega
    · rw [hweight] at halter
      omega

/-! ## Carries -/

theorem foldCarries_le (n : Nat) : foldCarries n ≤ 65535 := by
  rw [foldCarries]
  split <;> omega

theorem foldCarries_of_le {n : Nat} (h : n ≤ 65535) : foldCarries n = n := by
  rw [foldCarries]
  split <;> omega

theorem foldCarries_add (a b : Nat) : foldCarries (foldCarries a + b) = foldCarries (a + b) := by
  simp only [foldCarries]
  split <;> split <;> split <;> omega

/-- A sum is all ones when there is something to sum up and the sum is a multiple of all ones. -/
theorem foldCarries_eq_ones_iff {n : Nat} : foldCarries n = 65535 ↔ 0 < n ∧ 65535 ∣ n := by
  rw [foldCarries]
  split <;> omega

/-- The complement of a sum completes it. -/
theorem foldCarries_complement (n : Nat) : foldCarries (n + (65535 - foldCarries n)) = 65535 := by
  rw [foldCarries_eq_ones_iff, foldCarries]
  split <;> omega

/-! ## Sums in 32 bits -/

/-- A sum, unless it leaves 32 bits. -/
def add? (a b : Nat) : Option Nat :=
  if a + b < 2 ^ 32 then some (a + b) else none

theorem add?_eq_some_iff {a b c : Nat} : add? a b = some c ↔ a + b < 2 ^ 32 ∧ a + b = c := by
  rw [add?]
  split <;> simp [*]

/-- Adds the words of a byte string one by one. -/
def addWords? (sum : Nat) : Bytes → Option Nat
  | a :: b :: rest => do
    let sum ← add? sum (256 * a.toNat + b.toNat)
    addWords? sum rest
  | [a] => add? sum (256 * a.toNat)
  | [] => some sum

/-- Adds the carries back in until the sum fits a word. -/
def addCarries? (sum : Nat) : Option Nat :=
  if sum / 65536 = 0 then some sum
  else
    match _ : add? (sum % 65536) (sum / 65536) with
    | some sum => addCarries? sum
    | none => none
termination_by sum
decreasing_by
  have hsum := (add?_eq_some_iff.1 ‹_›).2
  omega

/-- Adds the words of a byte string to a sum and folds it. -/
def addPart? (sum : Nat) (part : Bytes) : Option Nat := do
  addCarries? (← addWords? sum part)

/-- The one's complement sum of byte strings, unless an addition leaves 32 bits. -/
def checkedSum? (parts : List Bytes) : Option Nat :=
  parts.foldlM addPart? 0

/-- No addition for the sum of these byte strings leaves 32 bits. -/
def SumsIn32Bits (parts : List Bytes) : Prop :=
  checkedSum? parts = some (onesComplementSum parts)

theorem addWords?_eq {sum : Nat} (h : sum + wordSum bs < 2 ^ 32) :
    addWords? sum bs = some (sum + wordSum bs) := by
  fun_induction addWords? sum bs with
  | case1 sum a b rest ih =>
    rw [wordSum] at h ⊢
    have hadd : add? sum (256 * a.toNat + b.toNat) = some (sum + (256 * a.toNat + b.toNat)) :=
      add?_eq_some_iff.2 ⟨by omega, rfl⟩
    rw [hadd, Option.bind_eq_bind, Option.bind_some, ih _ (by omega), Nat.add_assoc]
  | case2 sum a => exact add?_eq_some_iff.2 ⟨h, rfl⟩
  | case3 sum => rfl

theorem addCarries?_eq {sum : Nat} (h : sum < 2 ^ 32) :
    addCarries? sum = some (foldCarries sum) := by
  fun_induction addCarries? sum with
  | case1 sum hsmall =>
    rw [foldCarries_of_le (by omega)]
  | case2 sum hlarge next hnext ih =>
    obtain ⟨-, rfl⟩ := add?_eq_some_iff.1 hnext
    -- As 65536 is 1 modulo 65535, the residue stays; and what is not zero does not become zero.
    have hfold : foldCarries (sum % 65536 + sum / 65536) = foldCarries sum := by
      rw [foldCarries, foldCarries, if_neg (by omega), if_neg (by omega)]
      omega
    rw [ih (by omega), hfold]
  | case3 sum hlarge hnone =>
    have hsome : add? (sum % 65536) (sum / 65536) = some (sum % 65536 + sum / 65536) :=
      add?_eq_some_iff.2 ⟨by omega, rfl⟩
    rw [hsome] at hnone
    cases hnone

/-- What goes into a packet is too short to leave 32 bits. -/
theorem add_wordSum_lt {sum : Nat} (hsum : sum ≤ 65535) (h : bs.length ≤ 65535) :
    sum + wordSum bs < 2 ^ 32 := by
  have hwords := wordSum_le bs
  omega

theorem foldl_eq_foldCarries {parts : List Bytes} (h : ∀ part ∈ parts, part.length ≤ 65535)
    {sum : Nat} (hsum : sum ≤ 65535) :
    parts.foldl (fun sum part => foldCarries ((sum + wordSum part) % 2 ^ 32)) sum =
      foldCarries (sum + (parts.map wordSum).sum) := by
  induction parts generalizing sum with
  | nil => exact (foldCarries_of_le hsum).symm
  | cons part parts ih =>
    have hlt := add_wordSum_lt hsum (h part List.mem_cons_self)
    rw [List.foldl_cons, Nat.mod_eq_of_lt hlt,
      ih (fun part hpart => h part (List.mem_cons_of_mem _ hpart)) (foldCarries_le _),
      foldCarries_add, List.map_cons, List.sum_cons, Nat.add_assoc]

/-- The carries may as well be folded at the end. -/
theorem onesComplementSum_eq {parts : List Bytes} (h : ∀ part ∈ parts, part.length ≤ 65535) :
    onesComplementSum parts = foldCarries (parts.map wordSum).sum := by
  rw [onesComplementSum, foldl_eq_foldCarries h (Nat.zero_le _), Nat.zero_add]

theorem addPart?_eq {sum : Nat} (hsum : sum ≤ 65535) (h : bs.length ≤ 65535) :
    addPart? sum bs = some (foldCarries ((sum + wordSum bs) % 2 ^ 32)) := by
  have hlt := add_wordSum_lt hsum h
  rw [addPart?, addWords?_eq hlt, Option.bind_eq_bind, Option.bind_some, addCarries?_eq hlt,
    Nat.mod_eq_of_lt hlt]

theorem sumsIn32Bits_of_length_le {parts : List Bytes} (h : ∀ part ∈ parts, part.length ≤ 65535) :
    SumsIn32Bits parts := by
  suffices hsum : ∀ sum ≤ 65535, parts.foldlM addPart? sum =
      some (parts.foldl (fun sum part => foldCarries ((sum + wordSum part) % 2 ^ 32)) sum) from
    hsum 0 (Nat.zero_le _)
  induction parts with
  | nil => exact fun sum _ => rfl
  | cons part parts ih =>
    intro sum hsum
    rw [List.foldlM_cons, addPart?_eq hsum (h part List.mem_cons_self), Option.bind_eq_bind,
      Option.bind_some, List.foldl_cons]
    exact ih (fun part hpart => h part (List.mem_cons_of_mem _ hpart)) _ (foldCarries_le _)

/-- Byte strings sum up to all ones when 65535 divides the sum of their words, which is not zero. -/
theorem onesComplementSum_eq_ones_iff {parts : List Bytes}
    (h : ∀ part ∈ parts, part.length ≤ 65535) :
    onesComplementSum parts = 65535 ↔
      0 < (parts.map wordSum).sum ∧ 65535 ∣ (parts.map wordSum).sum := by
  rw [onesComplementSum_eq h, foldCarries_eq_ones_iff]

/-- The words that a checksum covers, with the checksum among them, are a multiple of all ones. -/
theorem checksum_completes {parts : List Bytes} (h : ∀ part ∈ parts, part.length ≤ 65535) :
    0 < (parts.map wordSum).sum + checksum parts ∧
      65535 ∣ (parts.map wordSum).sum + checksum parts := by
  rw [checksum, onesComplementSum_eq h, ← foldCarries_eq_ones_iff]
  exact foldCarries_complement _

theorem checksum_lt (parts : List Bytes) : checksum parts < 65536 := by
  rw [checksum]
  omega

/-! ## Segments -/

/-- The bytes of an address. -/
def IpAddress.toBytes : IpAddress → Bytes
  | .v4 a => a.toBytes
  | .v6 a => a.toBytes

variable {source source' destination destination' : IpAddress}

theorem IpAddress.sameFamily_iff :
    source.SameFamily destination ↔ source.toBytes.length = destination.toBytes.length := by
  cases source <;> cases destination <;> simp [SameFamily, toBytes]

theorem Altered.sameFamily (h : Altered source.toBytes source'.toBytes) :
    source.SameFamily source' :=
  IpAddress.sameFamily_iff.2 h.length_eq.symm

namespace Segment

variable {s : Segment} {raw raw' pseudo : Bytes} {length : Nat}

/-- What stands behind the addresses in a pseudo header. -/
def pseudoEnd (source : IpAddress) (length : Nat) : Bytes :=
  match source with
  | .v4 _ => [0, protocolTcp] ++ Bytes.ofNatBE 2 length
  | .v6 _ => Bytes.ofNatBE 4 length ++ [0, 0, 0, protocolTcp]

theorem pseudoEnd_eq (h : source.SameFamily source') (length : Nat) :
    pseudoEnd source length = pseudoEnd source' length := by
  cases source with
  | v4 s =>
    cases source' with
    | v4 s' => rfl
    | v6 s' => exact h.elim
  | v6 s =>
    cases source' with
    | v4 s' => exact h.elim
    | v6 s' => rfl

theorem pseudoHeader?_eq_some_iff :
    pseudoHeader? source destination length = some pseudo ↔
      source.SameFamily destination ∧
        source.toBytes ++ destination.toBytes ++ pseudoEnd source length = pseudo := by
  cases source <;> cases destination <;>
    simp [pseudoHeader?, IpAddress.SameFamily, IpAddress.toBytes, pseudoEnd]

theorem length_pseudoHeader?_le (h : pseudoHeader? source destination length = some pseudo) :
    pseudo.length ≤ 40 := by
  obtain ⟨hfamily, rfl⟩ := pseudoHeader?_eq_some_iff.1 h
  rw [List.length_append, List.length_append, ← IpAddress.sameFamily_iff.1 hfamily]
  cases source <;> simp [IpAddress.toBytes, pseudoEnd]

/-- Another source in one byte gives a pseudo header that is another in one byte. -/
theorem pseudoHeader?_altered_source (h : pseudoHeader? source destination length = some pseudo)
    (ha : Altered source.toBytes source'.toBytes) :
    ∃ pseudo', pseudoHeader? source' destination length = some pseudo' ∧
      Altered pseudo pseudo' := by
  obtain ⟨hfamily, rfl⟩ := pseudoHeader?_eq_some_iff.1 h
  have hfamily' : source'.SameFamily destination := by
    rw [IpAddress.sameFamily_iff] at hfamily ⊢
    rw [ha.length_eq, hfamily]
  refine ⟨_, pseudoHeader?_eq_some_iff.2 ⟨hfamily', rfl⟩, ?_⟩
  rw [← pseudoEnd_eq ha.sameFamily]
  exact (ha.append_right _).append_right _

/-- So does another destination. -/
theorem pseudoHeader?_altered_destination
    (h : pseudoHeader? source destination length = some pseudo)
    (ha : Altered destination.toBytes destination'.toBytes) :
    ∃ pseudo', pseudoHeader? source destination' length = some pseudo' ∧
      Altered pseudo pseudo' := by
  obtain ⟨hfamily, rfl⟩ := pseudoHeader?_eq_some_iff.1 h
  have hfamily' : source.SameFamily destination' := by
    rw [IpAddress.sameFamily_iff] at hfamily ⊢
    rw [ha.length_eq, hfamily]
  exact ⟨_, pseudoHeader?_eq_some_iff.2 ⟨hfamily', rfl⟩, (ha.append_left _).append_right _⟩

/-- A segment and its pseudo header are short enough for a sum in 32 bits. -/
theorem length_le_of_mem_parts (h : pseudoHeader? source destination length = some pseudo)
    (hraw : raw.length ≤ 65535) : ∀ part ∈ [pseudo, raw], part.length ≤ 65535 := by
  intro part hpart
  rcases List.mem_pair.1 hpart with rfl | rfl
  · exact (length_pseudoHeader?_le h).trans (by decide)
  · exact hraw

/-- A segment verifies when 65535 divides the words that its checksum covers. -/
theorem checksumValid_iff (h : pseudoHeader? source destination raw.length = some pseudo)
    (hraw : raw.length ≤ 65535) :
    checksumValid raw source destination = true ↔
      0 < wordSum pseudo + wordSum raw ∧ 65535 ∣ wordSum pseudo + wordSum raw := by
  have hones := onesComplementSum_eq_ones_iff (length_le_of_mem_parts h hraw)
  rw [checksumValid, h]
  simpa using hones

theorem exists_pseudoHeader (h : checksumValid raw source destination = true) :
    ∃ pseudo, pseudoHeader? source destination raw.length = some pseudo := by
  rw [checksumValid] at h
  split at h
  · next pseudo hpseudo => exact ⟨pseudo, hpseudo⟩
  · cases h

/-- A segment that verifies does not when one byte of it is changed. -/
theorem checksumValid_altered (h : checksumValid raw source destination = true)
    (hraw : raw.length ≤ 65535) (ha : Altered raw raw') :
    checksumValid raw' source destination = false := by
  obtain ⟨pseudo, hpseudo⟩ := exists_pseudoHeader h
  have hdvd := ((checksumValid_iff hpseudo hraw).1 h).2
  rw [← ha.length_eq] at hpseudo hraw
  rw [← Bool.not_eq_true, checksumValid_iff hpseudo hraw]
  exact fun h => ha.not_dvd hdvd h.2

/-- Neither does it when one byte of an address is changed. -/
theorem checksumValid_of_altered_pseudo {pseudo' : Bytes}
    (h : checksumValid raw source destination = true) (hraw : raw.length ≤ 65535)
    (hpseudo : pseudoHeader? source destination raw.length = some pseudo)
    (hpseudo' : pseudoHeader? source' destination' raw.length = some pseudo')
    (ha : Altered pseudo pseudo') : checksumValid raw source' destination' = false := by
  have hdvd := ((checksumValid_iff hpseudo hraw).1 h).2
  rw [← Bool.not_eq_true, checksumValid_iff hpseudo' hraw]
  rw [Nat.add_comm] at hdvd ⊢
  exact fun h => ha.not_dvd hdvd h.2

theorem checksumValid_altered_source (h : checksumValid raw source destination = true)
    (hraw : raw.length ≤ 65535) (ha : Altered source.toBytes source'.toBytes) :
    checksumValid raw source' destination = false := by
  obtain ⟨pseudo, hpseudo⟩ := exists_pseudoHeader h
  obtain ⟨pseudo', hpseudo', hpart⟩ := pseudoHeader?_altered_source hpseudo ha
  exact checksumValid_of_altered_pseudo h hraw hpseudo hpseudo' hpart

theorem checksumValid_altered_destination (h : checksumValid raw source destination = true)
    (hraw : raw.length ≤ 65535) (ha : Altered destination.toBytes destination'.toBytes) :
    checksumValid raw source destination' = false := by
  obtain ⟨pseudo, hpseudo⟩ := exists_pseudoHeader h
  obtain ⟨pseudo', hpseudo', hpart⟩ := pseudoHeader?_altered_destination hpseudo ha
  exact checksumValid_of_altered_pseudo h hraw hpseudo hpseudo' hpart

@[simp] theorem length_assemble (s : Segment) (sum : Nat) :
    (s.assemble sum).length = headerLength + s.payload.length := by
  simp [assemble, headerLength]
  omega

theorem wordSum_assemble (s : Segment) {sum : Nat} (h : sum < 65536) :
    wordSum (s.assemble sum) = wordSum (s.assemble 0) + sum := by
  simp only [assemble]
  rw [List.append_assoc _ [0, 0], List.append_assoc _ [0, 0]]
  exact wordSum_insert (by simp) h _

/-- A segment is read back, with the checksum that it was written with. -/
theorem ofBytes_assemble (s : Segment) (sum : Nat) :
    ofBytes (s.assemble sum) = .ok { s with checksum := UInt16.ofNat sum } := by
  have hshort : ¬ (s.assemble sum).length < headerLength := by
    rw [length_assemble]
    omega
  -- All fields stand in front of the payload, so they are found whatever it is.
  have hoffset : (s.assemble sum).getD 12 0 = 0x50 := rfl
  have hstart : (0x50 : UInt8).toNat / 16 * 4 = headerLength := rfl
  have hsource : slice (s.assemble sum) 0 2 = Bytes.ofNatBE 2 s.source.toNat := rfl
  have hdestination : slice (s.assemble sum) 2 4 = Bytes.ofNatBE 2 s.destination.toNat := rfl
  have hsequence : slice (s.assemble sum) 4 8 = Bytes.ofNatBE 4 s.sequence.toNat := rfl
  have hacknowledgement :
      slice (s.assemble sum) 8 12 = Bytes.ofNatBE 4 s.acknowledgement.toNat := rfl
  have hcontrol : (s.assemble sum).getD 13 0 = s.control.toByte := rfl
  have hwindow : slice (s.assemble sum) 14 16 = Bytes.ofNatBE 2 s.window.toNat := rfl
  have hchecksum : slice (s.assemble sum) 16 18 = Bytes.ofNatBE 2 sum := rfl
  have hpayload : (s.assemble sum).drop headerLength = s.payload := rfl
  simp only [ofBytes, if_neg hshort, hoffset, hstart, hsource, hdestination, hsequence,
    hacknowledgement, hcontrol, hwindow, hchecksum, hpayload, Bytes.toNatBE_ofNatBE,
    Control.ofByte_toByte]
  rw [if_neg (by simp)]
  have hmod : UInt16.ofNat (sum % 256 ^ 2) = UInt16.ofNat sum := UInt16.ofNat_mod_size
  simp [hmod]

/-- What is written between two addresses verifies between them. -/
theorem checksumValid_toBytes (h : s.toBytes source destination = .ok raw)
    (hraw : raw.length ≤ 65535) : checksumValid raw source destination = true := by
  simp only [toBytes] at h
  split at h
  · next pseudo hpseudo =>
    obtain rfl := Except.ok.inj h
    rw [length_assemble] at hpseudo hraw
    have hzero : (s.assemble 0).length ≤ 65535 := by rwa [length_assemble]
    have hparts := length_le_of_mem_parts hpseudo hzero
    rw [checksumValid_iff (by rwa [length_assemble]) (by rwa [length_assemble]),
      wordSum_assemble s (checksum_lt _), ← Nat.add_assoc]
    simpa using checksum_completes hparts
  · cases h

/-- Between addresses of one family every segment is written. -/
theorem exists_toBytes (s : Segment) (h : source.SameFamily destination) :
    ∃ sum, s.toBytes source destination = .ok (s.assemble sum) := by
  have hpseudo : pseudoHeader? source destination (s.assemble 0).length = some _ :=
    pseudoHeader?_eq_some_iff.2 ⟨h, rfl⟩
  simp only [toBytes, hpseudo, Except.ok.injEq]
  exact ⟨_, rfl⟩

theorem length_le_of_fits (h : Fits source destination length) : length ≤ 65535 := by
  have hlength := h.2
  cases source with
  | v4 s =>
    rw [IpAddress.lengthField] at hlength
    omega
  | v6 s =>
    rw [IpAddress.lengthField] at hlength
    omega

end Segment

/-! ## Version 4 headers -/

namespace Ipv4Packet

variable {s d : Ipv4Address} {protocol : UInt8} {payload packet : Bytes}

theorem wordSum_header (s d : Ipv4Address) (protocol : UInt8) (total : Nat) {sum : Nat}
    (h : sum < 65536) :
    wordSum (header s d protocol total sum) = wordSum (header s d protocol total 0) + sum := by
  simp only [header]
  rw [List.append_assoc _ s.toBytes, List.append_assoc _ s.toBytes]
  exact wordSum_insert (by simp) h _

/-- A header that is written sums up to all ones. -/
theorem onesComplementSum_header (s d : Ipv4Address) (protocol : UInt8) (total : Nat) :
    onesComplementSum [header s d protocol total
      (Net.checksum [header s d protocol total 0])] = 65535 := by
  have hparts (sum : Nat) : ∀ part ∈ [header s d protocol total sum], part.length ≤ 65535 := by
    intro part hpart
    rw [List.mem_singleton.1 hpart, length_header]
    decide
  rw [onesComplementSum_eq_ones_iff (hparts _)]
  simpa [wordSum_header s d protocol total (checksum_lt _)] using checksum_completes (hparts 0)

/-- The header of a packet that is written verifies. -/
theorem checksumValid_create (h : create s d protocol payload = .ok packet) :
    checksumValid packet = true := by
  obtain ⟨-, rfl⟩ := create_eq_ok_iff.1 h
  let front := header s d protocol (headerLength + payload.length)
    (Net.checksum [header s d protocol (headerLength + payload.length) 0])
  have hfront : (front ++ payload).take headerLength = front :=
    List.take_left' (length_header s d protocol _ _)
  have hvalid : checksumValid (front ++ payload) =
      (decide (headerLength ≤ (front ++ payload).length) &&
        onesComplementSum [(front ++ payload).take headerLength] == 65535) := rfl
  rw [hvalid, hfront, onesComplementSum_header]
  simp [front]

end Ipv4Packet

/-- Segments and version 4 headers are written with checksums that hold. Their sums stay in 32 bits.
A segment that fits into a packet verifies between its addresses and is read back, but for the
checksum; it does not verify any more when one byte of it, or of an address, is changed. -/
theorem checksums_guard :
    (∀ (raw pseudo : Bytes) (source destination : IpAddress),
      Fits source destination raw.length →
      Segment.pseudoHeader? source destination raw.length = some pseudo →
      SumsIn32Bits [pseudo, raw]) ∧
    (∀ (s : Segment) (source destination : IpAddress),
      Fits source destination (Segment.headerLength + s.payload.length) →
      ∃ raw, s.toBytes source destination = .ok raw ∧
        raw.length = Segment.headerLength + s.payload.length ∧
        Segment.checksumValid raw source destination = true ∧
        (∃ sum, Segment.ofBytes raw = .ok { s with checksum := sum }) ∧
        (∀ raw', Altered raw raw' → Segment.checksumValid raw' source destination = false) ∧
        (∀ source', Altered source.toBytes source'.toBytes →
          Segment.checksumValid raw source' destination = false) ∧
        ∀ destination', Altered destination.toBytes destination'.toBytes →
          Segment.checksumValid raw source destination' = false) ∧
    ∀ (source destination : Ipv4Address) (protocol : UInt8) (payload packet : Bytes),
      Ipv4Packet.create source destination protocol payload = .ok packet →
      SumsIn32Bits [Ipv4Packet.header source destination protocol packet.length 0] ∧
        SumsIn32Bits [packet.take Ipv4Packet.headerLength] ∧
        Ipv4Packet.checksumValid packet = true := by
  refine ⟨?_, ?_, ?_⟩
  · intro raw pseudo source destination hfits hpseudo
    exact sumsIn32Bits_of_length_le
      (Segment.length_le_of_mem_parts hpseudo (Segment.length_le_of_fits hfits))
  · intro s source destination hfits
    obtain ⟨sum, hbytes⟩ := s.exists_toBytes hfits.1
    have hlength := s.length_assemble sum
    have hraw : (s.assemble sum).length ≤ 65535 := by
      rw [hlength]
      exact Segment.length_le_of_fits hfits
    have hvalid := Segment.checksumValid_toBytes hbytes hraw
    exact ⟨s.assemble sum, hbytes, hlength, hvalid, ⟨_, s.ofBytes_assemble sum⟩,
      fun raw' => Segment.checksumValid_altered hvalid hraw,
      fun source' => Segment.checksumValid_altered_source hvalid hraw,
      fun destination' => Segment.checksumValid_altered_destination hvalid hraw⟩
  · intro source destination protocol payload packet hcreate
    refine ⟨sumsIn32Bits_of_length_le fun part hpart => ?_,
      sumsIn32Bits_of_length_le fun part hpart => ?_, Ipv4Packet.checksumValid_create hcreate⟩
    · rw [List.mem_singleton.1 hpart, Ipv4Packet.length_header]
      decide
    · rw [List.mem_singleton.1 hpart]
      exact (List.length_take_le _ _).trans (by decide)

/-- A segment with an odd number of bytes. -/
def oddSegment : Segment :=
  ⟨1234, 5678, 420, 6969, ⟨false, true, true, false, false, false⟩, 5555, 0, [1, 2, 3, 4, 5]⟩

/-- The bytes of that segment, with some last byte. -/
def oddBytes (last : UInt8) : Bytes :=
  [4, 210, 22, 46, 0, 0, 1, 164, 0, 0, 27, 57, 80, 24, 21, 179, 83, 44, 0, 0, 1, 2, 3, 4, last]

theorem checksums_guard_odd :
    let source : IpAddress := .v4 ⟨0x01010101⟩
    let destination : IpAddress := .v4 ⟨0x02020202⟩
    Fits source destination 25 ∧
    oddSegment.toBytes source destination = .ok (oddBytes 5) ∧
    SumsIn32Bits [[1, 1, 1, 1, 2, 2, 2, 2, 0, 6, 0, 25], oddBytes 5] ∧
    Segment.checksumValid (oddBytes 5) source destination = true ∧
    Segment.checksumValid (oddBytes 6) source destination = false ∧
    Segment.checksumValid (oddBytes 5) (.v4 ⟨0x01010103⟩) destination = false ∧
    Segment.checksumValid (oddBytes 5) source (.v4 ⟨0x02020002⟩) = false ∧
    ∃ packet, Ipv4Packet.create ⟨0x01010101⟩ ⟨0x02020202⟩ protocolTcp (oddBytes 5) = .ok packet ∧
      Ipv4Packet.checksumValid packet = true := by
  intro source destination
  have hfits : Fits source destination 25 := by decide
  have hbytes : oddSegment.toBytes source destination = .ok (oddBytes 5) := by decide +kernel
  obtain ⟨hsums, hsegments, hheaders⟩ := checksums_guard
  obtain ⟨raw, hraw, hlength, hvalid, -, hbyte, hsource, hdestination⟩ :=
    hsegments oddSegment source destination hfits
  obtain rfl : raw = oddBytes 5 := Except.ok.inj (hraw.symm.trans hbytes)
  have hlast : Altered (oddBytes 5) (oddBytes 6) := .byte ((oddBytes 5).take 24) [] (by decide)
  have hother : Altered source.toBytes (IpAddress.v4 ⟨0x01010103⟩).toBytes :=
    .byte [1, 1, 1] [] (show (1 : UInt8) ≠ 3 by decide)
  have hother' : Altered destination.toBytes (IpAddress.v4 ⟨0x02020002⟩).toBytes :=
    .byte [2, 2] [2] (show (2 : UInt8) ≠ 0 by decide)
  obtain ⟨packet, hpacket⟩ : ∃ packet,
      Ipv4Packet.create ⟨0x01010101⟩ ⟨0x02020202⟩ protocolTcp (oddBytes 5) = .ok packet := ⟨_, rfl⟩
  exact ⟨hfits, hbytes, hsums _ _ source destination hfits (by decide +kernel), hvalid,
    hbyte _ hlast, hsource _ hother, hdestination _ hother', packet, hpacket,
    (hheaders _ _ _ _ _ hpacket).2.2⟩

end Tether.Net
