import Tether.Proofs.Xpc.Closure
import Tether.Proofs.Xpc.Positions

/-!
# How much a reader of objects takes

A container announces how many members it has in 32 bits, and its length is not looked at. All the
same an object is never larger than its bytes allow: each of its parts takes eight bytes at least,
whatever was announced. What is read does not depend on what is behind it either. Only the padding
at the very end may be missing; then nothing is left, and nothing more is read, so it does not
matter that there would be more to skip.

* `Object.count`: the number of objects that an object is made of;
* `Reader.Pays`, `pays_decodeObject`: an object is paid for by the bytes that were taken;
* `Reader.Endures`, `endures_decodeObject`: a reader gives the same with more bytes behind;
* `decode_bounded`: both for payloads, and no walk over a payload leaves its buffer.
-/

namespace Tether.Xpc

/-! ## Size -/

namespace Object

mutual

/-- How many objects an object is made of, itself included. -/
def count : Object → Nat
  | .array items => 1 + countItems items
  | .dictionary entries => 1 + countEntries entries
  | _ => 1

/-- How many objects some items are made of. -/
def countItems : List Object → Nat
  | [] => 0
  | o :: items => o.count + countItems items

/-- How many objects the values of some entries are made of. -/
def countEntries : List (String × Object) → Nat
  | [] => 0
  | (_, o) :: entries => o.count + countEntries entries

end

theorem countItems_eq (items : List Object) : countItems items = (items.map count).sum := by
  induction items with
  | nil => rfl
  | cons o items ih => rw [countItems, ih, List.map_cons, List.sum_cons]

theorem countEntries_insert_le (entries : Entries Object) (key : String) (o : Object) :
    countEntries (entries.insert key o) ≤ countEntries entries + o.count := by
  induction entries with
  | nil => simp [Entries.insert, countEntries]
  | cons e entries ih =>
    rw [Entries.insert]
    split
    · simp only [countEntries]
      omega
    · simp only [countEntries]
      omega

/-- A repeated key only makes a dictionary smaller. -/
theorem countEntries_ofList_le (pairs : List (String × Object)) :
    countEntries (Entries.ofList pairs) ≤ (pairs.map fun p => p.2.count).sum := by
  induction pairs using List.reverseRecOn with
  | nil => exact le_rfl
  | append_singleton pairs p ih =>
    have hinsert := countEntries_insert_le (Entries.ofList pairs) p.1 p.2
    rw [Entries.ofList_append_singleton, List.map_append, List.sum_append, List.map_singleton,
      List.sum_singleton]
    omega

end Object

namespace Reader

variable {α β : Type} {read read' : Reader α} {cost : α → Nat} {paid : Nat}

/-! ## What is read is paid for -/

/-- The cost of what is read is covered by what was paid before and the bytes that are taken. -/
def Pays (paid : Nat) (cost : α → Nat) (read : Reader α) : Prop :=
  ∀ bs a rest, read bs = .ok (a, rest) → cost a + rest.length ≤ paid + bs.length

theorem pays_done {a : α} (h : cost a ≤ paid) : (done a).Pays paid cost := by
  intro bs _ _ hread
  cases hread
  exact Nat.add_le_add_right h _

theorem pays_check {r : Except DeviceError α} (h : ∀ a, r = .ok a → cost a ≤ paid) :
    (check r).Pays paid cost := by
  cases r with
  | error e => exact fun _ _ _ hread => by contradiction
  | ok a => exact pays_done (h a rfl)

theorem Pays.andThen {next : α → Reader β} {total : β → Nat} (h : read.Pays 0 cost)
    (hnext : ∀ a, (next a).Pays (paid + cost a) total) :
    (read.andThen next).Pays paid total := by
  intro bs b rest hread
  obtain ⟨⟨a, mid⟩, hfirst, hread⟩ := Except.exists_of_bind_eq_ok hread
  have hread : total b + rest.length ≤ paid + cost a + mid.length := hnext a _ _ _ hread
  have hfirst : cost a + mid.length ≤ 0 + bs.length := h _ _ _ hfirst
  omega

theorem pays_take (n : Nat) : (take n).Pays 0 fun _ => n := by
  intro bs field rest hread
  rw [take] at hread
  split at hread
  · cases hread
    dsimp only
    rw [List.length_drop]
    omega
  · contradiction

theorem pays_number (width : Nat) : (number width).Pays 0 fun _ => width := by
  intro bs n rest hread
  rw [number] at hread
  cases htake : take width bs with
  | error e => rw [htake] at hread; contradiction
  | ok taken =>
    rw [htake] at hread
    cases hread
    exact pays_take width _ _ _ htake

theorem pays_takePadded (n : Nat) : (takePadded n).Pays 0 fun _ => n := by
  intro bs field rest hread
  rw [takePadded] at hread
  cases htake : take n bs with
  | error e => rw [htake] at hread; contradiction
  | ok taken =>
    rw [htake] at hread
    cases hread
    have htaken := pays_take n _ _ _ htake
    dsimp only at htaken ⊢
    rw [List.length_drop]
    omega

/-- A key has its terminator at least. -/
theorem pays_cString : cString.Pays 0 fun _ => 1 := by
  intro bs s rest hread
  have hle := (List.takeWhile_prefix (l := bs) (· ≠ 0)).length_le
  simp only [cString] at hread
  generalize bs.takeWhile (· ≠ 0) = text at hread hle
  split at hread
  · contradiction
  · split at hread
    · cases hread
      dsimp only
      rw [List.length_drop]
      omega
    · contradiction

theorem Pays.times (h : read.Pays 0 cost) (n : Nat) :
    (times read n).Pays 0 fun as => (as.map cost).sum := by
  induction n with
  | zero => exact pays_done (le_refl 0)
  | succ n ih =>
    rw [times_succ]
    refine h.andThen fun a => ih.andThen fun as => pays_done ?_
    rw [List.map_cons, List.sum_cons, Nat.zero_add]

theorem Pays.entry (h : read.Pays 0 cost) : (entry read).Pays 0 fun e => cost e.2 := by
  rw [entry_eq]
  exact pays_cString.andThen fun key => h.andThen fun a => pays_done (Nat.le_add_left _ _)

/-! ## What is read stays -/

/-- With more bytes behind the input the second reader gives what the first one gives without. As
long as something is left, the same is left, and the new bytes behind it; at the end of the input
the second one may go on into the new bytes. -/
structure Endures (read read' : Reader α) : Prop where
  append : ∀ bs a rest t, read bs = .ok (a, rest) →
    ∃ rest', read' (bs ++ t) = .ok (a, rest') ∧ (rest ≠ [] → rest' = rest ++ t)
  shrinks : read.Pays 0 fun _ => 0

theorem endures_check (r : Except DeviceError α) : (check r).Endures (check r) := by
  refine ⟨fun bs a rest t hread => ?_, pays_check fun _ _ => le_rfl⟩
  cases r with
  | error e => contradiction
  | ok a =>
    cases hread
    exact ⟨bs ++ t, rfl, fun _ => rfl⟩

theorem endures_done (a : α) : (done a).Endures (done a) :=
  endures_check (.ok a)

/-- Where nothing is left to the next reader, it reads nothing, and it does so as well where the
first reader went on into the new bytes. -/
theorem Endures.andThen {next next' : α → Reader β} (h : read.Endures read')
    (hnext : ∀ a, (next a).Endures (next' a)) :
    (read.andThen next).Endures (read'.andThen next') := by
  refine ⟨fun bs b rest t hread => ?_, h.shrinks.andThen fun a => (hnext a).shrinks⟩
  obtain ⟨⟨a, mid⟩, hfirst, hread⟩ := Except.exists_of_bind_eq_ok hread
  obtain ⟨mid', hfirst', hmid⟩ := h.append _ _ _ t hfirst
  by_cases hempty : mid = []
  · -- The second reader takes nothing, so it takes nothing of the new bytes.
    subst hempty
    obtain ⟨rest', hread', -⟩ := (hnext a).append _ _ _ mid' hread
    have hnothing := (hnext a).shrinks _ _ _ hread
    refine ⟨rest', ?_, fun hne => absurd ?_ hne⟩
    · simp only [Reader.andThen, hfirst']
      exact hread'
    · exact List.length_eq_zero_iff.1 (by simpa using hnothing)
  · obtain ⟨rest', hread', hrest⟩ := (hnext a).append _ _ _ t hread
    refine ⟨rest', ?_, hrest⟩
    simp only [Reader.andThen, hfirst', hmid hempty]
    exact hread'

theorem take_append_of_eq {n : Nat} {bs field rest : Bytes} (h : take n bs = .ok (field, rest))
    (t : Bytes) : take n (bs ++ t) = .ok (field, rest ++ t) := by
  rw [take] at h ⊢
  split at h
  · next hle =>
    cases h
    rw [if_pos (by rw [List.length_append]; omega), List.take_append_of_le_length hle,
      List.drop_append_of_le_length hle]
  · contradiction

theorem Pays.weaken (h : read.Pays 0 cost) : read.Pays 0 fun _ => 0 :=
  fun bs a rest hread => (Nat.add_le_add_right (Nat.zero_le _) _).trans (h bs a rest hread)

theorem endures_take (n : Nat) : (take n).Endures (take n) :=
  ⟨fun _ _ rest t hread => ⟨rest ++ t, take_append_of_eq hread t, fun _ => rfl⟩,
    (pays_take n).weaken⟩

theorem endures_number (width : Nat) : (number width).Endures (number width) := by
  refine ⟨fun bs n rest t hread => ?_, (pays_number width).weaken⟩
  rw [number] at hread
  cases htake : take width bs with
  | error e => rw [htake] at hread; contradiction
  | ok taken =>
    rw [htake] at hread
    cases hread
    exact ⟨_, by rw [number, take_append_of_eq htake t]; rfl, fun _ => rfl⟩

theorem drop_append_of_ne_nil {n : Nat} {bs : Bytes} (h : bs.drop n ≠ []) (t : Bytes) :
    (bs ++ t).drop n = bs.drop n ++ t := by
  have hlt : n < bs.length := Nat.lt_of_not_le fun hle => h (List.drop_eq_nil_of_le hle)
  exact List.drop_append_of_le_length (le_of_lt hlt)

/-- Padding that is missing is looked for in the new bytes. -/
theorem endures_takePadded (n : Nat) : (takePadded n).Endures (takePadded n) := by
  refine ⟨fun bs field rest t hread => ?_, (pays_takePadded n).weaken⟩
  rw [takePadded] at hread
  cases htake : take n bs with
  | error e => rw [htake] at hread; contradiction
  | ok taken =>
    rw [htake] at hread
    cases hread
    refine ⟨_, by rw [takePadded, take_append_of_eq htake t]; rfl, fun hne => ?_⟩
    exact drop_append_of_ne_nil hne t

theorem endures_cString : cString.Endures cString := by
  refine ⟨fun bs s rest t hread => ?_, pays_cString.weaken⟩
  have hle := (List.takeWhile_prefix (l := bs) (· ≠ 0)).length_le
  simp only [cString, List.takeWhile_append] at hread ⊢
  generalize bs.takeWhile (· ≠ 0) = text at hread hle ⊢
  split at hread
  · contradiction
  · next hend =>
    -- The terminator is in the input, so the text is the same.
    have hend' : text.length ≠ (bs ++ t).length := by
      rw [List.length_append]
      omega
    simp only [if_neg hend, if_neg hend']
    split at hread
    · cases hread
      refine ⟨_, rfl, fun hne => ?_⟩
      exact drop_append_of_ne_nil hne t
    · contradiction

theorem compatible_endures : Compatible fun _ => Endures where
  done := endures_done
  take := endures_take
  number := endures_number
  takePadded := endures_takePadded
  cString := endures_cString
  text field := endures_check (fieldText field)
  andThen := Endures.andThen

end Reader

/-! ## Objects -/

open Reader

variable {inner : Reader Object}

/-- With the four bytes of its tag, an object takes eight bytes for itself and what its members
take. -/
theorem pays_tagged (h : inner.Pays 0 fun o => 8 * o.count) (tag : Tag) :
    (tagged inner tag).Pays 4 fun o => 8 * o.count := by
  cases tag with
  | bool =>
    rw [tagged]
    exact (pays_take 4).andThen fun _ => pays_done (by simp [Object.count])
  | int64 =>
    rw [tagged]
    exact (pays_number 8).andThen fun _ => pays_done (by simp [Object.count])
  | uint64 =>
    rw [tagged]
    exact (pays_number 8).andThen fun _ => pays_done (by simp [Object.count])
  | double =>
    rw [tagged]
    exact (pays_number 8).andThen fun _ => pays_done (by simp [Object.count])
  | date =>
    rw [tagged]
    exact (pays_number 8).andThen fun _ => pays_done (by simp [Object.count])
  | data =>
    rw [tagged]
    exact (pays_number 4).andThen fun n => (pays_takePadded n).andThen fun _ =>
      pays_done (by simp [Object.count])
  | string =>
    rw [tagged]
    exact (pays_number 4).andThen fun n => (pays_takePadded n).andThen fun field =>
      Pays.andThen (pays_check fun _ _ => le_rfl) fun _ => pays_done (by simp [Object.count])
  | uuid =>
    rw [tagged]
    exact (pays_take 16).andThen fun _ => pays_done (by simp [Object.count])
  | array =>
    rw [tagged]
    refine (pays_number 4).andThen fun _ => (pays_number 4).andThen fun count =>
      (h.times count).andThen fun items => pays_done ?_
    have hsum : 8 * (items.map Object.count).sum = (items.map fun o => 8 * o.count).sum :=
      (List.sum_map_mul_left items Object.count 8).symm
    rw [Object.count, Object.countItems_eq]
    omega
  | dictionary =>
    rw [tagged]
    refine (pays_number 4).andThen fun _ => (pays_number 4).andThen fun count =>
      (h.entry.times count).andThen fun pairs => pays_done ?_
    have hsum : 8 * (pairs.map fun p => p.2.count).sum = (pairs.map fun p => 8 * p.2.count).sum :=
      (List.sum_map_mul_left pairs (fun p => p.2.count) 8).symm
    have hle := Object.countEntries_ofList_le pairs
    rw [Object.count]
    omega

theorem pays_decodeObject (depth : Nat) : (decodeObject depth).Pays 0 fun o => 8 * o.count := by
  induction depth with
  | zero => exact pays_check (r := .error .malformedXpc) fun _ h => by contradiction
  | succ depth ih =>
    rw [decodeObject_succ]
    refine (pays_number 4).andThen fun code => ?_
    rw [untagged]
    cases Tag.ofCode? code with
    | none => exact pays_check (r := .error _) fun _ h => by contradiction
    | some tag => exact pays_tagged ih tag

/-- More bytes let a reader go deeper, which changes nothing. -/
theorem endures_decodeObject {depth depth' : Nat} (h : depth ≤ depth') :
    (decodeObject depth).Endures (decodeObject depth') := by
  induction depth generalizing depth' with
  | zero =>
    have hfails : ∀ bs x, decodeObject 0 bs ≠ .ok x := fun bs x hread => by contradiction
    exact ⟨fun bs a rest t hread => absurd hread (hfails bs _),
      fun bs a rest hread => absurd hread (hfails bs _)⟩
  | succ depth ih =>
    obtain ⟨depth', rfl⟩ : ∃ n, depth' = n + 1 := ⟨depth' - 1, by omega⟩
    rw [decodeObject_succ, decodeObject_succ]
    refine (endures_number 4).andThen fun code => ?_
    rw [untagged, untagged]
    cases Tag.ofCode? code with
    | none => exact endures_check (.error _)
    | some tag => exact compatible_endures.tagged (ih (by omega)) tag

/-! ## Payloads -/

/-- The magic number and the version take eight bytes more. -/
theorem pays_payload : payload.Pays 0 fun o => 8 * o.count + 8 := by
  refine (pays_number 4).andThen fun magic => ?_
  split
  · exact pays_check fun _ h => by contradiction
  · refine (pays_number 4).andThen fun version => ?_
    split
    · exact pays_check fun _ h => by contradiction
    · intro bs o rest hread
      have hpaid := pays_decodeObject _ _ _ _ hread
      dsimp only at hpaid ⊢
      omega

theorem endures_payload : payload.Endures payload := by
  refine (endures_number 4).andThen fun magic => ?_
  split
  · exact endures_check (.error _)
  · refine (endures_number 4).andThen fun version => ?_
    split
    · exact endures_check (.error _)
    · refine ⟨fun bs o rest t hread => ?_, fun bs o rest hread => ?_⟩
      · refine (endures_decodeObject (Nat.succ_le_succ ?_)).append bs o rest t hread
        rw [List.length_append]
        exact Nat.le_add_right _ _
      · exact (pays_decodeObject _).weaken _ _ _ hread

theorem exists_of_decode {b : Bytes} {o : Object} (h : decode b = .ok o) :
    ∃ rest, payload b = .ok (o, rest) := by
  rw [decode_eq_payload] at h
  rcases hread : payload b with e | ⟨o', rest⟩
  · rw [hread] at h
    contradiction
  · rw [hread] at h
    cases h
    exact ⟨rest, rfl⟩

/-- Decoding takes eight bytes for each object at any depth and eight more, whatever the containers
announce, and more bytes behind do not change what was decoded. Decoding any bytes at all, whether
it succeeds or not, never leaves the buffer, so that no slice and no difference of the decoder is
out of range. -/
theorem decode_bounded :
    (∀ b o, decode b = .ok o → 8 * o.count + 8 ≤ b.length ∧ ∀ t, decode (b ++ t) = .ok o) ∧
      ∀ b, (Walk.decode b).Ends Trail.start
        (fun o t => t.furthest ≤ b.length ∧ decode b = .ok o)
        (fun h t => t.furthest ≤ b.length ∧
          ∃ e, h = .failed (.malformed e) ∧ decode b = .error e) := by
  refine ⟨fun b o h => ?_, Walk.ends_decode⟩
  obtain ⟨rest, hread⟩ := exists_of_decode h
  constructor
  · have hpaid := pays_payload b o rest hread
    dsimp only at hpaid
    omega
  · intro t
    obtain ⟨rest', hread', -⟩ := endures_payload.append b o rest t hread
    rw [decode_eq_payload, hread']
    rfl

/-- It announces more entries than it has, and the padding at its end is missing. -/
theorem decode_bounded_lenient :
    decode lenient = .ok (.dictionary [("k", .data [7])]) ∧
      8 * (Object.dictionary [("k", .data [7])]).count + 8 ≤ lenient.length ∧
      decode (lenient ++ [1, 2, 3, 4, 5]) = .ok (.dictionary [("k", .data [7])]) := by
  have hdecode : decode lenient = .ok (.dictionary [("k", .data [7])]) := by rfl
  obtain ⟨hcount, hmore⟩ := decode_bounded.1 lenient _ hdecode
  exact ⟨hdecode, hcount, hmore [1, 2, 3, 4, 5]⟩

end Tether.Xpc
