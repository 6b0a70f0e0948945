import Mathlib
import Tether.Proofs.Xpc.Encoding

/-!
# What a reader of objects returns

A reader is lenient: padding may be missing, the byte count of a container is ignored, and a
repeated key replaces the value it had. All the same it never returns an object that could
not be written: a number read from `width` bytes is less than `256 ^ width`, a key ends before
the first zero, and the keys of a dictionary are all different. So what was read from any bytes
fits (`Object.Fits`), and writing it and reading it again gives it back.

* `Reader.Yields`: every value that a reader returns has a property; one lemma for each way
  readers are put together;
* `yields_decodeObject`: an object that was read fits, by induction on how deep the reader goes;
* `codec_closed`: objects that fit are read back, and only objects that fit are read.
-/

namespace Tether

/-- A computation of two steps succeeds when both do. -/
theorem Except.exists_of_bind_eq_ok {ε α β : Type} {x : Except ε α} {f : α → Except ε β} {b : β}
    (h : (x >>= f) = .ok b) : ∃ a, x = .ok a ∧ f a = .ok b := by
  cases x with
  | error e => contradiction
  | ok a => exact ⟨a, rfl, h⟩

namespace Xpc

/-! ### Readers -/

namespace Reader

variable {α β : Type} {P Q : α → Prop} {read : Reader α} {n : Nat}

/-- Whatever the reader returns has the property. -/
def Yields (P : α → Prop) (read : Reader α) : Prop :=
  ∀ bs a rest, read bs = .ok (a, rest) → P a

theorem yields_take (n : Nat) : (take n).Yields fun field => field.length = n := by
  intro bs field rest h
  rw [take] at h
  split at h
  · cases h
    rw [List.length_take]
    omega
  · contradiction

theorem yields_number (width : Nat) : (number width).Yields fun n => n < 256 ^ width := by
  intro bs n rest h
  rw [number] at h
  cases htake : take width bs with
  | error e => rw [htake] at h; contradiction
  | ok taken =>
    rw [htake] at h
    cases h
    exact yields_take width _ _ _ htake ▸ Bytes.toNatLE_lt taken.1

theorem yields_takePadded (n : Nat) : (takePadded n).Yields fun field => field.length = n := by
  intro bs field rest h
  rw [takePadded] at h
  cases htake : take n bs with
  | error e => rw [htake] at h; contradiction
  | ok taken =>
    rw [htake] at h
    cases h
    exact yields_take n _ _ _ htake

/-- A key ends before the first zero. -/
theorem yields_cString : cString.Yields fun s => '\x00' ∉ s.toList := by
  intro bs s rest h hnul
  simp only [cString] at h
  split at h
  · contradiction
  · split at h
    · rename_i htext
      cases h
      have hzero := Bytes.zero_mem_ofString hnul
      rw [Bytes.ofString_of_toString? htext] at hzero
      simpa using List.mem_takeWhile_imp hzero
    · contradiction

theorem Yields.times (h : read.Yields P) (n : Nat) :
    (times read n).Yields fun as => as.length = n ∧ ∀ a ∈ as, P a := by
  induction n with
  | zero =>
    intro bs as rest hread
    cases hread
    simp
  | succ n ih =>
    intro bs as rest hread
    rw [Reader.times] at hread
    split at hread
    · contradiction
    · rename_i a rest' hfirst
      split at hread
      · contradiction
      · rename_i as' rest'' hothers
        cases hread
        obtain ⟨hlength, hall⟩ := ih _ _ _ hothers
        exact ⟨by rw [List.length_cons, hlength],
          List.forall_mem_cons.2 ⟨h _ _ _ hfirst, hall⟩⟩

theorem Yields.entry (h : read.Yields P) :
    (entry read).Yields fun e => '\x00' ∉ e.1.toList ∧ P e.2 := by
  intro bs e rest hread
  rw [Reader.entry] at hread
  split at hread
  · contradiction
  · rename_i key rest' hkey
    split at hread
    · contradiction
    · rename_i value rest'' hvalue
      cases hread
      exact ⟨yields_cString _ _ _ hkey, h _ _ _ hvalue⟩

end Reader

/-- The text of a string field and its terminator are the field. -/
theorem ofString_of_fieldText {field : Bytes} {s : String} (h : fieldText field = .ok s) :
    Bytes.ofString s ++ [0] = field := by
  rw [fieldText] at h
  split at h
  · rename_i hlast
    split at h
    · rename_i htext
      cases h
      rw [Bytes.ofString_of_toString? htext]
      exact List.dropLast_append_getLast? 0 hlast
    · contradiction
  · contradiction

/-! ### Objects -/

/-- What follows a tag yields an object that fits if the objects inside of it do. -/
theorem yields_decodeTagged {inner : Reader Object} (h : inner.Yields Object.Fits) (tag : Tag) :
    Reader.Yields Object.Fits (decodeTagged inner tag) := by
  intro bs o rest hread
  cases tag with
  | bool =>
    obtain ⟨field, -, hread⟩ := Except.exists_of_bind_eq_ok hread
    cases hread
    exact .bool _
  | int64 =>
    obtain ⟨n, -, hread⟩ := Except.exists_of_bind_eq_ok hread
    cases hread
    exact .int64 _
  | uint64 =>
    obtain ⟨n, -, hread⟩ := Except.exists_of_bind_eq_ok hread
    cases hread
    exact .uint64 _
  | double =>
    obtain ⟨n, -, hread⟩ := Except.exists_of_bind_eq_ok hread
    cases hread
    exact .double _
  | date =>
    obtain ⟨n, hn, hread⟩ := Except.exists_of_bind_eq_ok hread
    cases hread
    -- A date is read as nanoseconds, and there are eight bytes of them.
    have hlt := Reader.yields_number 8 _ _ _ hn
    exact .date (by omega) (by omega)
  | data =>
    obtain ⟨n, hn, hread⟩ := Except.exists_of_bind_eq_ok hread
    obtain ⟨field, hfield, hread⟩ := Except.exists_of_bind_eq_ok hread
    cases hread
    have hlt := Reader.yields_number 4 _ _ _ hn
    exact .data (Reader.yields_takePadded _ _ _ _ hfield ▸ hlt)
  | string =>
    obtain ⟨n, hn, hread⟩ := Except.exists_of_bind_eq_ok hread
    obtain ⟨field, hfield, hread⟩ := Except.exists_of_bind_eq_ok hread
    obtain ⟨s, hs, hread⟩ := Except.exists_of_bind_eq_ok hread
    cases hread
    have hlt := Reader.yields_number 4 _ _ _ hn
    have hlength := Reader.yields_takePadded _ _ _ _ hfield
    -- The terminator counts.
    rw [← ofString_of_fieldText hs, List.length_append, List.length_singleton] at hlength
    exact .string (by omega)
  | uuid =>
    obtain ⟨field, -, hread⟩ := Except.exists_of_bind_eq_ok hread
    cases hread
    exact .uuid _
  | array =>
    obtain ⟨_, -, hread⟩ := Except.exists_of_bind_eq_ok hread
    obtain ⟨count, hcount, hread⟩ := Except.exists_of_bind_eq_ok hread
    obtain ⟨items, hitems, hread⟩ := Except.exists_of_bind_eq_ok hread
    cases hread
    have hlt := Reader.yields_number 4 _ _ _ hcount
    obtain ⟨hlength, hfits⟩ := h.times _ _ _ _ hitems
    exact .array (hlength ▸ hlt) hfits
  | dictionary =>
    obtain ⟨_, -, hread⟩ := Except.exists_of_bind_eq_ok hread
    obtain ⟨count, hcount, hread⟩ := Except.exists_of_bind_eq_ok hread
    obtain ⟨pairs, hpairs, hread⟩ := Except.exists_of_bind_eq_ok hread
    cases hread
    have hlt := Reader.yields_number 4 _ _ _ hcount
    obtain ⟨hlength, hfits⟩ := h.entry.times _ _ _ _ hpairs
    -- Repeated keys only make the dictionary smaller than its count.
    refine .dictionary (lt_of_le_of_lt (Entries.length_ofList_le _) (hlength ▸ hlt))
      (Entries.nodup_keys_ofList _) (fun e he => ?_) (fun e he => ?_)
    · exact (hfits e (Entries.mem_of_mem_ofList he)).1
    · exact (hfits e (Entries.mem_of_mem_ofList he)).2

/-- An object that was read fits, however deep it is nested. -/
theorem yields_decodeObject (depth : Nat) : (decodeObject depth).Yields Object.Fits := by
  induction depth with
  | zero =>
    intro bs o rest hread
    contradiction
  | succ depth ih =>
    intro bs o rest hread
    obtain ⟨⟨code, _⟩, -, hread⟩ := Except.exists_of_bind_eq_ok hread
    dsimp only at hread
    split at hread
    · contradiction
    · exact yields_decodeTagged ih _ _ _ _ hread

/-- So does the object of a payload. -/
theorem fits_of_decode {bs : Bytes} {o : Object} (h : decode bs = .ok o) : o.Fits := by
  obtain ⟨⟨magic, _⟩, -, h⟩ := Except.exists_of_bind_eq_ok h
  dsimp only at h
  split at h
  · contradiction
  · obtain ⟨⟨version, _⟩, -, h⟩ := Except.exists_of_bind_eq_ok h
    dsimp only at h
    split at h
    · contradiction
    · obtain ⟨⟨object, _⟩, hobject, h⟩ := Except.exists_of_bind_eq_ok h
      cases h
      exact yields_decodeObject _ _ _ _ hobject

/-- The codec round trip and its closure: an object that fits is read back from its bytes whatever
is behind them, and whatever is read from any bytes fits, so that it is read back as well. -/
theorem codec_closed :
    (∀ o : Object, o.Fits → ∀ t, decode (encode o ++ t) = .ok o) ∧
      ∀ b o, decode b = .ok o → o.Fits ∧ decode (encode o) = .ok o := by
  refine ⟨fun o h t => decode_encode h t, fun b o h => ?_⟩
  have hfits := fits_of_decode h
  have hback := decode_encode hfits []
  rw [List.append_nil] at hback
  exact ⟨hfits, hback⟩

/-- Containers inside of each other, an empty key, and text with a zero in it. -/
def Object.nested : Object :=
  .dictionary [("key", .array [.string "a\x00b", .date 5, .dictionary []]), ("", .data [1, 2, 3])]

theorem Object.fits_nested : Object.nested.Fits := by
  refine .dictionary (by decide) (by decide) (by decide) ?_
  simp only [List.forall_mem_cons]
  refine ⟨.array (by decide) ?_, .data (by decide), by simp⟩
  simp only [List.forall_mem_cons]
  refine ⟨.string (by decide), .date (by decide) (by decide), ?_, by simp⟩
  exact .dictionary (by decide) (by decide) (by simp) (by simp)

/-- A payload that no writer makes: its byte count is wrong, its key comes twice, and the padding
at its end is missing. -/
def lenient : Bytes :=
  Bytes.ofNatLE 4 objectMagic ++ Bytes.ofNatLE 4 objectVersion ++ Tag.dictionary.toBytes ++
    [9, 9, 9, 9, 2, 0, 0, 0] ++ [107, 0, 0, 0] ++ encodeObject (.bool true) ++
    [107, 0, 0, 0] ++ Tag.data.toBytes ++ [1, 0, 0, 0, 7]

theorem codec_closed_lenient :
    decode (encode Object.nested ++ [1, 2]) = .ok Object.nested ∧
      decode lenient = .ok (.dictionary [("k", .data [7])]) ∧
      decode (encode (.dictionary [("k", .data [7])])) = .ok (.dictionary [("k", .data [7])]) :=
  ⟨codec_closed.1 _ Object.fits_nested [1, 2], by rfl, (codec_closed.2 lenient _ (by rfl)).2⟩

end Xpc

end Tether
