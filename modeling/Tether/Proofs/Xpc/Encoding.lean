import Tether.Proofs.Entries
import Tether.Proofs.Text
import Tether.Xpc.Message

/-!
# Reading an encoded object back

Not every object survives its encoding. A key ends at its first zero, a date is a number of
nanoseconds from 1970 on, and lengths and counts have 32 bits; the objects that keep to this
are those that fit (`Object.Fits`). A reader that is given the bytes of such an object, with
any bytes behind them, takes exactly these bytes and finds the object.

Each reader of the encoding has one lemma of this form: what was written, followed by anything,
is read, and what followed is left.

* `decodeObject_encodeObject`: the round trip of an object inside a payload;
* `decode_encode`, `Message.decode_encode`: the round trips of a payload and of a message;
* `Message.frameLength?_of_prefix`: the first bytes of a message tell its length.
-/

namespace Tether

namespace Bytes

theorem toNatLE_ofNatLE_of_lt {width n : Nat} (h : n < 256 ^ width) :
    toNatLE (ofNatLE width n) = n := by
  rw [toNatLE_ofNatLE, Nat.mod_eq_of_lt h]

end Bytes

namespace Xpc

/-! ### Objects that fit -/

/-- Everything in an object can be written. -/
inductive Object.Fits : Object → Prop where
  | bool (value : Bool) : Fits (.bool value)
  | int64 (value : Int64) : Fits (.int64 value)
  | uint64 (value : UInt64) : Fits (.uint64 value)
  | double (value : Double) : Fits (.double value)
  | date {nanoseconds : Int} (hstart : 0 ≤ nanoseconds) (hend : nanoseconds < 2 ^ 64) :
    Fits (.date nanoseconds)
  | data {bytes : Bytes} (hlength : bytes.length < 2 ^ 32) : Fits (.data bytes)
  | string {text : String} (hlength : (Bytes.ofString text).length + 1 < 2 ^ 32) :
    Fits (.string text)
  | uuid (value : Uuid) : Fits (.uuid value)
  | array {items : List Object} (hcount : items.length < 2 ^ 32)
    (hitems : ∀ o ∈ items, Fits o) : Fits (.array items)
  | dictionary {entries : List (String × Object)} (hcount : entries.length < 2 ^ 32)
    (hkeys : (Entries.keys entries).Nodup) (hnul : ∀ e ∈ entries, '\x00' ∉ e.1.toList)
    (hvalues : ∀ e ∈ entries, Fits e.2) : Fits (.dictionary entries)

/-- The body of a message fits, if it has one, and its bytes fit into memory. -/
def Message.Fits (m : Message) : Prop :=
  ∀ o ∈ m.body, o.Fits ∧ (Xpc.encode o).length < 2 ^ 63

/-! ### Readers -/

namespace Reader

variable {α : Type} {n width : Nat} {bs t : Bytes}

theorem take_append (h : bs.length = n) : take n (bs ++ t) = .ok (bs, t) := by
  simp [take, ← h]

theorem number_ofNatLE (h : n < 256 ^ width) :
    number width (Bytes.ofNatLE width n ++ t) = .ok (n, t) := by
  rw [number, take_append (Bytes.length_ofNatLE width n)]
  simp [Except.map, Bytes.toNatLE_ofNatLE_of_lt h]

theorem number_sized : number 4 (sized bs ++ t) = .ok (bs.length % 256 ^ 4, bs ++ t) := by
  rw [number, sized, List.append_assoc, take_append (Bytes.length_ofNatLE 4 bs.length)]
  simp [Except.map, Bytes.toNatLE_ofNatLE]

theorem takePadded_padded (h : bs.length = n) : takePadded n (padded bs ++ t) = .ok (bs, t) := by
  rw [takePadded, padded, List.append_assoc, take_append h, ← h]
  simp [Except.map]

/-- A terminated text without a zero is read up to its terminator and padding. -/
theorem cString_terminated {s : String} (h : '\x00' ∉ s.toList) :
    cString (terminated s ++ t) = .ok (s, t) := by
  have hzero := Bytes.zero_notMem_ofString h
  have htext : (terminated s ++ t).takeWhile (· ≠ 0) = Bytes.ofString s := by
    rw [terminated, padded, List.append_assoc, List.append_assoc, List.takeWhile_append_of_pos]
    · simp
    · intro b hb
      simpa using ne_of_mem_of_not_mem hb hzero
  have hlength : (Bytes.ofString s).length ≠ (terminated s ++ t).length := by
    simp [terminated, padded]
  have hrest : (terminated s ++ t).drop
      ((Bytes.ofString s).length + 1 + padding ((Bytes.ofString s).length + 1)) = t := by
    apply List.drop_left'
    simp [terminated, padded]
    omega
  simp only [cString, htext, if_neg hlength, Bytes.toString?_ofString, hrest]

/-- Reading as many times as there are values that were written. -/
theorem times_flatMap {read : Reader α} {write : α → Bytes} {as : List α}
    (h : ∀ a ∈ as, ∀ t, read (write a ++ t) = .ok (a, t)) (t : Bytes) :
    times read as.length (as.flatMap write ++ t) = .ok (as, t) := by
  induction as with
  | nil => rfl
  | cons a as ih =>
    have ih := ih fun b hb => h b (List.mem_cons_of_mem a hb)
    simp only [List.length_cons, times, List.flatMap_cons, List.append_assoc,
      h a List.mem_cons_self, ih]

theorem entry_terminated {read : Reader α} {write : α → Bytes} {key : String} {a : α}
    (hkey : '\x00' ∉ key.toList) (h : ∀ t, read (write a ++ t) = .ok (a, t)) (t : Bytes) :
    entry read (terminated key ++ write a ++ t) = .ok ((key, a), t) := by
  rw [entry, List.append_assoc, cString_terminated hkey]
  simp only [h]

end Reader

theorem fieldText_ofString (s : String) : fieldText (Bytes.ofString s ++ [0]) = .ok s := by
  simp [fieldText, Bytes.toString?_ofString]

theorem encodeItems_eq (items : List Object) : encodeItems items = items.flatMap encodeObject := by
  induction items with
  | nil => rfl
  | cons o items ih => rw [encodeItems, ih, List.flatMap_cons]

theorem encodeEntries_eq (entries : List (String × Object)) :
    encodeEntries entries = entries.flatMap fun e => terminated e.1 ++ encodeObject e.2 := by
  induction entries with
  | nil => rfl
  | cons e entries ih => rw [encodeEntries, ih, List.flatMap_cons]

/-! ### Objects -/

@[simp] theorem Uuid.ofBytes_toBytes (u : Uuid) : Uuid.ofBytes u.toBytes = u := by
  have hlt := u.value.isLt
  rw [Uuid.ofBytes, Uuid.toBytes, Bytes.toNatBE_ofNatBE, Nat.mod_eq_of_lt (by omega),
    BitVec.ofNat_toNat, BitVec.setWidth_eq]

theorem length_le_length_flatMap_of_mem {α : Type} (write : α → Bytes) {as : List α} {a : α}
    (h : a ∈ as) : (write a).length ≤ (as.flatMap write).length := by
  obtain ⟨before, behind, rfl⟩ := List.append_of_mem h
  simp only [List.flatMap_append, List.flatMap_cons, List.length_append]
  omega

theorem four_le_length_encodeObject (o : Object) : 4 ≤ (encodeObject o).length := by
  cases o <;> simp [encodeObject, Tag.toBytes]

/-- A reader takes a tag and goes on with what follows it. -/
theorem decodeObject_tag (depth : Nat) (tag : Tag) (t : Bytes) :
    decodeObject (depth + 1) (tag.toBytes ++ t) = decodeTagged (decodeObject depth) tag t := by
  have hcode : Reader.number 4 (tag.toBytes ++ t) = .ok (tag.code, t) :=
    Reader.number_ofNatLE (by cases tag <;> decide)
  simp only [decodeObject, hcode, bind, Except.bind, Tag.ofCode?_code]

/-- An object that fits is read back, whatever is behind it, by a reader that may go as deep as
the object is long. -/
theorem decodeObject_encodeObject {o : Object} (h : o.Fits) :
    ∀ depth, (encodeObject o).length ≤ depth → ∀ t,
      decodeObject depth (encodeObject o ++ t) = .ok (o, t) := by
  intro depth hdepth t
  have hfour := four_le_length_encodeObject o
  obtain ⟨depth, rfl⟩ : ∃ n, depth = n + 1 := ⟨depth - 1, by omega⟩
  induction h generalizing depth t with
  | bool value =>
    rw [encodeObject, List.append_assoc, decodeObject_tag, decodeTagged]
    cases value <;> rfl
  | int64 value =>
    rw [encodeObject, List.append_assoc, decodeObject_tag, decodeTagged,
      Reader.number_ofNatLE value.toUInt64.toNat_lt]
    simp [bind, Except.bind]
  | uint64 value =>
    rw [encodeObject, List.append_assoc, decodeObject_tag, decodeTagged,
      Reader.number_ofNatLE value.toNat_lt]
    simp [bind, Except.bind]
  | double value =>
    rw [encodeObject, List.append_assoc, decodeObject_tag, decodeTagged,
      Reader.number_ofNatLE value.bits.toNat_lt]
    simp [bind, Except.bind]
  | date hstart hend =>
    rw [encodeObject, List.append_assoc, decodeObject_tag, decodeTagged,
      Reader.number_ofNatLE (by omega)]
    simp [bind, Except.bind, hstart]
  | data hlength =>
    rw [encodeObject, List.append_assoc, List.append_assoc, decodeObject_tag, decodeTagged,
      Reader.number_ofNatLE hlength]
    simp [bind, Except.bind, Reader.takePadded_padded]
  | string hlength =>
    rw [encodeObject, List.append_assoc, List.append_assoc, decodeObject_tag, decodeTagged,
      Reader.number_ofNatLE hlength]
    simp [bind, Except.bind, terminated, Reader.takePadded_padded, fieldText_ofString]
  | uuid value =>
    have hlength : value.toBytes.length = 16 := by simp [Uuid.toBytes]
    rw [encodeObject, List.append_assoc, decodeObject_tag, decodeTagged, Reader.take_append hlength]
    simp [bind, Except.bind]
  | array hcount hitems ih =>
    rename_i items
    have hinner : ∀ o ∈ items, ∀ t, decodeObject depth (encodeObject o ++ t) = .ok (o, t) := by
      intro o ho t
      have hmem := length_le_length_flatMap_of_mem encodeObject ho
      have hfour := four_le_length_encodeObject o
      simp only [encodeObject, encodeItems_eq, sized, List.length_append,
        Bytes.length_ofNatLE] at hdepth
      obtain ⟨depth, rfl⟩ : ∃ n, depth = n + 1 := ⟨depth - 1, by omega⟩
      exact ih o ho t hfour depth (by omega)
    rw [encodeObject, List.append_assoc, decodeObject_tag, decodeTagged, Reader.number_sized]
    simp only [bind, Except.bind, List.append_assoc]
    rw [Reader.number_ofNatLE hcount, encodeItems_eq]
    simp only [Reader.times_flatMap hinner]
  | dictionary hcount hkeys hnul hvalues ih =>
    rename_i entries
    have hinner : ∀ e ∈ entries, ∀ t,
        Reader.entry (decodeObject depth) (terminated e.1 ++ encodeObject e.2 ++ t) =
          .ok (e, t) := by
      intro e he t
      have hmem := length_le_length_flatMap_of_mem
        (fun e : String × Object => terminated e.1 ++ encodeObject e.2) he
      have hfour := four_le_length_encodeObject e.2
      simp only [encodeObject, encodeEntries_eq, sized, List.length_append,
        Bytes.length_ofNatLE] at hdepth hmem
      obtain ⟨depth, rfl⟩ : ∃ n, depth = n + 1 := ⟨depth - 1, by omega⟩
      exact Reader.entry_terminated (hnul e he) (fun t => ih e he t hfour depth (by omega)) t
    rw [encodeObject, List.append_assoc, decodeObject_tag, decodeTagged, Reader.number_sized]
    simp only [bind, Except.bind, List.append_assoc]
    rw [Reader.number_ofNatLE hcount, encodeEntries_eq]
    simp only [Reader.times_flatMap hinner, Entries.ofList_of_nodup hkeys]

/-- So is a payload. -/
theorem decode_encode {o : Object} (h : o.Fits) (t : Bytes) : decode (encode o ++ t) = .ok o := by
  have hmagic : objectMagic < 256 ^ 4 := by decide
  have hversion : objectVersion < 256 ^ 4 := by decide
  simp only [decode, encode, List.append_assoc, Reader.number_ofNatLE hmagic, bind, Except.bind]
  simp only [ne_eq, not_true, if_false, Reader.number_ofNatLE hversion]
  rw [decodeObject_encodeObject h _ (by simp; omega)]

/-! ### Messages -/

namespace Message

variable {m : Message} {t : Bytes}

/-- The bytes of a body. -/
def bodyBytes (m : Message) : Bytes :=
  (m.body.map Xpc.encode).getD []

theorem encode_eq (m : Message) :
    m.encode = Bytes.ofNatLE 4 magic ++ (Bytes.ofNatLE 4 m.flags.bits.toNat ++
      (Bytes.ofNatLE 8 m.bodyBytes.length ++ (Bytes.ofNatLE 8 m.id.toNat ++ m.bodyBytes))) := by
  simp [encode, bodyBytes]

theorem length_bodyBytes_lt (h : m.Fits) : m.bodyBytes.length < 2 ^ 63 := by
  rw [bodyBytes]
  cases hbody : m.body with
  | none => simp
  | some o => exact (h o hbody).2

theorem length_encode (m : Message) : m.encode.length = headerLength + m.bodyBytes.length := by
  simp [encode_eq, headerLength]
  omega

theorem decode_encode (h : m.Fits) : decode m.encode = .ok m := by
  have hmagic : magic < 256 ^ 4 := by decide
  have hflags : m.flags.bits.toNat < 256 ^ 4 := m.flags.bits.toNat_lt
  have hlength : m.bodyBytes.length < 256 ^ 8 := lt_trans (length_bodyBytes_lt h) (by decide)
  have hid : m.id.toNat < 256 ^ 8 := m.id.toNat_lt
  have hlong : ¬ m.encode.length < headerLength := by simp [length_encode]
  rw [decode, if_neg hlong, encode_eq, Reader.number_ofNatLE hmagic]
  simp only [bind, Except.bind, ne_eq, not_true, if_false, Reader.number_ofNatLE hflags,
    Reader.number_ofNatLE hlength, Reader.number_ofNatLE hid, Nat.lt_irrefl]
  obtain ⟨flags, body, id⟩ := m
  cases body with
  | none => simp [bodyBytes]
  | some o =>
    have hne : (Xpc.encode o).length ≠ 0 := by simp [Xpc.encode]
    have hdecode := Xpc.decode_encode (h o rfl).1 []
    rw [List.append_nil] at hdecode
    simp [bodyBytes, hne, hdecode, Except.map]

/-- The length of a message is known as soon as sixteen of its bytes are there. -/
theorem frameLength?_of_prefix {bs : Bytes} (h : m.Fits) (hbs : bs <+: m.encode ++ t)
    (hlong : 16 ≤ bs.length) : frameLength? bs = some m.encode.length := by
  have hlength := length_bodyBytes_lt h
  obtain ⟨u, hu⟩ := hbs
  have hstart : bs ++ u = (Bytes.ofNatLE 4 magic ++ Bytes.ofNatLE 4 m.flags.bits.toNat) ++
      (Bytes.ofNatLE 8 m.bodyBytes.length ++ (Bytes.ofNatLE 8 m.id.toNat ++ m.bodyBytes ++ t)) := by
    rw [hu, encode_eq]
    simp only [List.append_assoc]
  have hshort : ((bs ++ u).drop 8).take 8 = (bs.drop 8).take 8 := by
    rw [List.drop_append_of_le_length (by omega),
      List.take_append_of_le_length (by rw [List.length_drop]; omega)]
  have hfield : (bs.drop 8).take 8 = Bytes.ofNatLE 8 m.bodyBytes.length := by
    rw [← hshort, hstart, List.drop_left' (by simp), List.take_left' (by simp)]
  rw [frameLength?, if_neg (by omega), hfield, Bytes.toNatLE_ofNatLE_of_lt (by omega),
    length_encode, Nat.mod_eq_of_lt (by simp [headerLength]; omega)]

end Message

end Xpc

end Tether
