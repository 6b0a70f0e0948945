import Tether.Proofs.Afc.Replies
import Tether.Proofs.Entries
import Tether.Proofs.Text

/-!
# Attributes

Attributes come as strings with a zero byte behind each, keys and values in turn. They are read in
three passes: the bytes are split, empty pieces are left out, and what remains is paired up. Leaving
empty pieces out is right for a list of names. In a list of attributes it loses each value that is
empty, and from there on values stand in the place of keys.

* `strings_terminated`: the strings come back, without the empty ones;
* `pairUp_inTurn`, `pairUp_shifted`: pairs come back, and what they become one string further on;
* `reads_attributes`: all attributes are read just where no value is empty.
-/

namespace Tether.Afc

/-! ### Strings -/

/-- The pieces between zero bytes, where there is one behind each string. -/
theorem splitOnP_terminated {parts : List String} (h : ∀ s ∈ parts, '\x00' ∉ s.toList) :
    (terminated parts).splitOnP (· = 0) = parts.map Bytes.ofString ++ [[]] := by
  induction parts with
  | nil => rfl
  | cons s parts ih =>
    obtain ⟨hs, hparts⟩ := List.forall_mem_cons.1 h
    have hzero := Bytes.zero_notMem_ofString hs
    rw [terminated, List.flatMap_cons, List.append_assoc, List.singleton_append,
      List.splitOnP_append_cons_of_forall_mem, ← terminated, ih hparts, List.map_cons,
      List.cons_append]
    · intro b hb
      simpa using ne_of_mem_of_not_mem hb hzero
    · simp

/-- Strings are read back, but for the empty ones. -/
theorem strings_terminated {parts : List String} (h : ∀ s ∈ parts, '\x00' ∉ s.toList) :
    strings (terminated parts) = parts.filter (· ≠ "") := by
  have hlossy : Text.lossy ∘ Bytes.ofString = id := funext Text.lossy_ofString
  rw [strings, splitOnP_terminated h, List.filter_append, List.filter_map, List.map_append,
    List.map_map, hlossy]
  simp [Function.comp_def, Bytes.isEmpty_ofString]

/-! ### Pairs -/

/-- The strings of these pairs, each key in front of its value. -/
def inTurn (pairs : Entries String) : List String :=
  pairs.flatMap fun p => [p.1, p.2]

@[simp] theorem inTurn_cons (p : String × String) (pairs : Entries String) :
    inTurn (p :: pairs) = p.1 :: p.2 :: inTurn pairs :=
  rfl

theorem pairUp_inTurn_append (pairs : Entries String) (rest : List String) :
    pairUp (inTurn pairs ++ rest) = pairs ++ pairUp rest := by
  induction pairs with
  | nil => rfl
  | cons p pairs ih => simp only [inTurn_cons, List.cons_append, pairUp, ih]

theorem pairUp_inTurn (pairs : Entries String) : pairUp (inTurn pairs) = pairs := by
  simpa [pairUp] using pairUp_inTurn_append pairs []

/-- One string further on, each value stands with the key behind it. -/
theorem pairUp_cons_inTurn (key : String) (pairs : Entries String) :
    pairUp (key :: inTurn pairs) = (key :: pairs.map Prod.snd).zip pairs.keys := by
  induction pairs generalizing key with
  | nil => rfl
  | cons p pairs ih =>
    simp only [inTurn_cons, pairUp, ih, Entries.keys, List.map_cons, List.zip_cons_cons]

theorem two_mul_length_pairUp_le (parts : List String) :
    2 * (pairUp parts).length ≤ parts.length := by
  fun_induction pairUp parts with
  | case1 key value rest ih =>
    simp only [List.length_cons]
    omega
  | case2 => simp

/-! ### Lists of attributes -/

theorem forall_mem_inTurn {P : String → Prop} {pairs : Entries String} :
    (∀ s ∈ inTurn pairs, P s) ↔ ∀ p ∈ pairs, P p.1 ∧ P p.2 := by
  rw [inTurn, List.forall_mem_flatMap]
  simp only [List.forall_mem_cons, List.not_mem_nil, false_imp_iff, implies_true, and_true]

theorem length_inTurn (pairs : Entries String) : (inTurn pairs).length = 2 * pairs.length := by
  induction pairs with
  | nil => rfl
  | cons p pairs ih =>
    simp only [inTurn_cons, List.length_cons, ih]
    omega

/-- The bytes of a list of attributes. -/
def encoded (pairs : Entries String) : Bytes :=
  terminated (inTurn pairs)

/-- The strings that are not left out. -/
def kept (pairs : Entries String) : List String :=
  (inTurn pairs).filter (· ≠ "")

/-- Keys that are there and all different, and no zero in any string. -/
structure Listed (pairs : Entries String) : Prop where
  nodup : pairs.keys.Nodup
  key_ne : ∀ p ∈ pairs, p.1 ≠ ""
  clean : ∀ p ∈ pairs, '\x00' ∉ p.1.toList ∧ '\x00' ∉ p.2.toList

variable {pairs pre post : Entries String} {key : String}

theorem kept_append (pairs more : Entries String) :
    kept (pairs ++ more) = kept pairs ++ kept more := by
  rw [kept, inTurn, List.flatMap_append, List.filter_append]
  rfl

theorem kept_of_full (hkey : ∀ p ∈ pairs, p.1 ≠ "") (hvalue : ∀ p ∈ pairs, p.2 ≠ "") :
    kept pairs = inTurn pairs := by
  rw [kept, List.filter_eq_self, forall_mem_inTurn]
  intro p hp
  simpa using ⟨hkey p hp, hvalue p hp⟩

theorem attributes_encoded (h : Listed pairs) :
    attributes (encoded pairs) = Entries.ofList (pairUp (kept pairs)) := by
  rw [attributes, encoded, strings_terminated (forall_mem_inTurn.2 h.clean), kept]

/-- Where no value is empty the attributes are read as they are. -/
theorem attributes_of_full (h : Listed pairs) (hvalue : ∀ p ∈ pairs, p.2 ≠ "") :
    attributes (encoded pairs) = pairs := by
  rw [attributes_encoded h, kept_of_full h.key_ne hvalue, pairUp_inTurn,
    Entries.ofList_of_nodup h.nodup]

/-- An empty value costs an attribute, for there are too few strings left for all of them. -/
theorem length_attributes_lt (h : Listed pairs) {p : String × String} (hp : p ∈ pairs)
    (hempty : p.2 = "") : (attributes (encoded pairs)).length < pairs.length := by
  have hfewer : (kept pairs).length < (inTurn pairs).length := by
    rw [kept, List.length_filter_lt_length_iff_exists]
    exact ⟨p.2, List.mem_flatMap.2 ⟨p, hp, by simp⟩, by simp [hempty]⟩
  have hpairs := two_mul_length_pairUp_le (kept pairs)
  rw [length_inTurn] at hfewer
  calc (attributes (encoded pairs)).length
    _ ≤ (pairUp (kept pairs)).length := by
      rw [attributes_encoded h]
      exact Entries.length_ofList_le _
    _ < pairs.length := by omega

/-- All attributes are read, and nothing else, just where no value is empty. -/
theorem mem_attributes_iff (h : Listed pairs) :
    (∀ p : String × String, p ∈ attributes (encoded pairs) ↔ p ∈ pairs) ↔
      ∀ p ∈ pairs, p.2 ≠ "" := by
  refine ⟨fun hmem p hp hempty => ?_, fun hvalue p => by rw [attributes_of_full h hvalue]⟩
  -- All of the pairs would be among fewer attributes than there are pairs.
  have hnodup : pairs.Nodup := List.Nodup.of_map Prod.fst h.nodup
  have hle := (hnodup.subperm fun q hq => (hmem q).2 hq).length_le
  exact absurd (length_attributes_lt h hp hempty) (Nat.not_lt.2 hle)

/-- Behind an empty value each value stands under the key that follows it. -/
theorem attributes_shifted (h : Listed (pre ++ (key, "") :: post)) (hpre : ∀ p ∈ pre, p.2 ≠ "")
    (hpost : ∀ p ∈ post, p.2 ≠ "") :
    attributes (encoded (pre ++ (key, "") :: post)) =
      Entries.ofList (pre ++ (key :: post.map Prod.snd).zip post.keys) := by
  have hkey := h.key_ne
  simp only [List.mem_append, List.mem_cons] at hkey
  have hkept : kept ((key, "") :: post) = key :: inTurn post := by
    have hne : key ≠ "" := hkey _ (.inr (.inl rfl))
    rw [← kept_of_full (fun p hp => hkey p (.inr (.inr hp))) hpost, kept, inTurn_cons,
      List.filter_cons_of_pos (by simpa using hne), List.filter_cons_of_neg (by simp), kept]
  rw [attributes_encoded h, kept_append, hkept,
    kept_of_full (fun p hp => hkey p (.inl hp)) hpre, pairUp_inTurn_append, pairUp_cons_inTurn]

/-! ### Calls that read them -/

namespace Client

variable {s : Client} {p : Packet} {rest : Bytes}

/-- What a call makes of the attributes in the reply to its request. -/
theorem result_inquiry {α : Type} (read : Entries String → Except DeviceError α) (a : Ask)
    (hs : s.Ready) (hp : p.IsReply) (hanswer : answer p = .ok p)
    (hunread : s.unread = p.toBytes ++ rest) :
    (request a.operation a.lead a.content >>= fun q =>
        Call.ofExcept (read (attributes q.content))).result s =
      (read (attributes p.content)).mapError .failed := by
  refine Call.Ends.of_result (P := fun r _ => r = (read (attributes p.content)).mapError .failed) ?_
  rw [Call.ends_bind]
  refine (ends_request_of_unread a hp hunread).mono ?_ ?_
  · rintro q t ⟨hq, -⟩
    rw [eq_of_answer hq]
    cases read (attributes p.content) <;> rfl
  · rintro _ t ⟨e, rfl, ⟨he, -⟩ | ⟨-, h⟩⟩
    · cases hanswer.symm.trans he
    · exact absurd hs h.wasUnable

/-- The attributes that a file or a device is described by are those that were listed just where
no value is empty. Each empty value is left out like a string that was never there, so that behind
it values become keys and keys become values. -/
theorem reads_attributes (h : Listed pairs) :
    attributes (encoded pairs) = Entries.ofList (pairUp (kept pairs)) ∧
    ((∀ p ∈ pairs, p.2 ≠ "") → attributes (encoded pairs) = pairs) ∧
    ((∀ p : String × String, p ∈ attributes (encoded pairs) ↔ p ∈ pairs) ↔
      ∀ p ∈ pairs, p.2 ≠ "") ∧
    (∀ (pre post : Entries String) (key : String), pairs = pre ++ (key, "") :: post →
      (∀ p ∈ pre, p.2 ≠ "") → (∀ p ∈ post, p.2 ≠ "") →
        attributes (encoded pairs) =
          Entries.ofList (pre ++ (key :: post.map Prod.snd).zip post.keys)) ∧
    (∀ (s : Client) (p : Packet) (rest : Bytes), s.Ready → p.IsReply → answer p = .ok p →
      p.content = encoded pairs → s.unread = p.toBytes ++ rest →
        deviceInfo.result s =
          (DeviceInfo.ofAttributes (attributes (encoded pairs))).mapError .failed ∧
        ∀ path : String, (fileInfo path).result s =
          (FileInfo.ofAttributes (attributes (encoded pairs))).mapError .failed) := by
  refine ⟨attributes_encoded h, attributes_of_full h, mem_attributes_iff h, ?_, ?_⟩
  · rintro pre post key rfl hpre hpost
    exact attributes_shifted h hpre hpost
  · intro s p rest hs hp hanswer hcontent hunread
    rw [← hcontent]
    exact ⟨result_inquiry _ ⟨.getDeviceInfo, [], []⟩ hs hp hanswer hunread, fun path =>
      result_inquiry _ ⟨.getFileInfo, Bytes.ofString path, []⟩ hs hp hanswer hunread⟩

/-- What is asked of a device, and a note that is empty. -/
def noted : Entries String :=
  [("Model", "iPhone"), ("Note", ""), ("FSTotalBytes", "1"), ("FSFreeBytes", "2"),
    ("FSBlockSize", "3")]

theorem listed_noted : Listed noted where
  nodup := by decide
  key_ne := by decide
  clean := by decide

/-- The reply with these attributes. -/
def noting : Packet :=
  .make .data 0 [] (encoded noted)

theorem reads_attributes_noted :
    Listed noted ∧
      attributes (encoded noted) = [("Model", "iPhone"), ("Note", "FSTotalBytes"),
        ("1", "FSFreeBytes"), ("2", "FSBlockSize")] ∧
      deviceInfo.result (quiet.hear noting.toBytes) = .error (.failed .afcMissingAttribute) := by
  obtain ⟨-, -, -, hshifted, hcalls⟩ := reads_attributes listed_noted
  have hread : attributes (encoded noted) = [("Model", "iPhone"), ("Note", "FSTotalBytes"),
      ("1", "FSFreeBytes"), ("2", "FSBlockSize")] :=
    (hshifted [("Model", "iPhone")] [("FSTotalBytes", "1"), ("FSFreeBytes", "2"),
      ("FSBlockSize", "3")] "Note" rfl (by decide) (by decide)).trans (by decide)
  refine ⟨listed_noted, hread, ?_⟩
  have hdevice := (hcalls (quiet.hear noting.toBytes) noting [] (ready_quiet.hear _)
    (Packet.isReply_make (by decide +kernel)) rfl rfl (List.append_nil _).symm).1
  rw [hdevice, hread]
  rfl

/-- Attributes do not all come back. -/
theorem not_reads_attributes_noted :
    ¬ ∀ pairs : Entries String, Listed pairs →
      ∀ p : String × String, p ∈ attributes (encoded pairs) ↔ p ∈ pairs := by
  intro h
  have hvalue := (mem_attributes_iff listed_noted).1 (h noted listed_noted)
  exact hvalue ("Note", "") (by decide) rfl

end Client

end Tether.Afc
