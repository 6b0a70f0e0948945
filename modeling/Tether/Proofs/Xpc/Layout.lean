import Mathlib
import Tether.Proofs.Xpc.Encoding

/-!
# Where the parts of a payload lie

A container is written into a buffer of its own, so that its length is known, and the padding in it
is that of each key, text and data for itself. Nothing that is written looks at where it will lie.
All the same everything lies at multiples of four, however deep it is nested, because whatever is
written is a multiple of four bytes long. The decoder of this library does not look at the length
of a container. One that does can pass over an object without reading what is in it.

A *stretch* is an object or a key with the positions between which it lies. The stretches of a
payload are found from its object inwards: what is inside of a container lies part by part behind
its tag, its length and its count.

* `dvd_length_encodeObject`: an object is a multiple of four bytes long;
* `extent?_append`: its tag and its length field tell how long it is;
* `Placed.of_mem_members`: what lies in its place has its members in theirs;
* `layout`: all of it for the stretches of a payload.
-/

namespace Tether.Xpc

variable {o : Object} {bs t : Bytes}

/-! ## Parts -/

/-- Something that is written as a whole: an object, or the key of an entry. -/
inductive Part where
  | key (text : String)
  | object (value : Object)

/-- The bytes of a part. -/
def Part.bytes : Part → Bytes
  | .key text => terminated text
  | .object o => encodeObject o

namespace Object

/-- The kind of an object. -/
def tag : Object → Tag
  | .bool _ => .bool
  | .int64 _ => .int64
  | .uint64 _ => .uint64
  | .double _ => .double
  | .date _ => .date
  | .data _ => .data
  | .string _ => .string
  | .uuid _ => .uuid
  | .array _ => .array
  | .dictionary _ => .dictionary

/-- Objects with others inside of them. -/
def IsContainer : Object → Prop
  | .array _ => True
  | .dictionary _ => True
  | _ => False

/-- The parts right inside of an object, in the order in which they are written. -/
def parts : Object → List Part
  | .array items => items.map .object
  | .dictionary entries => entries.flatMap fun e => [.key e.1, .object e.2]
  | _ => []

/-- How many members a container has. -/
def size : Object → Nat
  | .array items => items.length
  | .dictionary entries => entries.length
  | _ => 0

/-- The length that an object announces: of data without its padding, of a text with its
terminator, of a container from its count on. -/
def announced : Object → Nat
  | .data bytes => bytes.length
  | .string text => (Bytes.ofString text).length + 1
  | .array items => 4 + (encodeItems items).length
  | .dictionary entries => 4 + (encodeEntries entries).length
  | _ => 0

/-- The lengths and counts of an object, and of all objects in it, have 32 bits at most. -/
inductive InRange : Object → Prop where
  | intro {o : Object} (hlength : o.announced < 2 ^ 32) (hcount : o.size < 2 ^ 32)
    (hparts : ∀ p, .object p ∈ o.parts → InRange p) : InRange o

theorem flatMap_parts_array (items : List Object) :
    (Object.array items).parts.flatMap Part.bytes = encodeItems items := by
  rw [parts, List.flatMap_map, encodeItems_eq]
  rfl

theorem flatMap_parts_dictionary (entries : List (String × Object)) :
    (Object.dictionary entries).parts.flatMap Part.bytes = encodeEntries entries := by
  rw [parts, List.flatMap_assoc, encodeEntries_eq]
  simp [Part.bytes]

/-- A container is its tag, its length, its count and its parts. -/
theorem IsContainer.encodeObject_eq (h : o.IsContainer) :
    encodeObject o = o.tag.toBytes ++ (Bytes.ofNatLE 4 o.announced ++
      (Bytes.ofNatLE 4 o.size ++ o.parts.flatMap Part.bytes)) := by
  cases o with
  | array items => simp [encodeObject, sized, tag, announced, size, flatMap_parts_array]
  | dictionary entries => simp [encodeObject, sized, tag, announced, size, flatMap_parts_dictionary]
  | _ => exact h.elim

theorem IsContainer.announced_eq (h : o.IsContainer) :
    o.announced = 4 + (o.parts.flatMap Part.bytes).length := by
  cases o with
  | array items => rw [flatMap_parts_array, announced]
  | dictionary entries => rw [flatMap_parts_dictionary, announced]
  | _ => exact h.elim

theorem parts_of_not_isContainer (h : ¬ o.IsContainer) : o.parts = [] := by
  cases o with
  | array items => exact absurd trivial h
  | dictionary entries => exact absurd trivial h
  | _ => rfl

end Object

/-! ## Alignment -/

theorem dvd_length_padded (bs : Bytes) : 4 ∣ (padded bs).length := by
  rw [padded, List.length_append, List.length_replicate, padding]
  omega

@[simp] theorem Tag.length_toBytes (tag : Tag) : tag.toBytes.length = 4 :=
  Bytes.length_ofNatLE 4 tag.code

mutual

/-- An object is a multiple of four bytes long. -/
theorem dvd_length_encodeObject : ∀ o, 4 ∣ (encodeObject o).length
  | .bool _ => by simp [encodeObject]
  | .int64 _ => by simp [encodeObject]
  | .uint64 _ => by simp [encodeObject]
  | .double _ => by simp [encodeObject]
  | .date _ => by simp [encodeObject]
  | .uuid _ => by simp [encodeObject, Uuid.toBytes]
  | .data bytes => by
    have hbytes := dvd_length_padded bytes
    simp only [encodeObject, List.length_append, Tag.length_toBytes, Bytes.length_ofNatLE]
    omega
  | .string text => by
    have htext := dvd_length_padded (Bytes.ofString text ++ [0])
    simp only [encodeObject, terminated, List.length_append, Tag.length_toBytes,
      Bytes.length_ofNatLE] at htext ⊢
    omega
  | .array items => by
    have hitems := dvd_length_encodeItems items
    simp only [encodeObject, sized, List.length_append, Tag.length_toBytes, Bytes.length_ofNatLE]
    omega
  | .dictionary entries => by
    have hentries := dvd_length_encodeEntries entries
    simp only [encodeObject, sized, List.length_append, Tag.length_toBytes, Bytes.length_ofNatLE]
    omega

theorem dvd_length_encodeItems : ∀ items, 4 ∣ (encodeItems items).length
  | [] => by simp [encodeItems]
  | o :: items => by
    rw [encodeItems, List.length_append]
    exact Nat.dvd_add (dvd_length_encodeObject o) (dvd_length_encodeItems items)

theorem dvd_length_encodeEntries : ∀ entries, 4 ∣ (encodeEntries entries).length
  | [] => by simp [encodeEntries]
  | (key, o) :: entries => by
    rw [encodeEntries, List.length_append, List.length_append]
    exact Nat.dvd_add (Nat.dvd_add (dvd_length_padded _) (dvd_length_encodeObject o))
      (dvd_length_encodeEntries entries)

end

theorem Part.dvd_length_bytes (p : Part) : 4 ∣ p.bytes.length := by
  cases p with
  | key text => exact dvd_length_padded _
  | object o => exact dvd_length_encodeObject o

/-! ## Passing over an object -/

/-- Whether an object of this kind announces its length. -/
def Tag.hasLength : Tag → Bool
  | .data => true
  | .string => true
  | .array => true
  | .dictionary => true
  | _ => false

/-- How many bytes an object of this kind takes, if it announces a length. -/
def Tag.extent (length : Nat) : Tag → Nat
  | .bool => 8
  | .int64 => 12
  | .uint64 => 12
  | .double => 12
  | .date => 12
  | .uuid => 20
  | .data => 8 + (length + padding length)
  | .string => 8 + (length + padding length)
  | .array => 8 + length
  | .dictionary => 8 + length

/-- The number behind a tag. -/
def lengthField (bs : Bytes) : Nat :=
  Bytes.toNatLE ((bs.drop 4).take 4)

/-- The number behind a length. -/
def countField (bs : Bytes) : Nat :=
  Bytes.toNatLE ((bs.drop 8).take 4)

/-- How many bytes the object in front takes, if its tag is known; nothing else than the tag and
the length behind it is looked at. -/
def extent? (bs : Bytes) : Option Nat :=
  (Tag.ofCode? (Bytes.toNatLE (bs.take 4))).map (Tag.extent (lengthField bs))

/-- Where a reader comes to that passes over the object at a position. -/
def skip? (bs : Bytes) (position : Nat) : Option Nat :=
  (extent? (bs.drop position)).map (position + ·)

theorem ofCode?_append (tag : Tag) (t : Bytes) :
    Tag.ofCode? (Bytes.toNatLE ((tag.toBytes ++ t).take 4)) = some tag := by
  have hcode : tag.code < 256 ^ 4 := by cases tag <;> decide
  rw [List.take_left' tag.length_toBytes, Tag.toBytes, Bytes.toNatLE_ofNatLE_of_lt hcode,
    Tag.ofCode?_code]

theorem lengthField_append (tag : Tag) {n : Nat} (h : n < 2 ^ 32) (t : Bytes) :
    lengthField (tag.toBytes ++ (Bytes.ofNatLE 4 n ++ t)) = n := by
  rw [lengthField, List.drop_left' tag.length_toBytes, List.take_left' (Bytes.length_ofNatLE 4 n),
    Bytes.toNatLE_ofNatLE_of_lt h]

theorem countField_append (tag : Tag) (length : Nat) {n : Nat} (h : n < 2 ^ 32) (t : Bytes) :
    countField (tag.toBytes ++ (Bytes.ofNatLE 4 length ++ (Bytes.ofNatLE 4 n ++ t))) = n := by
  rw [countField, ← List.append_assoc, List.drop_left' (by simp),
    List.take_left' (Bytes.length_ofNatLE 4 n), Bytes.toNatLE_ofNatLE_of_lt h]

namespace Object

/-- What an object announces comes right behind its tag. -/
theorem exists_eq_append (o : Object) : ∃ rest, encodeObject o = o.tag.toBytes ++ rest ∧
    (o.tag.hasLength → ∃ body, rest = Bytes.ofNatLE 4 o.announced ++ body) := by
  cases o with
  | data bytes =>
    exact ⟨_, by rw [encodeObject, List.append_assoc]; rfl, fun _ => ⟨_, rfl⟩⟩
  | string text =>
    exact ⟨_, by rw [encodeObject, List.append_assoc]; rfl, fun _ => ⟨_, rfl⟩⟩
  | array items =>
    exact ⟨_, IsContainer.encodeObject_eq trivial, fun _ => ⟨_, rfl⟩⟩
  | dictionary entries =>
    exact ⟨_, IsContainer.encodeObject_eq trivial, fun _ => ⟨_, rfl⟩⟩
  | _ => exact ⟨_, rfl, fun h => by contradiction⟩

theorem length_encodeObject (o : Object) :
    (encodeObject o).length = o.tag.extent o.announced := by
  cases o with
  | data bytes =>
    simp [encodeObject, padded, tag, announced, Tag.extent]
    omega
  | string text =>
    simp [encodeObject, terminated, padded, tag, announced, Tag.extent]
    omega
  | array items =>
    simp [encodeObject, sized, tag, announced, Tag.extent]
    omega
  | dictionary entries =>
    simp [encodeObject, sized, tag, announced, Tag.extent]
    omega
  | uuid value => simp [encodeObject, Uuid.toBytes, tag, Tag.extent]
  | _ => simp [encodeObject, tag, Tag.extent]

end Object

theorem Tag.extent_of_not_hasLength {tag : Tag} (h : ¬ tag.hasLength) (m n : Nat) :
    tag.extent m = tag.extent n := by
  cases tag with
  | data => exact absurd rfl h
  | string => exact absurd rfl h
  | array => exact absurd rfl h
  | dictionary => exact absurd rfl h
  | _ => rfl

/-- The tag of an object and its length tell how many bytes it takes, whatever is behind it. -/
theorem extent?_append (h : o.announced < 2 ^ 32) (t : Bytes) :
    extent? (encodeObject o ++ t) = some (encodeObject o).length := by
  obtain ⟨rest, heq, hbody⟩ := o.exists_eq_append
  have hextent : o.tag.extent (lengthField (encodeObject o ++ t)) = o.tag.extent o.announced := by
    by_cases hlength : o.tag.hasLength
    · obtain ⟨body, rfl⟩ := hbody hlength
      rw [heq, List.append_assoc, List.append_assoc, lengthField_append _ h]
    · -- The number behind the tag is no length, and nothing depends on it.
      exact Tag.extent_of_not_hasLength hlength _ _
  rw [extent?, o.length_encodeObject, ← hextent]
  generalize lengthField (encodeObject o ++ t) = length
  rw [heq, List.append_assoc, ofCode?_append]
  rfl

/-! ## Stretches -/

/-- A part of a payload, from one position up to another. -/
structure Stretch where
  part : Part
  start : Nat
  stop : Nat

/-- Parts that lie one right behind the other, the first one at a position. -/
def layOut (start : Nat) : List Part → List Stretch
  | [] => []
  | p :: ps => ⟨p, start, start + p.bytes.length⟩ :: layOut (start + p.bytes.length) ps

/-- The parts right inside of a part. -/
def Part.inner : Part → List Part
  | .key _ => []
  | .object o => o.parts

/-- What is right inside of a stretch: behind a tag, a length and a count. -/
def Stretch.members (s : Stretch) : List Stretch :=
  layOut (s.start + 12) s.part.inner

/-- The stretches of the payload of an object: the object itself, and what is right inside of one
of them. -/
inductive Nested (o : Object) : Stretch → Prop where
  | root : Nested o ⟨.object o, 8, 8 + (encodeObject o).length⟩
  | member {s t : Stretch} (hs : Nested o s) (ht : t ∈ s.members) : Nested o t

/-- Stretches that fill the room between two positions, one right behind the other. -/
def Tiles (start stop : Nat) : List Stretch → Prop
  | [] => start = stop
  | s :: ss => s.start = start ∧ Tiles s.stop stop ss

theorem tiles_layOut (start : Nat) (ps : List Part) :
    Tiles start (start + (ps.flatMap Part.bytes).length) (layOut start ps) := by
  induction ps generalizing start with
  | nil => exact rfl
  | cons p ps ih =>
    refine ⟨rfl, ?_⟩
    rw [List.flatMap_cons, List.length_append, ← Nat.add_assoc]
    exact ih (start + p.bytes.length)

/-- A stretch of these bytes that lies where it says, at a multiple of four. -/
structure Placed (bs : Bytes) (s : Stretch) : Prop where
  aligned : 4 ∣ s.start
  stop_eq : s.stop = s.start + s.part.bytes.length
  exists_eq : ∃ front behind, bs = front ++ (s.part.bytes ++ behind) ∧ front.length = s.start
  inRange : ∀ o, s.part = .object o → o.InRange

/-- Parts that were written one behind the other lie in their places. -/
theorem placed_of_mem_layOut {ps : List Part} (front behind : Bytes) {s : Stretch}
    (hbs : bs = front ++ (ps.flatMap Part.bytes ++ behind)) (haligned : 4 ∣ front.length)
    (hps : ∀ o, .object o ∈ ps → o.InRange) (hs : s ∈ layOut front.length ps) : Placed bs s := by
  induction ps generalizing front with
  | nil => cases hs
  | cons p ps ih =>
    rw [List.flatMap_cons, List.append_assoc] at hbs
    rcases List.mem_cons.1 hs with rfl | hs
    · exact ⟨haligned, rfl, ⟨front, _, hbs, rfl⟩,
        fun o ho => hps o (List.mem_cons.2 (.inl ho.symm))⟩
    · refine ih (front ++ p.bytes) (by rw [hbs, List.append_assoc]) ?_
        (fun o ho => hps o (List.mem_cons_of_mem p ho)) (by rwa [List.length_append])
      rw [List.length_append]
      exact Nat.dvd_add haligned p.dvd_length_bytes

namespace Placed

variable {s u : Stretch}

/-- From its start on there are the bytes of a stretch, and then what is from its end on. -/
theorem drop_eq (h : Placed bs s) : bs.drop s.start = s.part.bytes ++ bs.drop s.stop := by
  obtain ⟨front, behind, rfl, hfront⟩ := h.exists_eq
  rw [List.drop_left' hfront, h.stop_eq, ← hfront, List.drop_length_add_append,
    List.drop_left]

/-- The members of what lies in its place lie in theirs. -/
theorem of_mem_members (h : Placed bs s) (hu : u ∈ s.members) : Placed bs u := by
  obtain ⟨part, start, stop⟩ := s
  obtain ⟨front, behind, hbs, rfl⟩ := h.exists_eq
  cases part with
  | key text => cases hu
  | object o =>
    by_cases hcontainer : o.IsContainer
    · -- The members lie behind a head of three words, which keeps them aligned.
      let head := o.tag.toBytes ++ (Bytes.ofNatLE 4 o.announced ++ Bytes.ofNatLE 4 o.size)
      have hhead : head.length = 12 := by simp [head]
      have hlength : (front ++ head).length = front.length + 12 := by
        rw [List.length_append, hhead]
      obtain ⟨-, -, hparts⟩ := h.inRange o rfl
      refine placed_of_mem_layOut (front ++ head) behind ?_ ?_ hparts (by rwa [hlength])
      · rw [hbs, Part.bytes, hcontainer.encodeObject_eq]
        simp [head]
      · rw [hlength]
        exact Nat.dvd_add h.aligned (by decide)
    · rw [Stretch.members, Part.inner, Object.parts_of_not_isContainer hcontainer] at hu
      cases hu

/-- An object in its place is passed over by its tag and its length. -/
theorem skip?_eq (h : Placed bs s) (ho : s.part = .object o) :
    skip? bs s.start = some s.stop := by
  obtain ⟨hlength, -, -⟩ := h.inRange o ho
  rw [skip?, h.drop_eq, h.stop_eq, ho, Part.bytes, extent?_append hlength]
  rfl

/-- The length of a container in its place is how far it is from its count to its end, its count is
how many members it has, and these fill the room behind it. -/
theorem container (h : Placed bs s) (ho : s.part = .object o) (hcontainer : o.IsContainer) :
    s.start + 8 + lengthField (bs.drop s.start) = s.stop ∧
      countField (bs.drop s.start) = o.size ∧ Tiles (s.start + 12) s.stop s.members := by
  obtain ⟨hlength, hcount, -⟩ := h.inRange o ho
  have hstop : s.start + 8 + o.announced = s.stop := by
    rw [h.stop_eq, ho, Part.bytes, o.length_encodeObject]
    cases o with
    | array items => exact Nat.add_assoc _ _ _
    | dictionary entries => exact Nat.add_assoc _ _ _
    | _ => exact hcontainer.elim
  have htiles := tiles_layOut (s.start + 12) o.parts
  rw [hcontainer.announced_eq] at hstop
  rw [show s.start + 12 + (o.parts.flatMap Part.bytes).length = s.stop by omega] at htiles
  rw [h.drop_eq, ho, Part.bytes, hcontainer.encodeObject_eq]
  simp only [List.append_assoc]
  rw [lengthField_append _ hlength, countField_append _ _ hcount, hcontainer.announced_eq]
  exact ⟨hstop, rfl, by rwa [Stretch.members, ho]⟩

end Placed

theorem placed_of_nested {s : Stretch} (h : o.InRange) (hs : Nested o s) :
    Placed (encode o) s := by
  induction hs with
  | root =>
    -- In front of the object there are the two words that every payload starts with.
    refine ⟨⟨2, rfl⟩, rfl, ⟨_, [], by rw [Part.bytes, List.append_nil, encode], by simp⟩, ?_⟩
    rintro p ⟨rfl⟩
    exact h
  | member _ hmember ih => exact ih.of_mem_members hmember

/-- For every object whose lengths and counts have 32 bits: its payload is a multiple of four bytes
long, and passing over the object comes to the end of it. Every object and every key that is nested
in it lies at a multiple of four. Passing over an object comes to where its stretch ends. The length
of a container says how far it is from its count to its end, and its members lie between these one
right behind the other, so that where one ends the next one starts. -/
theorem layout (h : o.InRange) :
    4 ∣ (encode o).length ∧ skip? (encode o) 8 = some (encode o).length ∧
      ∀ s, Nested o s →
        4 ∣ s.start ∧ (encode o).drop s.start = s.part.bytes ++ (encode o).drop s.stop ∧
          ∀ p, s.part = .object p →
            skip? (encode o) s.start = some s.stop ∧
              (p.IsContainer →
                s.start + 8 + lengthField ((encode o).drop s.start) = s.stop ∧
                  countField ((encode o).drop s.start) = p.size ∧
                  Tiles (s.start + 12) s.stop s.members) := by
  have hlength : (encode o).length = 8 + (encodeObject o).length := by
    rw [encode, List.length_append, List.length_append, Bytes.length_ofNatLE,
      Bytes.length_ofNatLE]
  refine ⟨?_, ?_, fun s hs => ?_⟩
  · rw [hlength]
    exact Nat.dvd_add (by decide) (dvd_length_encodeObject o)
  · rw [hlength]
    exact (placed_of_nested h .root).skip?_eq rfl
  · have hplaced := placed_of_nested h hs
    exact ⟨hplaced.aligned, hplaced.drop_eq, fun p hp =>
      ⟨hplaced.skip?_eq hp, fun hcontainer => hplaced.container hp hcontainer⟩⟩

/-- A text in an array in a dictionary. None of the lengths is a multiple of four, and one of the
keys has a zero in it. -/
def layered : Object :=
  .dictionary [("a\x00b", .data [1, 2, 3, 4, 5]), ("k", .array [.string "abcd", .bool true])]

theorem inRange_layered : layered.InRange := by
  have hleaf {o : Object} (hlength : o.announced < 2 ^ 32) (hsize : o.size < 2 ^ 32)
      (hparts : o.parts = []) : o.InRange :=
    .intro hlength hsize fun p hp => absurd hp (hparts ▸ List.not_mem_nil)
  refine .intro (by decide) (by decide) fun p hp => ?_
  simp only [layered, Object.parts, List.flatMap_cons, List.flatMap_nil, List.cons_append,
    List.nil_append, List.mem_cons, List.not_mem_nil, reduceCtorEq, Part.object.injEq, false_or,
    or_false] at hp
  rcases hp with rfl | rfl
  · exact hleaf (by decide) (by decide) rfl
  · refine .intro (by decide) (by decide) fun p hp => ?_
    simp only [Object.parts, List.map_cons, List.map_nil, List.mem_cons, List.not_mem_nil,
      Part.object.injEq, or_false] at hp
    rcases hp with rfl | rfl
    · exact hleaf (by decide) (by decide) rfl
    · exact hleaf (by decide) (by decide) rfl

/-- The array is the last value of the dictionary, and the text is in front of the boolean. -/
theorem layout_layered :
    layered.InRange ∧ 4 ∣ (encode layered).length ∧ skip? (encode layered) 8 = some 80 ∧
      skip? (encode layered) 44 = some 80 ∧ skip? (encode layered) 56 = some 72 ∧
      44 + 8 + lengthField ((encode layered).drop 44) = 80 := by
  have harray : Nested layered ⟨.object (.array [.string "abcd", .bool true]), 44, 80⟩ :=
    .member .root (.tail _ (.tail _ (.tail _ (.head _))))
  have htext : Nested layered ⟨.object (.string "abcd"), 56, 72⟩ := .member harray (.head _)
  obtain ⟨hlength, hskip, hnested⟩ := layout inRange_layered
  obtain ⟨-, -, harray⟩ := hnested _ harray
  obtain ⟨-, -, htext⟩ := hnested _ htext
  obtain ⟨hskip', hcontainer⟩ := harray _ rfl
  obtain ⟨hskip'', -⟩ := htext _ rfl
  exact ⟨inRange_layered, hlength, hskip, hskip', hskip'', (hcontainer trivial).1⟩

end Tether.Xpc
