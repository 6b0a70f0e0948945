import Tether.Proofs.Call
import Tether.Xpc.Encoding

/-!
# Reading at a position

A reader of the encoding hands on what is left of the input. It may as well keep the whole buffer
and a position in it that moves on. Then there is something that can go wrong apart from what the
bytes say: behind the end of the buffer no slice begins, and the room that is left there is no
number. Such a *walk* over a buffer stops with `Slip.outOfRange` when it comes to this, and keeps
in mind how far it ever was.

It never is out of range. Walks and readers are put together in the same ways, and in each of them
a walk *follows* a reader: it stays in the buffer, and finds at its position what the reader finds
in the bytes from there on.

* `Reader.andThen`, `tagged`: the reader of objects, as a composition of readers;
* `Compatible.tagged`: what all its parts have in common, it has as well;
* `Walk.Follows`: a walk stays in the buffer and agrees with a reader;
* `Walk.follows_decodeObject`, `Walk.ends_decode`: the walks over objects and payloads do.
-/

namespace Tether.Xpc

/-! ## Readers put together -/

namespace Reader

variable {α β : Type}

/-- Reads nothing. -/
def done (a : α) : Reader α :=
  fun bs => .ok (a, bs)

/-- Reads nothing, and fails if there is no value. -/
def check (r : Except DeviceError α) : Reader α :=
  fun bs => r.map (·, bs)

/-- One reader after the other. -/
def andThen (read : Reader α) (next : α → Reader β) : Reader β :=
  fun bs => read bs >>= fun x => next x.1 x.2

theorem times_succ (read : Reader α) (n : Nat) :
    times read (n + 1) =
      read.andThen fun a => (times read n).andThen fun as => done (a :: as) := by
  funext bs
  simp only [times, andThen, bind, Except.bind]
  rcases read bs with _ | ⟨a, rest⟩
  · rfl
  · dsimp only
    cases times read n rest <;> rfl

theorem entry_eq (read : Reader α) :
    entry read = cString.andThen fun key => read.andThen fun value => done (key, value) := by
  funext bs
  simp only [entry, andThen, bind, Except.bind]
  rcases cString bs with _ | ⟨key, rest⟩
  · rfl
  · dsimp only
    cases read rest <;> rfl

theorem check_andThen (r : Except DeviceError α) (next : α → Reader β) :
    (check r).andThen next = fun bs => r >>= fun a => next a bs := by
  cases r <;> rfl

end Reader

open Reader in
/-- What follows a tag, as a composition of readers. -/
def tagged (inner : Reader Object) : Tag → Reader Object
  | .bool => (take 4).andThen fun field => done (.bool (field.head? != some 0))
  | .int64 => (number 8).andThen fun n => done (.int64 (UInt64.ofNat n).toInt64)
  | .uint64 => (number 8).andThen fun n => done (.uint64 (UInt64.ofNat n))
  | .double => (number 8).andThen fun n => done (.double ⟨UInt64.ofNat n⟩)
  | .date => (number 8).andThen fun n => done (.date n)
  | .data => (number 4).andThen fun n => (takePadded n).andThen fun field => done (.data field)
  | .string =>
    (number 4).andThen fun n => (takePadded n).andThen fun field =>
      (check (fieldText field)).andThen fun s => done (.string s)
  | .uuid => (take 16).andThen fun field => done (.uuid (Uuid.ofBytes field))
  | .array =>
    (number 4).andThen fun _ => (number 4).andThen fun count =>
      (times inner count).andThen fun items => done (.array items)
  | .dictionary =>
    (number 4).andThen fun _ => (number 4).andThen fun count =>
      (times (entry inner) count).andThen fun pairs => done (.dictionary (Entries.ofList pairs))

theorem decodeTagged_eq (inner : Reader Object) (tag : Tag) :
    decodeTagged inner tag = tagged inner tag := by
  cases tag with
  | string => simp only [tagged, Reader.check_andThen]; rfl
  | _ => rfl

/-- The object with a tag of this number. -/
def untagged (inner : Reader Object) (code : Nat) : Reader Object :=
  match Tag.ofCode? code with
  | none => fun _ => .error (.unknownXpcType (UInt32.ofNat code))
  | some tag => tagged inner tag

theorem decodeObject_succ (depth : Nat) :
    decodeObject (depth + 1) = (Reader.number 4).andThen (untagged (decodeObject depth)) := by
  funext bs
  simp only [decodeObject, Reader.andThen]
  congr 1
  funext x
  rw [untagged]
  cases Tag.ofCode? x.1 with
  | none => rfl
  | some tag => exact congrFun (decodeTagged_eq _ tag) x.2

open Reader in
/-- A payload, with what is left behind it. -/
def payload : Reader Object :=
  (number 4).andThen fun magic =>
    if magic ≠ objectMagic then check (.error .invalidXpcMagic)
    else
      (number 4).andThen fun version =>
        if version ≠ objectVersion then check (.error .unexpectedXpcVersion)
        else fun bs => decodeObject (bs.length + 1) bs

theorem decode_eq_payload (bs : Bytes) : decode bs = (payload bs).map Prod.fst := by
  simp only [decode, payload, Reader.andThen, bind, Except.bind]
  rcases Reader.number 4 bs with _ | ⟨magic, rest⟩
  · rfl
  · by_cases hmagic : magic = objectMagic
    · simp only [hmagic, ne_eq, not_true, if_false, Reader.andThen, bind, Except.bind]
      rcases Reader.number 4 rest with _ | ⟨version, rest⟩
      · rfl
      · by_cases hversion : version = objectVersion
        · simp only [hversion, not_true, if_false]
          cases decodeObject (rest.length + 1) rest <;> rfl
        · simp only [hversion, not_false_iff, if_true]
          rfl
    · simp only [hmagic, ne_eq, not_false_iff, if_true]
      rfl

/-! ## What all parts have in common -/

open Reader in
/-- A relation between readers that holds for the parts of an encoding, each related to itself, and
that is kept where readers are put together. A property of one reader is such a relation as well. -/
structure Compatible (R : (α : Type) → Reader α → Reader α → Prop) : Prop where
  done : ∀ {α : Type} (a : α), R α (done a) (done a)
  take : ∀ n, R Bytes (take n) (take n)
  number : ∀ width, R Nat (number width) (number width)
  takePadded : ∀ n, R Bytes (takePadded n) (takePadded n)
  cString : R String cString cString
  text : ∀ field, R String (check (fieldText field)) (check (fieldText field))
  andThen : ∀ {α β : Type} {read read' : Reader α} {next next' : α → Reader β},
    R α read read' → (∀ a, R β (next a) (next' a)) → R β (read.andThen next) (read'.andThen next')

namespace Compatible

variable {R : (α : Type) → Reader α → Reader α → Prop} {α : Type} {read read' : Reader α}
  {inner inner' : Reader Object}

theorem times (hR : Compatible R) (h : R α read read') (n : Nat) :
    R (List α) (Reader.times read n) (Reader.times read' n) := by
  induction n with
  | zero => exact hR.done []
  | succ n ih =>
    rw [Reader.times_succ, Reader.times_succ]
    exact hR.andThen h fun a => hR.andThen ih fun as => hR.done (a :: as)

theorem entry (hR : Compatible R) (h : R α read read') :
    R (String × α) (Reader.entry read) (Reader.entry read') := by
  rw [Reader.entry_eq, Reader.entry_eq]
  exact hR.andThen hR.cString fun key => hR.andThen h fun a => hR.done (key, a)

/-- What holds for the members of an object holds for the object. -/
theorem tagged (hR : Compatible R) (h : R Object inner inner') (tag : Tag) :
    R Object (Xpc.tagged inner tag) (Xpc.tagged inner' tag) := by
  cases tag with
  | bool =>
    rw [Xpc.tagged, Xpc.tagged]
    exact hR.andThen (hR.take 4) fun _ => hR.done _
  | int64 =>
    rw [Xpc.tagged, Xpc.tagged]
    exact hR.andThen (hR.number 8) fun _ => hR.done _
  | uint64 =>
    rw [Xpc.tagged, Xpc.tagged]
    exact hR.andThen (hR.number 8) fun _ => hR.done _
  | double =>
    rw [Xpc.tagged, Xpc.tagged]
    exact hR.andThen (hR.number 8) fun _ => hR.done _
  | date =>
    rw [Xpc.tagged, Xpc.tagged]
    exact hR.andThen (hR.number 8) fun _ => hR.done _
  | data =>
    rw [Xpc.tagged, Xpc.tagged]
    exact hR.andThen (hR.number 4) fun n => hR.andThen (hR.takePadded n) fun _ => hR.done _
  | string =>
    rw [Xpc.tagged, Xpc.tagged]
    exact hR.andThen (hR.number 4) fun n => hR.andThen (hR.takePadded n) fun field =>
      hR.andThen (hR.text field) fun _ => hR.done _
  | uuid =>
    rw [Xpc.tagged, Xpc.tagged]
    exact hR.andThen (hR.take 16) fun _ => hR.done _
  | array =>
    rw [Xpc.tagged, Xpc.tagged]
    exact hR.andThen (hR.number 4) fun _ => hR.andThen (hR.number 4) fun count =>
      hR.andThen (hR.times h count) fun _ => hR.done _
  | dictionary =>
    rw [Xpc.tagged, Xpc.tagged]
    exact hR.andThen (hR.number 4) fun _ => hR.andThen (hR.number 4) fun count =>
      hR.andThen (hR.times (hR.entry h) count) fun _ => hR.done _

end Compatible

/-! ## Walks -/

/-- Why a walk over a buffer stops. -/
inductive Slip where
  /-- The bytes are not those of an object. -/
  | malformed (error : DeviceError)
  /-- A slice or a difference has no meaning at this position. -/
  | outOfRange

/-- Where a walk is, and how far it ever was. -/
structure Trail where
  position : Nat
  furthest : Nat

namespace Trail

/-- At the start of a buffer. -/
def start : Trail :=
  ⟨0, 0⟩

/-- Goes to another position. -/
def moveTo (t : Trail) (position : Nat) : Trail :=
  ⟨position, max t.furthest position⟩

/-- The buffer was never left. -/
structure Within (buffer : Bytes) (t : Trail) : Prop where
  position_le : t.position ≤ t.furthest
  furthest_le : t.furthest ≤ buffer.length

variable {buffer : Bytes} {t : Trail} {position : Nat}

theorem within_start (buffer : Bytes) : start.Within buffer :=
  ⟨le_rfl, Nat.zero_le _⟩

theorem Within.position_le_length (h : t.Within buffer) : t.position ≤ buffer.length :=
  h.position_le.trans h.furthest_le

theorem Within.moveTo (h : t.Within buffer) (hp : position ≤ buffer.length) :
    (t.moveTo position).Within buffer :=
  ⟨le_max_right _ _, max_le h.furthest_le hp⟩

end Trail

/-- Reading at a position of a buffer. -/
abbrev Walk (α : Type) := Call Slip Trail α

namespace Walk

variable {α β : Type} (buffer : Bytes)

/-- The bytes from `start` to `stop`, if the buffer has them. -/
def slice? (start stop : Nat) : Option Bytes :=
  if start ≤ stop ∧ stop ≤ buffer.length then
    some ((buffer.drop start).take (stop - start))
  else none

/-- The value of an `Except`. -/
def check (r : Except DeviceError α) : Walk α :=
  Call.ofExcept (r.mapError .malformed)

/-- Takes exactly `n` bytes. What is missing is told by the room that is left. -/
def take (n : Nat) : Walk Bytes := do
  let trail ← get
  match slice? buffer trail.position (trail.position + n) with
  | some field =>
    set (trail.moveTo (trail.position + n))
    pure field
  | none =>
    if trail.position ≤ buffer.length then
      check (.error (.notEnoughBytes (buffer.length - trail.position) n))
    else Call.fail .outOfRange

/-- Takes a little endian number of `width` bytes. -/
def number (width : Nat) : Walk Nat :=
  Bytes.toNatLE <$> take buffer width

/-- Moves on over the padding of `n` bytes, but not over the end. -/
def align (n : Nat) : Walk Unit :=
  modify fun trail => trail.moveTo (min (trail.position + padding n) buffer.length)

/-- Takes `n` bytes and as much of their padding as there is. -/
def takePadded (n : Nat) : Walk Bytes := do
  let field ← take buffer n
  align buffer n
  pure field

/-- Takes text up to its terminator, and as much of the padding as there is. -/
def cString : Walk String := do
  let trail ← get
  match slice? buffer trail.position buffer.length with
  | none => Call.fail .outOfRange
  | some rest =>
    let text := rest.takeWhile (· ≠ 0)
    if text.length = rest.length then check (.error .invalidCString)
    else
      match Bytes.toString? text with
      | some s =>
        set (trail.moveTo (trail.position + (text.length + 1)))
        align buffer (text.length + 1)
        pure s
      | none => check (.error .invalidCString)

/-- Walks `n` times. -/
def times (walk : Walk α) : Nat → Walk (List α)
  | 0 => pure []
  | n + 1 => do
    let a ← walk
    let as ← times walk n
    pure (a :: as)

/-- Takes a key and the value behind it. -/
def entry (walk : Walk α) : Walk (String × α) := do
  let key ← cString buffer
  let value ← walk
  pure (key, value)

/-- Takes what follows a tag. -/
def tagged (inner : Walk Object) : Tag → Walk Object
  | .bool => do
    let field ← take buffer 4
    pure (.bool (field.head? != some 0))
  | .int64 => do
    let n ← number buffer 8
    pure (.int64 (UInt64.ofNat n).toInt64)
  | .uint64 => do
    let n ← number buffer 8
    pure (.uint64 (UInt64.ofNat n))
  | .double => do
    let n ← number buffer 8
    pure (.double ⟨UInt64.ofNat n⟩)
  | .date => do
    let n ← number buffer 8
    pure (.date n)
  | .data => do
    let n ← number buffer 4
    let field ← takePadded buffer n
    pure (.data field)
  | .string => do
    let n ← number buffer 4
    let field ← takePadded buffer n
    let s ← check (fieldText field)
    pure (.string s)
  | .uuid => do
    let field ← take buffer 16
    pure (.uuid (Uuid.ofBytes field))
  | .array => do
    let _ ← number buffer 4
    let count ← number buffer 4
    let items ← times inner count
    pure (.array items)
  | .dictionary => do
    let _ ← number buffer 4
    let count ← number buffer 4
    let pairs ← times (entry buffer inner) count
    pure (.dictionary (Entries.ofList pairs))

/-- Takes a tagged object nested at most `depth` containers deep. -/
def decodeObject : Nat → Walk Object
  | 0 => check (.error .malformedXpc)
  | depth + 1 => do
    let code ← number buffer 4
    match Tag.ofCode? code with
    | none => check (.error (.unknownXpcType (UInt32.ofNat code)))
    | some tag => tagged buffer (decodeObject depth) tag

/-- Takes a payload. -/
def decode : Walk Object := do
  let magic ← number buffer 4
  if magic ≠ objectMagic then check (.error .invalidXpcMagic)
  else
    let version ← number buffer 4
    if version ≠ objectVersion then check (.error .unexpectedXpcVersion)
    else
      let trail ← get
      decodeObject buffer (buffer.length - trail.position + 1)

/-! ## A walk follows a reader -/

/-- A walk that begins in the buffer stays there, however it ends, and it ends as a reader ends
that is given the bytes from its position on. -/
def Follows (walk : Walk α) (read : Reader α) : Prop :=
  ∀ t : Trail, t.Within buffer → walk.Ends t
    (fun a u => u.Within buffer ∧ read (buffer.drop t.position) = .ok (a, buffer.drop u.position))
    (fun h u => u.Within buffer ∧
      ∃ e, h = .failed (.malformed e) ∧ read (buffer.drop t.position) = .error e)

variable {buffer} {walk : Walk α} {read : Reader α} {n : Nat}

theorem follows_done (a : α) : Follows buffer (pure a) (Reader.done a) :=
  fun _ ht => ⟨ht, rfl⟩

theorem follows_check (r : Except DeviceError α) : Follows buffer (check r) (Reader.check r) := by
  intro t ht
  cases r with
  | ok a => exact ⟨ht, rfl⟩
  | error e => exact ⟨ht, e, rfl, rfl⟩

theorem Follows.bind {f : α → Walk β} {next : α → Reader β} (h : Follows buffer walk read)
    (hf : ∀ a, Follows buffer (f a) (next a)) :
    Follows buffer (walk >>= f) (read.andThen next) := by
  intro t ht
  rw [Call.ends_bind]
  refine (h t ht).mono ?_ ?_
  · rintro a u ⟨hu, hread⟩
    simp only [Reader.andThen, hread]
    exact hf a u hu
  · rintro _ u ⟨hu, e, rfl, hread⟩
    simp only [Reader.andThen, hread]
    exact ⟨hu, e, rfl, rfl⟩

theorem follows_take (n : Nat) : Follows buffer (take buffer n) (Reader.take n) := by
  intro t ht
  have hle := ht.position_le_length
  have hlength : (buffer.drop t.position).length = buffer.length - t.position := List.length_drop
  rw [take, Call.ends_bind, Call.ends_get, slice?, Reader.take, hlength]
  by_cases hroom : t.position + n ≤ buffer.length
  · have hread : n ≤ buffer.length - t.position := by omega
    rw [if_pos ⟨Nat.le_add_right _ _, hroom⟩, if_pos hread, Nat.add_sub_cancel_left,
      List.drop_drop]
    exact ⟨ht.moveTo hroom, rfl⟩
  · have hread : ¬ n ≤ buffer.length - t.position := by omega
    rw [if_neg fun h => hroom h.2, if_neg hread]
    simp only [if_pos hle]
    exact ⟨ht, _, rfl, rfl⟩

theorem follows_number (width : Nat) :
    Follows buffer (number buffer width) (Reader.number width) := by
  intro t ht
  rw [number, Call.ends_map]
  refine (follows_take width t ht).mono ?_ ?_
  · rintro word u ⟨hu, hread⟩
    exact ⟨hu, by rw [Reader.number, hread]; rfl⟩
  · rintro _ u ⟨hu, e, rfl, hread⟩
    exact ⟨hu, e, rfl, by rw [Reader.number, hread]; rfl⟩

/-- Where the padding is cut short by the end, the reader is left with nothing. -/
theorem drop_min_length (stop n : Nat) :
    buffer.drop (min (stop + padding n) buffer.length) = (buffer.drop stop).drop (padding n) := by
  rw [List.drop_drop]
  rcases Nat.le_total (stop + padding n) buffer.length with h | h
  · rw [Nat.min_eq_left h]
  · rw [Nat.min_eq_right h, List.drop_length, List.drop_eq_nil_of_le h]

theorem follows_takePadded (n : Nat) :
    Follows buffer (takePadded buffer n) (Reader.takePadded n) := by
  intro t ht
  rw [takePadded, Call.ends_bind]
  refine (follows_take n t ht).mono ?_ ?_
  · rintro field u ⟨hu, hread⟩
    rw [Call.ends_bind, align, Call.ends_modify, Call.ends_pure, Reader.takePadded, hread]
    exact ⟨hu.moveTo (min_le_right _ _), by rw [Trail.moveTo, drop_min_length]; rfl⟩
  · rintro _ u ⟨hu, e, rfl, hread⟩
    exact ⟨hu, e, rfl, by rw [Reader.takePadded, hread]; rfl⟩

theorem follows_cString : Follows buffer (cString buffer) Reader.cString := by
  intro t ht
  have hle := ht.position_le_length
  have hslice : slice? buffer t.position buffer.length = some (buffer.drop t.position) := by
    rw [slice?, if_pos ⟨hle, le_rfl⟩, List.take_of_length_le (by simp)]
  rw [cString, Call.ends_bind, Call.ends_get, hslice]
  simp only [Reader.cString]
  have hwithin : ((buffer.drop t.position).takeWhile (· ≠ 0)).length ≤
      buffer.length - t.position := by
    rw [← List.length_drop]
    exact (List.takeWhile_prefix _).length_le
  generalize (buffer.drop t.position).takeWhile (· ≠ 0) = text at hwithin ⊢
  by_cases hend : text.length = (buffer.drop t.position).length
  · simp only [if_pos hend]
    exact ⟨ht, _, rfl, rfl⟩
  · simp only [if_neg hend]
    cases Bytes.toString? text with
    | none => exact ⟨ht, _, rfl, rfl⟩
    | some s =>
      -- There is a terminator behind the text, so the position behind it is in the buffer.
      rw [List.length_drop] at hend
      have hterminator : t.position + (text.length + 1) ≤ buffer.length := by omega
      simp only [Call.ends_bind, Call.ends_set, align, Call.ends_modify, Call.ends_pure]
      refine ⟨(ht.moveTo hterminator).moveTo (min_le_right _ _), ?_⟩
      simp only [Trail.moveTo]
      rw [drop_min_length, List.drop_drop, List.drop_drop, Nat.add_assoc t.position]

theorem Follows.times (h : Follows buffer walk read) (n : Nat) :
    Follows buffer (Walk.times walk n) (Reader.times read n) := by
  induction n with
  | zero => exact follows_done []
  | succ n ih =>
    rw [Reader.times_succ]
    exact h.bind fun a => ih.bind fun as => follows_done (a :: as)

theorem Follows.entry (h : Follows buffer walk read) :
    Follows buffer (Walk.entry buffer walk) (Reader.entry read) := by
  rw [Reader.entry_eq]
  exact follows_cString.bind fun key => h.bind fun value => follows_done (key, value)

theorem follows_tagged {walk : Walk Object} {read : Reader Object}
    (h : Follows buffer walk read) (tag : Tag) :
    Follows buffer (tagged buffer walk tag) (Xpc.tagged read tag) := by
  cases tag with
  | bool => exact (follows_take 4).bind fun _ => follows_done _
  | int64 => exact (follows_number 8).bind fun _ => follows_done _
  | uint64 => exact (follows_number 8).bind fun _ => follows_done _
  | double => exact (follows_number 8).bind fun _ => follows_done _
  | date => exact (follows_number 8).bind fun _ => follows_done _
  | data =>
    exact (follows_number 4).bind fun n => (follows_takePadded n).bind fun _ => follows_done _
  | string =>
    exact (follows_number 4).bind fun n => (follows_takePadded n).bind fun field =>
      (follows_check (fieldText field)).bind fun _ => follows_done _
  | uuid => exact (follows_take 16).bind fun _ => follows_done _
  | array =>
    exact (follows_number 4).bind fun _ => (follows_number 4).bind fun count =>
      (h.times count).bind fun _ => follows_done _
  | dictionary =>
    exact (follows_number 4).bind fun _ => (follows_number 4).bind fun count =>
      (h.entry.times count).bind fun _ => follows_done _

theorem follows_decodeObject (depth : Nat) :
    Follows buffer (decodeObject buffer depth) (Xpc.decodeObject depth) := by
  induction depth with
  | zero => exact follows_check (.error .malformedXpc)
  | succ depth ih =>
    rw [decodeObject_succ]
    refine (follows_number 4).bind fun code => ?_
    rw [untagged]
    cases Tag.ofCode? code with
    | none => exact follows_check (.error _)
    | some tag => exact follows_tagged ih tag

theorem follows_payload : Follows buffer (decode buffer) payload := by
  refine (follows_number 4).bind fun magic => ?_
  split
  · exact follows_check (.error _)
  · refine (follows_number 4).bind fun version => ?_
    split
    · exact follows_check (.error _)
    · intro t ht
      have hobject : Follows buffer (decodeObject buffer (buffer.length - t.position + 1))
          (Xpc.decodeObject (buffer.length - t.position + 1)) :=
        follows_decodeObject _
      have hfollows := hobject t ht
      rw [Call.ends_bind, Call.ends_get]
      simpa only [List.length_drop] using hfollows

/-- From the start of any buffer, whatever its bytes are, the walk over a payload ends as reading it
ends; it never leaves the buffer, and nothing is ever out of range. -/
theorem ends_decode (buffer : Bytes) :
    (decode buffer).Ends Trail.start
      (fun o t => t.furthest ≤ buffer.length ∧ Xpc.decode buffer = .ok o)
      (fun h t => t.furthest ≤ buffer.length ∧
        ∃ e, h = .failed (.malformed e) ∧ Xpc.decode buffer = .error e) := by
  refine (follows_payload Trail.start (Trail.within_start buffer)).mono ?_ ?_
  · rintro o t ⟨ht, hread⟩
    exact ⟨ht.furthest_le,
      (decode_eq_payload buffer).trans (congrArg (Except.map Prod.fst) hread)⟩
  · rintro _ t ⟨ht, e, rfl, hread⟩
    exact ⟨ht.furthest_le, e, rfl,
      (decode_eq_payload buffer).trans (congrArg (Except.map Prod.fst) hread)⟩

end Walk

end Tether.Xpc
