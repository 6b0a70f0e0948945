import Tether.Error
import Tether.Xpc.Object

/-!
# The encoding of XPC objects

A payload is a magic number and a version followed by one tagged object; numbers are
little endian. Text, data and dictionary keys are padded to a multiple of four bytes, and
a container announces how many bytes and how many members it has. A reader is lenient in
two ways: padding may be missing at the end of the input, and the byte count of a container
is not looked at.

* `encode`, `decode`: a payload with one object;
* `encodeObject`, `decodeObject`: a tagged object inside a payload.
-/

namespace Tether.Xpc

/-- The number every payload starts with. -/
def objectMagic : Nat := 0x42133742

/-- The version of the encoding. -/
def objectVersion : Nat := 5

/-- The tags of the kinds of object. -/
inductive Tag where
  | bool
  | int64
  | uint64
  | double
  | date
  | data
  | string
  | uuid
  | array
  | dictionary
  deriving DecidableEq, Repr

namespace Tag

/-- The number of a tag. -/
def code : Tag → Nat
  | bool => 0x2000
  | int64 => 0x3000
  | uint64 => 0x4000
  | double => 0x5000
  | date => 0x7000
  | data => 0x8000
  | string => 0x9000
  | uuid => 0xa000
  | array => 0xe000
  | dictionary => 0xf000

/-- The tag with a given number. -/
def ofCode? : Nat → Option Tag
  | 0x2000 => some bool
  | 0x3000 => some int64
  | 0x4000 => some uint64
  | 0x5000 => some double
  | 0x7000 => some date
  | 0x8000 => some data
  | 0x9000 => some string
  | 0xa000 => some uuid
  | 0xe000 => some array
  | 0xf000 => some dictionary
  | _ => none

/-- The bytes of a tag. -/
def toBytes (t : Tag) : Bytes :=
  Bytes.ofNatLE 4 t.code

theorem ofCode?_code (t : Tag) : ofCode? t.code = some t := by
  cases t <;> rfl

end Tag

/-- How many bytes bring a length up to a multiple of four. -/
def padding (length : Nat) : Nat :=
  (4 - length % 4) % 4

/-- Bytes followed by their padding. -/
def padded (bs : Bytes) : Bytes :=
  bs ++ List.replicate (padding bs.length) 0

/-- Text with its terminator, padded. -/
def terminated (s : String) : Bytes :=
  padded (Bytes.ofString s ++ [0])

/-- Bytes after their length in 32 bits. -/
def sized (bs : Bytes) : Bytes :=
  Bytes.ofNatLE 4 bs.length ++ bs

mutual

/-- A tagged object. A date before 1970 is written as its start, and a date too late for 64
bits loses its high bits. -/
def encodeObject : Object → Bytes
  | .bool value => Tag.bool.toBytes ++ [if value then 1 else 0, 0, 0, 0]
  | .int64 value => Tag.int64.toBytes ++ Bytes.ofNatLE 8 value.toUInt64.toNat
  | .uint64 value => Tag.uint64.toBytes ++ Bytes.ofNatLE 8 value.toNat
  | .double value => Tag.double.toBytes ++ Bytes.ofNatLE 8 value.bits.toNat
  | .date nanoseconds => Tag.date.toBytes ++ Bytes.ofNatLE 8 nanoseconds.toNat
  | .data bytes => Tag.data.toBytes ++ Bytes.ofNatLE 4 bytes.length ++ padded bytes
  | .string text =>
    Tag.string.toBytes ++ Bytes.ofNatLE 4 ((Bytes.ofString text).length + 1) ++ terminated text
  | .uuid value => Tag.uuid.toBytes ++ value.toBytes
  | .array items =>
    Tag.array.toBytes ++ sized (Bytes.ofNatLE 4 items.length ++ encodeItems items)
  | .dictionary entries =>
    Tag.dictionary.toBytes ++ sized (Bytes.ofNatLE 4 entries.length ++ encodeEntries entries)

/-- The items of an array, one after the other. -/
def encodeItems : List Object → Bytes
  | [] => []
  | item :: items => encodeObject item ++ encodeItems items

/-- The entries of a dictionary, each key before its value. -/
def encodeEntries : List (String × Object) → Bytes
  | [] => []
  | (key, value) :: entries => terminated key ++ encodeObject value ++ encodeEntries entries

end

/-- A payload with one object. -/
def encode (o : Object) : Bytes :=
  Bytes.ofNatLE 4 objectMagic ++ Bytes.ofNatLE 4 objectVersion ++ encodeObject o

/-- A reader of bytes: it takes what it needs from the front and returns the rest. -/
abbrev Reader (α : Type) := Bytes → Except DeviceError (α × Bytes)

namespace Reader

variable {α : Type}

/-- Takes exactly `n` bytes. -/
def take (n : Nat) : Reader Bytes := fun bs =>
  if n ≤ bs.length then .ok (bs.take n, bs.drop n) else .error (.notEnoughBytes bs.length n)

/-- Takes a little endian number of `width` bytes. -/
def number (width : Nat) : Reader Nat := fun bs =>
  (take width bs).map fun (word, rest) => (Bytes.toNatLE word, rest)

/-- Takes `n` bytes and as much of their padding as there is. -/
def takePadded (n : Nat) : Reader Bytes := fun bs =>
  (take n bs).map fun (field, rest) => (field, rest.drop (padding n))

/-- Takes text up to its terminator, and as much of the padding as there is. -/
def cString : Reader String := fun bs =>
  let text := bs.takeWhile (· ≠ 0)
  if text.length = bs.length then .error .invalidCString
  else
    match Bytes.toString? text with
    | some s => .ok (s, bs.drop (text.length + 1 + padding (text.length + 1)))
    | none => .error .invalidCString

/-- Reads `n` times. -/
def times (read : Reader α) : Nat → Reader (List α)
  | 0, bs => .ok ([], bs)
  | n + 1, bs =>
    match read bs with
    | .error e => .error e
    | .ok (a, rest) =>
      match times read n rest with
      | .error e => .error e
      | .ok (as, rest) => .ok (a :: as, rest)

/-- Reads a key and the value behind it. -/
def entry (read : Reader α) : Reader (String × α) := fun bs =>
  match cString bs with
  | .error e => .error e
  | .ok (key, rest) =>
    match read rest with
    | .error e => .error e
    | .ok (value, rest) => .ok ((key, value), rest)

end Reader

/-- The text of a string field: its last byte is the terminator, the others are UTF-8. -/
def fieldText (field : Bytes) : Except DeviceError String :=
  match field.getLast? with
  | some 0 =>
    match Bytes.toString? field.dropLast with
    | some s => .ok s
    | none => .error .invalidCString
  | _ => .error .invalidCString

/-- Reads what follows a tag; `inner` reads the objects inside of a container. -/
def decodeTagged (inner : Reader Object) : Tag → Reader Object
  | .bool, bs => do
    let (field, bs) ← Reader.take 4 bs
    .ok (.bool (field.head? != some 0), bs)
  | .int64, bs => do
    let (n, bs) ← Reader.number 8 bs
    .ok (.int64 (UInt64.ofNat n).toInt64, bs)
  | .uint64, bs => do
    let (n, bs) ← Reader.number 8 bs
    .ok (.uint64 (UInt64.ofNat n), bs)
  | .double, bs => do
    let (n, bs) ← Reader.number 8 bs
    .ok (.double ⟨UInt64.ofNat n⟩, bs)
  | .date, bs => do
    let (n, bs) ← Reader.number 8 bs
    .ok (.date n, bs)
  | .data, bs => do
    let (length, bs) ← Reader.number 4 bs
    let (field, bs) ← Reader.takePadded length bs
    .ok (.data field, bs)
  | .string, bs => do
    let (length, bs) ← Reader.number 4 bs
    let (field, bs) ← Reader.takePadded length bs
    let s ← fieldText field
    .ok (.string s, bs)
  | .uuid, bs => do
    let (field, bs) ← Reader.take 16 bs
    .ok (.uuid (Uuid.ofBytes field), bs)
  | .array, bs => do
    let (_, bs) ← Reader.number 4 bs
    let (count, bs) ← Reader.number 4 bs
    let (items, bs) ← Reader.times inner count bs
    .ok (.array items, bs)
  | .dictionary, bs => do
    let (_, bs) ← Reader.number 4 bs
    let (count, bs) ← Reader.number 4 bs
    let (pairs, bs) ← Reader.times (Reader.entry inner) count bs
    .ok (.dictionary (Entries.ofList pairs), bs)

/-- Reads a tagged object nested at most `depth` containers deep. -/
def decodeObject : Nat → Reader Object
  | 0, _ => .error .malformedXpc
  | depth + 1, bs => do
    let (code, bs) ← Reader.number 4 bs
    match Tag.ofCode? code with
    | none => .error (.unknownXpcType (UInt32.ofNat code))
    | some tag => decodeTagged (decodeObject depth) tag bs

/-- Reads a payload; bytes behind its object are ignored. A container takes twelve bytes, so
no object is nested deeper than the input is long. -/
def decode (bs : Bytes) : Except DeviceError Object := do
  let (magic, rest) ← Reader.number 4 bs
  if magic ≠ objectMagic then .error .invalidXpcMagic
  let (version, rest) ← Reader.number 4 rest
  if version ≠ objectVersion then .error .unexpectedXpcVersion
  let (object, _) ← decodeObject (rest.length + 1) rest
  .ok object

end Tether.Xpc
