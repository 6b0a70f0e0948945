import Tether.Plist.Binary.Date
import Tether.Plist.Tree
import Tether.Text.Utf16

/-!
# Property lists read from the binary form

A document is a magic word, objects, a table of their offsets and a trailer that says
where the table is. Collections refer to their parts by number. An object may be part of
several collections but not of itself: while a collection is read it is *above* its parts,
and a part that is above is refused. That also bounds the depth by the number of objects.

No more may be announced than there is room for between an object's marker and the trailer;
what the announcement itself takes is not counted, so a content may reach into the trailer
by that much.
-/

namespace Tether.Plist.Binary

/-- What every document starts with. -/
def magic : Bytes := Bytes.ofString "bplist00"

/-- How long the trailer is. -/
def trailerLength : Nat := 32

/-- A document whose trailer was read. -/
structure Document where
  /-- All bytes, the trailer at the end included. -/
  bytes : Bytes
  /-- Where the trailer starts. -/
  trailerStart : Nat
  /-- How many bytes a reference has. -/
  refSize : Nat
  /-- Where each object starts. -/
  offsets : Array Nat
  /-- The number of the root. -/
  top : Nat

/-- The widths that a number in the document may have. -/
def isWidth (n : Nat) : Bool :=
  n = 1 || n = 2 || n = 3 || n = 4 || n = 8

/-- A number of numbers of one width. -/
def numbers (width : Nat) : Nat → Bytes → List Nat
  | 0, _ => []
  | count + 1, bs => Bytes.toNatBE (bs.take width) :: numbers width count (bs.drop width)

/-- Reads the trailer and the table of offsets. -/
def Document.ofBytes? (bs : Bytes) : Option Document :=
  if bs.take 8 ≠ magic ∨ bs.length < trailerLength then none
  else
    let trailerStart := bs.length - trailerLength
    let trailer := bs.drop trailerStart
    let offsetSize := Bytes.toNatBE ((trailer.drop 6).take 1)
    let refSize := Bytes.toNatBE ((trailer.drop 7).take 1)
    let count := Bytes.toNatBE ((trailer.drop 8).take 8)
    let top := Bytes.toNatBE ((trailer.drop 16).take 8)
    let table := Bytes.toNatBE ((trailer.drop 24).take 8)
    if isWidth offsetSize ∧ isWidth refSize ∧ table + count * offsetSize ≤ trailerStart then
      some {
        bytes := bs, trailerStart, refSize, top
        offsets := (numbers offsetSize count (bs.drop table)).toArray }
    else none

/-- The first bytes, if there are so many. -/
def take? (n : Nat) (bs : Bytes) : Option Bytes :=
  let taken := bs.take n
  if taken.length = n then some taken else none

/-- The length that an object's marker announces, and the bytes behind it: fifteen means
that the length follows as a number of its own. -/
def length? (low : Nat) (bs : Bytes) : Option (Nat × Bytes) :=
  if low < 15 then some (low, bs)
  else
    match bs with
    | [] => none
    | b :: rest =>
      let width := 2 ^ (b.toNat % 4)
      (take? width rest).map fun n => (Bytes.toNatBE n, rest.drop width)

/-- The number of units that an object announces, and their bytes. There has to be `room`
for them. -/
def content? (room low unit : Nat) (bs : Bytes) : Option (Nat × Bytes) :=
  (length? low bs).bind fun (n, rest) =>
    if n * unit ≤ room then (take? (n * unit) rest).map fun content => (n, content) else none

/-- A whole number of the given width; those of eight bytes are signed. -/
def integer? (width : Nat) (bs : Bytes) : Option Plist :=
  (take? width bs).bind fun n =>
    let value := Bytes.toNatBE n
    (Integer.ofInt? (if width = 8 ∧ 2 ^ 63 ≤ value then (value : Int) - 2 ^ 64 else value)).map .integer

/-- An object without parts. -/
def scalar? (room kind low : Nat) (bs : Bytes) : Option Plist :=
  match kind with
  | 0 => if low = 8 then some (.bool false) else if low = 9 then some (.bool true) else none
  | 1 => if low ≤ 4 then integer? (2 ^ low) bs else none
  | 2 =>
    if low = 2 then
      (take? 4 bs).map fun n => .real (Double.ofSingle (UInt32.ofNat (Bytes.toNatBE n)))
    else if low = 3 then (take? 8 bs).map fun n => .real ⟨UInt64.ofNat (Bytes.toNatBE n)⟩
    else none
  | 3 =>
    if low = 3 then
      (take? 8 bs).bind fun n => (dateOfSeconds? ⟨UInt64.ofNat (Bytes.toNatBE n)⟩).map .date
    else none
  | 4 => (content? room low 1 bs).map fun (_, raw) => .data raw
  | 5 => (content? room low 1 bs).bind fun (_, raw) => (Bytes.toString? raw).map .string
  | 6 =>
    (content? room low 2 bs).bind fun (n, raw) =>
      (Text.ofUnits? (numbers 2 n raw)).map fun cs => .string (String.ofList cs)
  | 8 =>
    if low < 8 then (take? (low + 1) bs).map fun n => .uid (UInt64.ofNat (Bytes.toNatBE n))
    else none
  | _ => none

/-- The references of a collection with `perItem` references an item. -/
def references? (d : Document) (room low perItem : Nat) (bs : Bytes) : Option (List Nat) :=
  (content? room low (perItem * d.refSize) bs).map fun (n, raw) => numbers d.refSize (n * perItem) raw

/-- Reads an object. `above` are the collections it is part of; as these are different
from each other, `fuel` for as many levels as there are objects is enough. The keys of a
dictionary stand in front of the values. -/
def object? (d : Document) (fuel : Nat) (above : List Nat) (ref : Nat) : Option Tree :=
  match fuel with
  | 0 => none
  | fuel + 1 =>
    (d.offsets[ref]?.filter (· < d.trailerStart)).bind fun offset =>
      match d.bytes.drop offset with
      | [] => none
      | marker :: bs =>
        let room := d.trailerStart - offset
        let kind := marker.toNat / 16
        let low := marker.toNat % 16
        if kind = 10 then
          if ref ∈ above then none
          else (references? d room low 1 bs).bind fun refs =>
            (refs.mapM (object? d fuel (ref :: above))).map .array
        else if kind = 13 then
          if ref ∈ above then none
          else (references? d room low 2 bs).bind fun refs =>
            (refs.mapM (object? d fuel (ref :: above))).map fun parts =>
              let count := parts.length / 2
              .dictionary ((parts.take count).zip (parts.drop count))
        else (scalar? room kind low bs).map .value

/-- The value of a document. -/
def read? (bs : Bytes) : Option Tree :=
  (Document.ofBytes? bs).bind fun d => object? d (d.offsets.size + 1) [] d.top

end Tether.Plist.Binary
