import Tether.Plist.Binary.Reader

/-!
# Property lists in the binary form

Objects are numbered as they come, a collection before its parts and a key before its
value. Each is written once for each place it stands in.
-/

namespace Tether.Plist.Binary

mutual

/-- How many objects a value takes. -/
def count : Plist → Nat
  | array items => 1 + countItems items
  | dictionary entries => 1 + countEntries entries
  | _ => 1

/-- How many objects the items take. -/
def countItems : List Plist → Nat
  | [] => 0
  | v :: vs => count v + countItems vs

/-- How many objects the entries take, keys included. -/
def countEntries : List (String × Plist) → Nat
  | [] => 0
  | (_, v) :: es => 1 + count v + countEntries es

end

/-- The numbers of the items, the first of which is `next`. -/
def itemRefs (next : Nat) : List Plist → List Nat
  | [] => []
  | v :: vs => next :: itemRefs (next + count v) vs

/-- The numbers of the keys, the first of which is `next`. The value of each comes right
behind it. -/
def keyRefs (next : Nat) : List (String × Plist) → List Nat
  | [] => []
  | (_, v) :: es => next :: keyRefs (next + 1 + count v) es

/-- The narrowest width that holds a number. -/
def widthOf (n : Nat) : Nat :=
  if n < 2 ^ 8 then 1 else if n < 2 ^ 16 then 2 else if n < 2 ^ 32 then 4 else 8

/-- The power of two that a width is. -/
def powerOf (width : Nat) : Nat :=
  width.log2

/-- A number that is not negative, below `2 ^ 63`. -/
def naturalObject (n : Nat) : Bytes :=
  UInt8.ofNat (0x10 + powerOf (widthOf n)) :: Bytes.ofNatBE (widthOf n) n

/-- A whole number. -/
def integerObject (n : Integer) : Bytes :=
  if n.value < 0 then 0x13 :: Bytes.ofNatBE 8 (n.value + 2 ^ 64).toNat
  else if n.value < 2 ^ 63 then naturalObject n.value.toNat
  else 0x14 :: Bytes.ofNatBE 16 n.value.toNat

/-- The marker of an object with a length. -/
def marker (kind length : Nat) : Bytes :=
  if length < 15 then [UInt8.ofNat (kind * 16 + length)]
  else UInt8.ofNat (kind * 16 + 15) :: naturalObject length

/-- A text: a byte a character if all of them are ASCII, else units of sixteen bits. -/
def textObject (s : String) : Bytes :=
  if s.toList.all fun c => c.toNat < 128 then
    marker 5 s.toList.length ++ Bytes.ofString s
  else
    marker 6 (Text.units s).length ++ (Text.units s).flatMap (Bytes.ofNatBE 2)

/-- An identifier. -/
def uidObject (n : UInt64) : Bytes :=
  UInt8.ofNat (0x80 + widthOf n.toNat - 1) :: Bytes.ofNatBE (widthOf n.toNat) n.toNat

mutual

/-- The objects of a value, the first of which has the number `number`. -/
def objects (refSize number : Nat) : Plist → List Bytes
  | bool value => [[if value then 0x09 else 0x08]]
  | integer n => [integerObject n]
  | real d => [0x23 :: Bytes.ofNatBE 8 d.bits.toNat]
  | date ns => [0x33 :: Bytes.ofNatBE 8 (secondsOfDate ns).bits.toNat]
  | string text => [textObject text]
  | data bytes => [marker 4 bytes.length ++ bytes]
  | uid n => [uidObject n]
  | array items =>
    (marker 10 items.length ++ (itemRefs (number + 1) items).flatMap (Bytes.ofNatBE refSize)) ::
      itemObjects refSize (number + 1) items
  | dictionary entries =>
    let keys := keyRefs (number + 1) entries
    (marker 13 entries.length ++ (keys ++ keys.map (· + 1)).flatMap (Bytes.ofNatBE refSize)) ::
      entryObjects refSize (number + 1) entries

/-- The objects of the items. -/
def itemObjects (refSize number : Nat) : List Plist → List Bytes
  | [] => []
  | v :: vs => objects refSize number v ++ itemObjects refSize (number + count v) vs

/-- The objects of the entries, each key before its value. -/
def entryObjects (refSize number : Nat) : List (String × Plist) → List Bytes
  | [] => []
  | (key, v) :: es =>
    textObject key :: (objects refSize (number + 1) v ++ entryObjects refSize (number + 1 + count v) es)

end

/-- Where each of a row of objects starts, the first at `start`. -/
def offsetsOf (start : Nat) : List Bytes → List Nat
  | [] => []
  | o :: os => start :: offsetsOf (start + o.length) os

/-- The document for a value. -/
def write (v : Plist) : Bytes :=
  let number := count v
  let refSize := widthOf number
  let parts := objects refSize 0 v
  let body := magic ++ parts.flatten
  let offsetSize := widthOf body.length
  body ++ (offsetsOf magic.length parts).flatMap (Bytes.ofNatBE offsetSize) ++
    [0, 0, 0, 0, 0, 0, UInt8.ofNat offsetSize, UInt8.ofNat refSize] ++
    Bytes.ofNatBE 8 number ++ Bytes.ofNatBE 8 0 ++ Bytes.ofNatBE 8 body.length

end Tether.Plist.Binary
