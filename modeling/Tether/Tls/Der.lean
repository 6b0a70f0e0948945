import Tether.Bytes

/-!
# Elements of the distinguished encoding

Keys and certificates are nested elements, each a tag, a length and a content. Only what
they need is here: tags of one byte, and lengths in their one shortest form.
-/

namespace Tether.Tls.Der

/-- An element. -/
structure Element where
  tag : UInt8
  content : Bytes
  deriving DecidableEq, Repr

/-- The length at the front and the bytes behind it. Short lengths have one byte, others say
first how many bytes they have. -/
def length? : Bytes → Option (Nat × Bytes)
  | [] => none
  | b :: rest =>
    if b < 0x80 then some (b.toNat, rest)
    else
      let width := b.toNat - 0x80
      let value := Bytes.toNatBE (rest.take width)
      if 1 ≤ width ∧ width ≤ 4 ∧ width ≤ rest.length ∧ 0x80 ≤ value ∧ 256 ^ (width - 1) ≤ value then
        some (value, rest.drop width)
      else none

/-- The element at the front and the bytes behind it. Tags whose low bits are all set go on
in a second byte and are not read. -/
def element? : Bytes → Option (Element × Bytes)
  | [] => none
  | tag :: bs =>
    if tag % 32 = 31 then none
    else
      (length? bs).bind fun (n, rest) =>
        if n ≤ rest.length then some (⟨tag, rest.take n⟩, rest.drop n) else none

/-- The elements that a content consists of. -/
def elements? (bs : Bytes) : Option (List Element) :=
  if bs.isEmpty then some []
  else
    match element? bs with
    | none => none
    | some (e, rest) =>
      if _h : rest.length < bs.length then (elements? rest).map (e :: ·) else none
termination_by bs.length

/-- The tags that keys and certificates use. -/
def booleanTag : UInt8 := 0x01
def integerTag : UInt8 := 0x02
def bitStringTag : UInt8 := 0x03
def octetStringTag : UInt8 := 0x04
def identifierTag : UInt8 := 0x06
def sequenceTag : UInt8 := 0x30

/-- The tag of the optional part with a number. -/
def optionalTag (n : Nat) : UInt8 :=
  UInt8.ofNat (0xA0 + n)

/-- The one element that a content consists of. -/
def only? (bs : Bytes) : Option Element :=
  match elements? bs with
  | some [e] => some e
  | _ => none

namespace Element

/-- The parts of an element that is a sequence. -/
def parts? (e : Element) : Option (List Element) :=
  if e.tag = sequenceTag then elements? e.content else none

/-- The whole number that an element holds, if it is not negative and in its one shortest
form. -/
def unsigned? (e : Element) : Option Nat :=
  match e.content with
  | [] => none
  | first :: rest =>
    if e.tag ≠ integerTag ∨ 0x80 ≤ first ∨ (first = 0 ∧ rest.head?.any (· < 0x80)) then none
    else some (Bytes.toNatBE (first :: rest))

/-- The bytes that a bit string consists of, if it is made of whole bytes. -/
def wholeBytes? (e : Element) : Option Bytes :=
  match e.content with
  | 0 :: bytes => if e.tag = bitStringTag then some bytes else none
  | _ => none

/-- The written form of an element with a content of less than 128 bytes. -/
def shortForm (e : Element) : Bytes :=
  e.tag :: UInt8.ofNat e.content.length :: e.content

end Element

end Tether.Tls.Der
