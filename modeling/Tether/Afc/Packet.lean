import Tether.Afc.Operation
import Tether.Connection

/-!
# Packets of the file service

A packet is a header of forty bytes, a part that belongs to the operation, and content.
The header has the length of the whole packet and of the packet without the content; the
two have to agree with each other and with a limit.
-/

namespace Tether.Afc

/-- What each packet starts with: the letters `CFA6LPAA`. -/
def magic : UInt64 := 0x4141504C36414643

/-- The length of a header. -/
def headerLength : Nat := 40

/-- The longest packet that is accepted. -/
def maxLength : Nat := 64 * 1024 * 1024

/-- The header of a packet. -/
structure Header where
  magic : UInt64 := Afc.magic
  /-- The length of the packet. -/
  entireLength : UInt64
  /-- The length of the packet without its content. -/
  leadLength : UInt64
  number : UInt64
  operation : Operation
  deriving DecidableEq, Repr

/-- The bytes of a header. -/
def Header.toBytes (h : Header) : Bytes :=
  [h.magic, h.entireLength, h.leadLength, h.number, h.operation.code].flatMap
    fun field => Bytes.ofNatLE 8 field.toNat

/-- A field of a header. -/
def Header.fieldOf (bs : Bytes) (i : Nat) : UInt64 :=
  UInt64.ofNat (Bytes.toNatLE ((bs.drop (8 * i)).take 8))

/-- Whether the lengths of a header can be those of a packet. -/
def Header.hasLengths (h : Header) : Bool :=
  headerLength ≤ h.leadLength.toNat && h.leadLength ≤ h.entireLength &&
    h.entireLength.toNat ≤ maxLength

/-- Reads the header at the front. -/
def Header.ofBytes (bs : Bytes) : Except DeviceError Header :=
  if bs.length < headerLength then .error (.notEnoughBytes bs.length headerLength)
  else if fieldOf bs 0 ≠ Afc.magic then .error .invalidAfcMagic
  else
    match Operation.ofCode? (fieldOf bs 4) with
    | none => .error .unknownAfcOpcode
    | some operation =>
      let h : Header :=
        { magic := fieldOf bs 0, entireLength := fieldOf bs 1, leadLength := fieldOf bs 2
          number := fieldOf bs 3, operation }
      if h.hasLengths then .ok h else .error .packetSizeMismatch

/-- A packet. -/
structure Packet where
  header : Header
  /-- The part that belongs to the operation. -/
  lead : Bytes
  content : Bytes
  deriving DecidableEq, Repr

namespace Packet

/-- The packet with these parts. -/
def make (operation : Operation) (number : UInt64) (lead content : Bytes) : Packet :=
  { header :=
      { entireLength := UInt64.ofNat (headerLength + lead.length + content.length)
        leadLength := UInt64.ofNat (headerLength + lead.length)
        number, operation }
    lead, content }

/-- The bytes of a packet. -/
def toBytes (p : Packet) : Bytes :=
  p.header.toBytes ++ p.lead ++ p.content

/-- Receives a packet. -/
def receive : Call DeviceError Connection Packet := do
  let header ← Call.ofExcept (Header.ofBytes (← Connection.readRaw headerLength))
  let lead ← Connection.readRaw (header.leadLength.toNat - headerLength)
  let content ← Connection.readRaw (header.entireLength.toNat - header.leadLength.toNat)
  return { header, lead, content }

/-- The number at the start of the part that belongs to the operation. -/
def leadNumber (p : Packet) : Except DeviceError UInt64 :=
  if p.lead.length < 8 then .error .unexpectedResponse
  else .ok (UInt64.ofNat (Bytes.toNatLE (p.lead.take 8)))

end Packet

end Tether.Afc
