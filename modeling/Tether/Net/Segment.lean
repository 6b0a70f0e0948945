import Tether.Net.Packet

/-!
# TCP segments

The segments of a small TCP: no options are written and those of the other end are skipped.
A segment is written with a checksum over itself and a *pseudo header* of its addresses.

* `Segment.toBytes`, `Segment.ofBytes`: the two directions of the format;
* `Segment.checksumValid`: whether a written segment is intact.
-/

namespace Tether.Net

/-- The control bits of a segment. -/
structure Control where
  urg : Bool := false
  ack : Bool := false
  psh : Bool := false
  rst : Bool := false
  syn : Bool := false
  fin : Bool := false
  deriving DecidableEq, Repr

namespace Control

/-- A bit if it is set, else zero. -/
def bit (set : Bool) (value : UInt8) : UInt8 :=
  if set then value else 0

/-- The byte of some control bits. -/
def toByte (c : Control) : UInt8 :=
  bit c.urg 0x20 ||| bit c.ack 0x10 ||| bit c.psh 0x08 ||| bit c.rst 0x04 ||| bit c.syn 0x02 |||
    bit c.fin 0x01

/-- The control bits in a byte; its two high bits mean nothing. -/
def ofByte (b : UInt8) : Control where
  urg := b &&& 0x20 != 0
  ack := b &&& 0x10 != 0
  psh := b &&& 0x08 != 0
  rst := b &&& 0x04 != 0
  syn := b &&& 0x02 != 0
  fin := b &&& 0x01 != 0

theorem ofByte_toByte (c : Control) : ofByte c.toByte = c := by
  rcases c with ⟨_ | _, _ | _, _ | _, _ | _, _ | _, _ | _⟩ <;> rfl

/-- The letters of the bits that are set. -/
def letters (c : Control) : String :=
  String.ofList (([(c.urg, 'U'), (c.ack, 'A'), (c.psh, 'P'), (c.rst, 'R'), (c.syn, 'S'),
    (c.fin, 'F')].filter Prod.fst).map Prod.snd)

/-- The control bits with these letters. -/
def ofLetters (s : String) : Control :=
  let has (c : Char) : Bool := s.toList.contains c
  ⟨has 'U', has 'A', has 'P', has 'R', has 'S', has 'F'⟩

theorem ofLetters_letters (c : Control) : ofLetters c.letters = c := by
  rcases c with ⟨_ | _, _ | _, _ | _, _ | _, _ | _, _ | _⟩ <;> decide

/-- Names and values between braces. -/
def record (name : String) (fields : List (String × String)) : String :=
  name ++ " \x7b " ++ ", ".intercalate (fields.map fun f => f.1 ++ ": " ++ f.2) ++ " \x7d"

/-- The control bits in words. -/
def text (c : Control) : String :=
  record "TcpFlags"
    ([("urg", c.urg), ("ack", c.ack), ("psh", c.psh), ("rst", c.rst), ("syn", c.syn),
      ("fin", c.fin)].map fun bit => (bit.1, toString bit.2))

end Control

/-- A segment. -/
structure Segment where
  source : UInt16
  destination : UInt16
  sequence : UInt32
  acknowledgement : UInt32
  control : Control
  window : UInt16
  checksum : UInt16 := 0
  payload : Bytes
  deriving DecidableEq, Repr

namespace Segment

/-- The length of a header without options. -/
def headerLength : Nat := 20

/-- What a checksum covers beside the segment: both addresses, the protocol and the length,
which is written in as many bits as the family has for it. -/
def pseudoHeader? (source destination : IpAddress) (length : Nat) : Option Bytes :=
  match source, destination with
  | .v4 s, .v4 d =>
    some (s.toBytes ++ d.toBytes ++ [0, protocolTcp] ++ Bytes.ofNatBE 2 length)
  | .v6 s, .v6 d =>
    some (s.toBytes ++ d.toBytes ++ Bytes.ofNatBE 4 length ++ [0, 0, 0, protocolTcp])
  | _, _ => none

/-- The bytes of a segment with the given checksum. -/
def assemble (s : Segment) (sum : Nat) : Bytes :=
  Bytes.ofNatBE 2 s.source.toNat ++ Bytes.ofNatBE 2 s.destination.toNat ++
    Bytes.ofNatBE 4 s.sequence.toNat ++ Bytes.ofNatBE 4 s.acknowledgement.toNat ++
    [0x50, s.control.toByte] ++ Bytes.ofNatBE 2 s.window.toNat ++ Bytes.ofNatBE 2 sum ++ [0, 0] ++
    s.payload

/-- Writes a segment between two addresses of one family. -/
def toBytes (s : Segment) (source destination : IpAddress) : Except TunnelError Bytes :=
  let raw := s.assemble 0
  match pseudoHeader? source destination raw.length with
  | some pseudo => .ok (s.assemble (Net.checksum [pseudo, raw]))
  | none => .error mixedFamilies

/-- Whether the checksum of a written segment verifies between two addresses. -/
def checksumValid (raw : Bytes) (source destination : IpAddress) : Bool :=
  match pseudoHeader? source destination raw.length with
  | some pseudo => onesComplementSum [pseudo, raw] == 65535
  | none => false

/-- Reads a segment; its options are skipped and its checksum is not looked at. -/
def ofBytes (bs : Bytes) : Except TunnelError Segment :=
  if bs.length < headerLength then
    .error ⟨.invalidData, "Not enough bytes for TCP header"⟩
  else
    let start := (bs.getD 12 0).toNat / 16 * 4
    if start < headerLength ∨ bs.length < start then
      .error ⟨.invalidData, "TCP data offset out of range"⟩
    else
      .ok
        { source := UInt16.ofNat (Bytes.toNatBE (slice bs 0 2))
          destination := UInt16.ofNat (Bytes.toNatBE (slice bs 2 4))
          sequence := UInt32.ofNat (Bytes.toNatBE (slice bs 4 8))
          acknowledgement := UInt32.ofNat (Bytes.toNatBE (slice bs 8 12))
          control := Control.ofByte (bs.getD 13 0)
          window := UInt16.ofNat (Bytes.toNatBE (slice bs 14 16))
          checksum := UInt16.ofNat (Bytes.toNatBE (slice bs 16 18))
          payload := bs.drop start }

/-- A segment in words, with the length of its payload only. -/
def text (s : Segment) : String :=
  Control.record "TcpPacket"
    [("source_port", toString s.source.toNat), ("destination_port", toString s.destination.toNat),
      ("sequence_number", toString s.sequence.toNat),
      ("acknowledgment_number", toString s.acknowledgement.toNat), ("flags", s.control.text),
      ("window_size", toString s.window.toNat), ("payload len", toString s.payload.length)]

end Segment

end Tether.Net
