import Tether.Bytes

/-!
# Captures

A capture is a file of all packets that pass through a tunnel, in the form that packet
analysers read: a header of 24 bytes, then a record for each packet. A record has the time,
the length of the packet twice, and the packet.

* `Capture.toBytes`, `Capture.ofBytes?`: the two directions of the format.
-/

namespace Tether.Tunnel

/-- A packet and when it passed, in microseconds since 1970. -/
structure Capture.Record where
  time : UInt64
  packet : Bytes
  deriving DecidableEq, Repr

/-- The packets that passed, oldest first. -/
abbrev Capture := List Capture.Record

namespace Capture

/-- The header of a file: a magic word, version 2.4, no offset from universal time, the
longest packet that is kept whole, and the kind of packets, which is raw IP. -/
def header : Bytes :=
  Bytes.ofNatLE 4 0xa1b2c3d4 ++ Bytes.ofNatLE 2 2 ++ Bytes.ofNatLE 2 4 ++ Bytes.ofNatLE 4 0 ++
    Bytes.ofNatLE 4 0 ++ Bytes.ofNatLE 4 65535 ++ Bytes.ofNatLE 4 101

/-- The bytes of a record. -/
def Record.toBytes (r : Record) : Bytes :=
  Bytes.ofNatLE 4 (r.time.toNat / 1000000) ++ Bytes.ofNatLE 4 (r.time.toNat % 1000000) ++
    Bytes.ofNatLE 4 r.packet.length ++ Bytes.ofNatLE 4 r.packet.length ++ r.packet

/-- The bytes of a file. -/
def toBytes (c : Capture) : Bytes :=
  header ++ c.flatMap Record.toBytes

/-- Reads the record at the front, with the bytes behind it. -/
def Record.ofBytes? (bs : Bytes) : Option (Record × Bytes) :=
  let word (i : Nat) : Nat := Bytes.toNatLE ((bs.drop (4 * i)).take 4)
  let rest := bs.drop 16
  if bs.length < 16 ∨ word 2 ≠ word 3 ∨ rest.length < word 2 then none
  else
    some (⟨UInt64.ofNat (word 0 * 1000000 + word 1), rest.take (word 2)⟩, rest.drop (word 2))

/-- Reads records up to the end. Each has sixteen bytes at least. -/
def recordsOf? : Nat → Bytes → Option Capture
  | _, [] => some []
  | 0, _ => none
  | fuel + 1, bs => do
    let (record, rest) ← Record.ofBytes? bs
    return record :: (← recordsOf? fuel rest)

/-- Reads a file. -/
def ofBytes? (bs : Bytes) : Option Capture :=
  if bs.take 24 = header then recordsOf? bs.length (bs.drop 24) else none

end Capture

end Tether.Tunnel
