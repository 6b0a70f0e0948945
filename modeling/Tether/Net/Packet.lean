import Tether.Error.Fault
import Tether.Net.Address

/-!
# IP packets

A tunnel carries IP packets of both versions back to back. `cutPacket` takes one off the
front of what has arrived, or says that more is needed, or that this is no packet at all.
Only what a client needs is written: no options, no fragments.

* `wrap`: a payload in the header that its addresses ask for;
* `cutPacket`: the other direction.
-/

namespace Tether.Net

/-- The sum of the big endian words of a byte string, an odd last byte padded by zero. -/
def wordSum : Bytes → Nat
  | a :: b :: rest => 256 * a.toNat + b.toNat + wordSum rest
  | [a] => 256 * a.toNat
  | [] => 0

/-- A sum with its carries added back in until it fits a word: zero stays zero, and any other
sum becomes its residue modulo 65535 between 1 and 65535. -/
def foldCarries (n : Nat) : Nat :=
  if n = 0 then 0 else (n - 1) % 65535 + 1

/-- The one's complement sum of byte strings, one after the other, each padded to a whole
number of words. Sums are kept in 32 bits. -/
def onesComplementSum (parts : List Bytes) : Nat :=
  parts.foldl (fun sum part => foldCarries ((sum + wordSum part) % 2 ^ 32)) 0

/-- The checksum that makes a sum come out as all ones. -/
def checksum (parts : List Bytes) : Nat :=
  65535 - onesComplementSum parts

/-- What cutting a packet off the front of some bytes gives. -/
inductive Cut (α : Type) where
  /-- A packet, and how many bytes it took. -/
  | packet (value : α) (length : Nat)
  /-- The start of a packet. -/
  | incomplete
  /-- Not the start of a packet. -/
  | invalid
  deriving DecidableEq, Repr

/-- The packet with something made of it. -/
def Cut.map {α β : Type} (f : α → β) : Cut α → Cut β
  | .packet value length => .packet (f value) length
  | .incomplete => .incomplete
  | .invalid => .invalid

/-- The protocol number of TCP. -/
def protocolTcp : UInt8 := 6

/-- The hops a packet may take. -/
def hopLimit : UInt8 := 64

/-- The bytes from `start` up to `stop`. -/
def slice (bs : Bytes) (start stop : Nat) : Bytes :=
  (bs.drop start).take (stop - start)

/-- A version 4 packet. -/
structure Ipv4Packet where
  ttl : UInt8
  protocol : UInt8
  checksum : UInt16
  source : Ipv4Address
  destination : Ipv4Address
  payload : Bytes
  deriving DecidableEq, Repr

namespace Ipv4Packet

/-- The length of a header without options. -/
def headerLength : Nat := 20

/-- Cuts a version 4 packet off the front. -/
def cut (bs : Bytes) : Cut Ipv4Packet :=
  if bs.length < headerLength then .incomplete
  else
    let first := (bs.headD 0).toNat
    let header := first % 16 * 4
    let total := Bytes.toNatBE (slice bs 2 4)
    if first / 16 ≠ 4 then .invalid
    else if header < headerLength ∨ total < header then .invalid
    else if bs.length < total then .incomplete
    else
      .packet
        { ttl := bs.getD 8 0
          protocol := bs.getD 9 0
          checksum := UInt16.ofNat (Bytes.toNatBE (slice bs 10 12))
          source := Ipv4Address.ofBytes (slice bs 12 16)
          destination := Ipv4Address.ofBytes (slice bs 16 20)
          payload := slice bs header total }
        total

/-- A header with the given checksum. -/
def header (source destination : Ipv4Address) (protocol : UInt8) (total sum : Nat) : Bytes :=
  [0x45, 0] ++ Bytes.ofNatBE 2 total ++ [0, 0, 0x40, 0, hopLimit, protocol] ++
    Bytes.ofNatBE 2 sum ++ source.toBytes ++ destination.toBytes

/-- Writes a packet. -/
def create (source destination : Ipv4Address) (protocol : UInt8) (payload : Bytes) :
    Except TunnelError Bytes :=
  let total := headerLength + payload.length
  if total < 65536 then
    let sum := Net.checksum [header source destination protocol total 0]
    .ok (header source destination protocol total sum ++ payload)
  else .error ⟨.invalidInput, "IPv4 payload too large"⟩

/-- Whether the checksum of the header in front verifies. -/
def checksumValid (bs : Bytes) : Bool :=
  match bs with
  | [] => false
  | first :: _ =>
    let header := first.toNat % 16 * 4
    header ≤ bs.length && onesComplementSum [bs.take header] == 65535

end Ipv4Packet

/-- A version 6 packet. -/
structure Ipv6Packet where
  nextHeader : UInt8
  hopLimit : UInt8
  source : Ipv6Address
  destination : Ipv6Address
  payload : Bytes
  deriving DecidableEq, Repr

namespace Ipv6Packet

/-- The length of a header. -/
def headerLength : Nat := 40

/-- Cuts a version 6 packet off the front. -/
def cut (bs : Bytes) : Cut Ipv6Packet :=
  if bs.length < headerLength then .incomplete
  else if (bs.headD 0).toNat / 16 ≠ 6 then .invalid
  else
    let total := headerLength + Bytes.toNatBE (slice bs 4 6)
    if bs.length < total then .incomplete
    else
      .packet
        { nextHeader := bs.getD 6 0
          hopLimit := bs.getD 7 0
          source := Ipv6Address.ofBytes (slice bs 8 24)
          destination := Ipv6Address.ofBytes (slice bs 24 40)
          payload := slice bs headerLength total }
        total

/-- Writes a packet. -/
def create (source destination : Ipv6Address) (nextHeader : UInt8) (payload : Bytes) :
    Except TunnelError Bytes :=
  if payload.length < 65536 then
    .ok ([0x60, 0, 0, 0] ++ Bytes.ofNatBE 2 payload.length ++ [nextHeader, Net.hopLimit] ++
      source.toBytes ++ destination.toBytes ++ payload)
  else .error ⟨.invalidInput, "IPv6 payload too large"⟩

end Ipv6Packet

/-- What both versions of a packet have in common. -/
structure IpPacket where
  source : IpAddress
  destination : IpAddress
  protocol : UInt8
  payload : Bytes
  deriving DecidableEq, Repr

/-- Cuts a packet of either version off the front. -/
def cutPacket (bs : Bytes) : Cut IpPacket :=
  match bs with
  | [] => .incomplete
  | first :: _ =>
    match first.toNat / 16 with
    | 4 =>
      (Ipv4Packet.cut bs).map fun p => ⟨.v4 p.source, .v4 p.destination, p.protocol, p.payload⟩
    | 6 =>
      (Ipv6Packet.cut bs).map fun p => ⟨.v6 p.source, .v6 p.destination, p.nextHeader, p.payload⟩
    | _ => .invalid

/-- Cuts at most so many packets off the front. -/
def cutAtMost : Nat → Bytes → List Bytes
  | 0, bs => [bs]
  | fuel + 1, bs =>
    match cutPacket bs with
    | .packet _ n => bs.take n :: cutAtMost fuel (bs.drop n)
    | _ => [bs]

/-- Cuts bytes into packets, up to a place where there is none. What is left there comes
last, also if it is nothing. Each packet has twenty bytes at least. -/
def cutAll (bs : Bytes) : List Bytes :=
  cutAtMost (bs.length / Ipv4Packet.headerLength + 1) bs

/-- The failure of a packet between addresses of different families. -/
def mixedFamilies : TunnelError :=
  ⟨.invalidInput, "source and destination IP versions differ"⟩

/-- Writes a packet of the version that the addresses have. -/
def wrap (source destination : IpAddress) (protocol : UInt8) (payload : Bytes) :
    Except TunnelError Bytes :=
  match source, destination with
  | .v4 s, .v4 d => Ipv4Packet.create s d protocol payload
  | .v6 s, .v6 d => Ipv6Packet.create s d protocol payload
  | _, _ => .error mixedFamilies

end Tether.Net
