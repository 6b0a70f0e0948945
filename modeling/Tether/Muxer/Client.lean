import Tether.Muxer.Device
import Tether.Provider

/-!
# Talking to the multiplexing daemon

Requests and answers are dictionaries behind a header of four little endian numbers: the
length of the whole packet, a version, a kind and a tag. On request the daemon turns a
connection to itself into one to a port of a device; whatever follows its answer comes from
the device.
-/

namespace Tether.Muxer

/-- The version of packets with binary bodies. -/
def binaryVersion : UInt32 := 0

/-- The version of packets with XML bodies. -/
def xmlVersion : UInt32 := 1

/-- The kind of packets with a bare result. -/
def resultKind : UInt32 := 1

/-- The kind of packets with a dictionary. -/
def plistKind : UInt32 := 8

/-- The length of a header. -/
def headerLength : Nat := 16

/-- The header of a packet. -/
structure Header where
  /-- The length of the packet. -/
  size : UInt32
  version : UInt32
  kind : UInt32
  tag : UInt32
  deriving DecidableEq, Repr

/-- The bytes of a header. -/
def Header.toBytes (h : Header) : Bytes :=
  [h.size, h.version, h.kind, h.tag].flatMap fun field => Bytes.ofNatLE 4 field.toNat

/-- A field of a header. -/
def Header.fieldOf (bs : Bytes) (i : Nat) : UInt32 :=
  UInt32.ofNat (Bytes.toNatLE ((bs.drop (4 * i)).take 4))

/-- Reads a header. The length includes it. -/
def Header.ofBytes (bs : Bytes) : Except DeviceError Header :=
  let h : Header := ⟨fieldOf bs 0, fieldOf bs 1, fieldOf bs 2, fieldOf bs 3⟩
  if h.size.toNat < headerLength then .error .packetSizeMismatch else .ok h

/-- The packet with a request. -/
def packet (tag : UInt32) (request : Plist.Dictionary) : Except DeviceError Bytes := do
  let body ← (Plist.Xml.write? (.dictionary request)).elim (.error .badPlist) .ok
  let header : Header :=
    { size := UInt32.ofNat (headerLength + body.length), version := xmlVersion, kind := plistKind, tag }
  return header.toBytes ++ body

/-- The host's end of a connection to the daemon. -/
structure Client where
  transport : Transport
  /-- The tag of all packets. -/
  tag : UInt32

namespace Client

/-- Runs a call on the transport. -/
@[inline] def onTransport {α : Type} (c : Call Fault Transport α) : Call DeviceError Client α :=
  Call.zoom Client.transport (fun client transport => { client with transport }) DeviceError.socket c

/-- Sends a request. -/
def send (request : Plist.Dictionary) : Call DeviceError Client Unit := do
  let bs ← Call.ofExcept (packet (← get).tag request)
  onTransport (Transport.writeAll bs)

/-- Receives a dictionary. -/
def receive : Call DeviceError Client Plist.Dictionary := do
  let header ← Call.ofExcept (Header.ofBytes (← onTransport (Transport.readExact headerLength)))
  let body ← onTransport (Transport.readExact (header.size.toNat - headerLength))
  Call.ofOption .badPlist (Plist.dictionaryOfBytes? body)

/-- Sends a request and receives a dictionary. -/
def ask (type : String) (fields : Plist.Dictionary) : Call DeviceError Client Plist.Dictionary := do
  send ([("MessageType", .string type)] ++ fields)
  receive

/-- The devices. Entries that are described incompletely are left out. -/
def devices : Call DeviceError Client (List Device) := do
  let answer ← ask "ListDevices"
    [("ClientVersionString", .string "devicelink"), ("kLibUSBMuxVersion", .integer { value := 3 })]
  let listings ← Call.ofOption .badPlist (Listing.ofPlist? answer)
  return listings.filterMap Listing.device?

/-- The device with an identifier. -/
def device (udid : String) : Call DeviceError Client Device := do
  Call.ofOption .deviceNotFound ((← devices).find? (·.udid = udid))

/-- The pairing record that the daemon keeps for a device. -/
def pairRecord (udid : String) : Call DeviceError Client PairingRecord := do
  let answer ← ask "ReadPairRecord" [("PairRecordID", .string udid)]
  let data ← Call.ofOption .notFound ((answer.get? "PairRecordData").bind Plist.asData?)
  Call.ofExcept (PairingRecord.ofBytes data)

/-- The identifier that the daemon has for the host. -/
def hostIdentifier : Call DeviceError Client String := do
  let answer ← ask "ReadBUID" []
  Call.ofOption .unexpectedResponse ((answer.get? "BUID").bind Plist.asString?)

/-- What the number in an answer means. -/
def resultOf (number : Option Nat) : Except DeviceError Unit :=
  match number with
  | some 0 => .ok ()
  | some 1 => .error .usbBadCommand
  | some 2 => .error .usbBadDevice
  | some 3 => .error .usbConnectionRefused
  | some 6 => .error .usbBadVersion
  | _ => .error .unexpectedResponse

/-- A port with its two bytes swapped, the order in which the daemon wants it. -/
def swapped (port : UInt16) : Plist.Integer :=
  .ofUInt64 (UInt64.ofNat (Bytes.toNatLE (Bytes.ofNatBE 2 port.toNat)))

/-- Turns the connection into one to a port of a device. -/
def connect (id : UInt32) (port : UInt16) (label : String) : Call DeviceError Client Connection := do
  let answer ← ask "Connect"
    [("DeviceID", .integer (.ofUInt64 id.toUInt64)), ("PortNumber", .integer (swapped port))]
  Call.ofExcept (resultOf ((answer.get? "Number").bind Plist.asUnsigned?))
  return { transport := (← get).transport, label }

end Client

/-- A way to a device through the daemon. -/
structure Route where
  tag : UInt32
  udid : String
  id : UInt32
  label : String
  deriving DecidableEq

/-- The way to a device; its number serves as the tag too. -/
def Device.route (d : Device) (label : String) : Route :=
  { tag := d.id, udid := d.udid, id := d.id, label }

namespace Route

/-- Reads the pairing record over a new connection to the daemon. -/
def pairRecord (r : Route) (daemon : Transport) :
    EStateM.Result (Halt DeviceError) Client PairingRecord :=
  Client.pairRecord r.udid { transport := daemon, tag := r.tag }

/-- Dials a port over a new connection to the daemon. -/
def dial (r : Route) (port : UInt16) (daemon : Transport) :
    EStateM.Result (Halt DeviceError) Client Connection :=
  Client.connect r.id port r.label { transport := daemon, tag := r.tag }

end Route

end Tether.Muxer
