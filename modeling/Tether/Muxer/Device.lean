import Tether.Net.Address
import Tether.Plist.Value

/-!
# Devices that the daemon lists

The daemon describes a device by a number, a serial number and how it is attached; for a
device in the network it gives the address as the bytes of a socket address.

A list is read in two steps. `Listing.ofPlist?` reads the whole answer and refuses it if a
value has the wrong type. `Listing.device?` makes a device of an entry and fails for one
whose network address is missing or cannot be decoded.
-/

namespace Tether.Muxer

/-- How a device is attached. -/
inductive Attachment where
  | usb
  | network (address : Net.IpAddress)
  /-- In a way that is not known, by its name. -/
  | unknown (name : String)
  deriving DecidableEq

/-- A device. -/
structure Device where
  attachment : Attachment
  udid : String
  /-- The number that the daemon has for it. -/
  id : UInt32
  deriving DecidableEq

/-- An entry of the daemon's list. -/
structure Listing where
  id : UInt32
  connectionType : String
  networkAddress : Option Bytes
  serialNumber : String
  deriving DecidableEq

namespace Listing

/-- A number of 32 bits. -/
def id? (v : Plist) : Option UInt32 :=
  (v.asCount?.filter (· < 2 ^ 32)).map UInt32.ofNat

/-- A value that may be missing but must be readable if it is there. -/
def optional? {α : Type} (read : Plist → Option α) (v : Option Plist) : Option (Option α) :=
  match v with
  | none => some none
  | some v => (read v).map some

/-- Reads an entry. -/
def ofEntry? (v : Plist) : Option Listing := do
  let entry ← v.asDictionary?
  let id ← (entry.get? "DeviceID").bind id?
  let properties ← (entry.get? "Properties").bind Plist.asDictionary?
  return {
    id
    connectionType := ← (properties.get? "ConnectionType").bind Plist.asText?
    networkAddress := ← optional? Plist.asData? (properties.get? "NetworkAddress")
    serialNumber := ← (properties.get? "SerialNumber").bind Plist.asText? }

/-- Reads an answer with a list of devices. -/
def ofPlist? (answer : Plist.Dictionary) : Option (List Listing) := do
  ((← (answer.get? "DeviceList").bind Plist.asArray?)).mapM ofEntry?

/-- A byte as two hexadecimal digits. -/
def byteText (b : UInt8) : String :=
  String.ofList (Text.hexDigits true 2 b.toNat)

/-- The attachment that a socket address of eight bytes or more tells. A first byte of 2
means version 4; 0x1E, or 0x1C followed by it, means version 6. -/
def attachmentOf? (address : Bytes) : Option Attachment :=
  match address with
  | first :: second :: _ :: _ :: rest =>
    if rest.length < 4 then none
    else if first = 0x02 then
      some (.network (.v4 ⟨BitVec.ofNat 32 (Bytes.toNatBE (rest.take 4))⟩))
    else if first = 0x1E ∨ (first = 0x1C ∧ second = 0x1E) then
      let octets := (rest.drop 4).take 16
      if octets.length = 16 then some (.network (.v6 ⟨BitVec.ofNat 128 (Bytes.toNatBE octets)⟩))
      else none
    else some (.unknown ("Network " ++ byteText (if first = 0x1C then second else first)))
  | _ => none

/-- The device of an entry. -/
def device? (l : Listing) : Option Device := do
  let attachment ←
    if l.connectionType = "Network" then l.networkAddress.bind attachmentOf?
    else if l.connectionType = "USB" then some .usb
    else some (.unknown l.connectionType)
  return { attachment, udid := l.serialNumber, id := l.id }

end Listing

end Tether.Muxer
