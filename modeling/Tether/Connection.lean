import Tether.Error
import Tether.Plist.Binary.Writer
import Tether.Plist.Read
import Tether.Plist.Xml.Writer
import Tether.Tls.Engine

/-!
# Connections to services

A connection is the host's end of a conversation with one service of a device: a transport,
whether the connection still owns it, and the label by which the host introduces itself.
Services exchange dictionaries, each behind its length in four bytes.

A connection loses its transport for good when it is closed, handed over, or when securing
it fails. From then on each call that needs the transport fails and leaves it alone
(`onTransport_lost`).
-/

namespace Tether

/-- A connection to a service. -/
structure Connection where
  transport : Transport
  /-- Whether the transport is still there. -/
  isOpen : Bool := true
  label : String

namespace Connection

/-- The longest dictionary that is accepted. -/
def maxPlistLength : Nat := 64 * 1024 * 1024

/-- The size of the pieces that raw bytes are sent in. -/
def pieceSize : Nat := 64 * 1024

/-- Runs a call on the transport, if it is still there. -/
def onTransport {α : Type} (c : Call Fault Transport α) : Call DeviceError Connection α := do
  if (← get).isOpen then
    Call.zoom Connection.transport (fun s t => { s with transport := t }) DeviceError.socket c
  else Call.fail .noEstablishedConnection

theorem onTransport_lost {α : Type} (c : Call Fault Transport α) {s : Connection}
    (h : s.isOpen = false) :
    onTransport c s = .error (.failed .noEstablishedConnection) s := by
  change (if s.isOpen then Call.zoom _ _ _ c else Call.fail .noEstablishedConnection :
    Call DeviceError Connection α) s = _
  rw [h]
  rfl

/-! ## Bytes -/

/-- Sends bytes behind their length. -/
def sendFramed (body : Bytes) : Call DeviceError Connection Unit :=
  onTransport do
    Transport.writeAll (Bytes.ofNatBE 4 body.length)
    Transport.writeAll body

/-- Sends bytes as they are. -/
def sendRaw (bs : Bytes) : Call DeviceError Connection Unit :=
  onTransport ((pieces pieceSize bs).forM Transport.writeAll)

/-- Reads exactly so many bytes. -/
def readRaw (length : Nat) : Call DeviceError Connection Bytes :=
  onTransport (Transport.readExact length)

/-- Reads what is there, at most so many bytes. -/
def readAny (most : Nat) : Call DeviceError Connection Bytes :=
  onTransport (Transport.read most)

/-! ## Dictionaries -/

/-- Sends a property list as XML. -/
def send (v : Plist) : Call DeviceError Connection Unit := do
  sendFramed (← Call.ofOption .badPlist (Plist.Xml.write? v))

/-- Sends a property list in the binary form. -/
def sendBinary (v : Plist) : Call DeviceError Connection Unit :=
  sendFramed (Plist.Binary.write v)

/-- The error that a dictionary reports. -/
def reportedError? (d : Plist.Dictionary) : Option DeviceError :=
  ((d.get? "Error").bind Plist.asString?).map fun name =>
    .ofReport name ((d.get? "DetailedError").bind Plist.asString?)

/-- Receives a dictionary. One that reports an error fails with it. -/
def receive : Call DeviceError Connection Plist.Dictionary := do
  let length := Bytes.toNatBE (← readRaw 4)
  if maxPlistLength < length then Call.fail .packetSizeMismatch
  let body ← readRaw length
  let d ← Call.ofOption .badPlist (Plist.dictionaryOfBytes? body)
  match reportedError? d with
  | some e => Call.fail e
  | none => return d

/-- Sends a dictionary and receives one. -/
def exchange (request : Plist.Dictionary) : Call DeviceError Connection Plist.Dictionary := do
  send (.dictionary request)
  receive

/-- The text under a key. -/
def textAt? (d : Plist.Dictionary) (key : String) : Option String :=
  (d.get? key).bind Plist.asString?

/-- Asks for the type of the service. -/
def getType : Call DeviceError Connection String := do
  let answer ← exchange [("Label", .string (← get).label), ("Request", .string "QueryType")]
  Call.ofOption .unexpectedResponse (textAt? answer "Type")

/-- Receives a dictionary that names the given request. -/
def expectRequest (name : String) : Call DeviceError Connection Unit := do
  let d ← receive
  if textAt? d "Request" ≠ some name then Call.fail .unexpectedResponse

/-- Introduces the host to a service that is reached through a tunnel: the service answers
with the same request and then says that it starts. -/
def checkIn : Call DeviceError Connection Unit := do
  send (.dictionary [("Label", .string (← get).label), ("ProtocolVersion", .string "2"),
    ("Request", .string "RSDCheckin")])
  expectRequest "RSDCheckin"
  expectRequest "StartService"

/-! ## The transport -/

/-- Secures the connection. The transport is taken out first, so that a failure at any stage
leaves none. -/
def secure (engine : Tls.Engine) (record : PairingRecord) (legacy : Bool) :
    Call DeviceError Connection Unit := do
  if !(← get).isOpen then Call.fail .noEstablishedConnection
  modify fun s => { s with isOpen := false }
  let config ← Call.ofExcept (engine.configure record legacy)
  let secured ← Call.zoom Connection.transport (fun s t => { s with transport := t })
    DeviceError.handshakeFailed (engine.secure config)
  modify fun s => { s with transport := secured, isOpen := true }

/-- Shuts the transport down. Closing again does nothing. -/
def close : Call DeviceError Connection Unit := do
  if (← get).isOpen then
    modify fun s => { s with isOpen := false }
    Call.zoom Connection.transport (fun s t => { s with transport := t }) DeviceError.socket
      Transport.shutdown

/-- Hands the transport over. -/
def takeTransport : Call DeviceError Connection Transport := do
  let s ← get
  if s.isOpen then
    set { s with isOpen := false }
    return s.transport
  else Call.fail .noEstablishedConnection

end Connection

end Tether
