import Tether.Connection
import Tether.Net.Address
import Tether.Text.Json

/-!
# Setting a tunnel up

A device offers a tunnel that carries IP packets in both directions. Before the packets,
one message goes each way: a magic word, a length in two bytes, and a JSON body in which
the host asks for a packet size and the device assigns addresses.
-/

namespace Tether.Tunnel

/-- The name of the service. -/
def serviceName : String := "com.apple.internal.devicecompute.CoreDeviceProxy"

/-- The packet size that the host asks for, and the one it takes if the device names none. -/
def defaultMtu : Nat := 16000

/-! ## Messages -/

/-- What each message starts with. -/
def magic : Bytes := Bytes.ofString "CDTunnel"

/-- The length of what stands before a body. -/
def headerLength : Nat := 10

/-- The length of the body that a header announces. -/
def bodyLength (header : Bytes) : Except DeviceError Nat :=
  if header.length < headerLength then .error .tunnelPacketTooShort
  else if header.take 8 ≠ magic then .error .tunnelPacketInvalidMagic
  else .ok (Bytes.toNatBE ((header.drop 8).take 2))

/-- The body of the message at the front. -/
def parse (bs : Bytes) : Except DeviceError Bytes := do
  let length ← bodyLength bs
  let body := (bs.drop headerLength).take length
  if body.length < length then throw .packetSizeMismatch
  return body

/-- The message with a body. -/
def serialize (body : Bytes) : Except DeviceError Bytes :=
  if body.length < 2 ^ 16 then .ok (magic ++ Bytes.ofNatBE 2 body.length ++ body)
  else .error .invalidArgument

/-! ## Handshake -/

/-- What the device assigns. -/
structure Handshake where
  /-- The packet size, zero if the device leaves it open. -/
  clientMtu : UInt16
  /-- The address of the host. -/
  clientAddress : String
  netmask : String
  /-- The address of the device. -/
  serverAddress : String
  type : String
  /-- The port of the service directory. -/
  directoryPort : UInt16
  deriving DecidableEq, Repr

/-- The names of the fields of an answer. -/
def answerFields : List String :=
  ["clientParameters", "serverAddress", "type", "serverRSDPort"]

/-- The names of the fields of the client's parameters. -/
def parameterFields : List String :=
  ["mtu", "address", "netmask"]

/-- A number of sixteen bits. -/
def word? (v : Json) : Option UInt16 :=
  (v.asNat?.filter (· < 2 ^ 16)).map UInt16.ofNat

/-- Reads the answer of the device. -/
def Handshake.ofJson? (v : Json) : Option Handshake :=
  match v.fields? answerFields with
  | some [client, server, type, port] =>
    match client.fields? parameterFields with
    | some [mtu, address, netmask] => do
      return { clientMtu := ← word? mtu
               clientAddress := ← address.asText?
               netmask := ← netmask.asText?
               serverAddress := ← server.asText?
               type := ← type.asText?
               directoryPort := ← word? port }
    | _ => none
  | _ => none

/-- The largest number of bytes that is received at once. -/
def Handshake.mtu (h : Handshake) : Nat :=
  if h.clientMtu = 0 then defaultMtu else h.clientMtu.toNat

/-- The body of the host's request. -/
def requestBody : Bytes :=
  Bytes.ofString ("\x7b\"type\":\"clientHandshakeRequest\",\"mtu\":" ++ toString defaultMtu ++ "\x7d")

/-- Sets the tunnel up. -/
def negotiate : Call DeviceError Connection Handshake := do
  Connection.sendRaw (← Call.ofExcept (serialize requestBody))
  let length ← Call.ofExcept (bodyLength (← Connection.readRaw headerLength))
  let body ← Connection.readRaw length
  Call.ofOption .badJson ((Json.ofBytes? body).bind Handshake.ofJson?)

/-- Receives bytes of the tunnel. -/
def receive (h : Handshake) : Call DeviceError Connection Bytes :=
  Connection.readAny h.mtu

/-- The ends of a tunnel, for the stack of protocols that runs in it. -/
structure Ends where
  transport : Transport
  host : Net.IpAddress
  device : Net.IpAddress
  mtu : Nat

/-- Hands the tunnel over to a stack of protocols. -/
def handOver (h : Handshake) : Call DeviceError Connection Ends := do
  let host ← Call.ofOption .badAddress (Net.IpAddress.ofString? h.clientAddress)
  let device ← Call.ofOption .badAddress (Net.IpAddress.ofString? h.serverAddress)
  return { transport := ← Connection.takeTransport, host, device, mtu := h.clientMtu.toNat }

end Tether.Tunnel
