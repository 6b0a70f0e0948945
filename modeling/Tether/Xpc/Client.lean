import Tether.Http2.Client
import Tether.Xpc.Message

/-!
# A remote XPC connection

XPC messages travel on two streams of an HTTP/2 connection, a root stream and a reply
stream. The messages of the root stream are cut into payloads at arbitrary places, so a
reader keeps the bytes of an incomplete message (`Client.pending`) until the rest arrives.

* `Client.handshake`: opens both streams;
* `Client.receive`: the body of the next message on the root stream that has one.
-/

namespace Tether.Xpc

/-- The near end of a connection. -/
structure Client where
  http : Http2.Client
  /-- The identifier of the next message on the root stream. -/
  rootId : UInt64 := 1
  /-- The identifier of the next message on the reply stream. -/
  replyId : UInt64 := 1
  /-- Bytes of the root stream that no message was made of yet. -/
  pending : Bytes := []

namespace Client

/-- The stream that carries requests and answers. -/
def rootStream : UInt32 := 1

/-- The stream that carries replies. -/
def replyStream : UInt32 := 3

/-- How many streams the other end may open. -/
def maxConcurrentStreams : UInt32 := 100

/-- The window of each stream. -/
def initialWindowSize : UInt32 := 1048576

/-- What the window of the whole connection grows by at the start. -/
def windowIncrement : UInt32 := 983041

/-- The flags of the second message on the root stream. -/
def rootOpened : Flags := ⟨0x201⟩

/-- Runs a call on the HTTP/2 connection. -/
@[inline] def onHttp {α : Type} (c : Call DeviceError Http2.Client α) : Call DeviceError Client α :=
  Call.zoom Client.http (fun client http => { client with http }) id c

/-- Starts a connection. -/
def start : Call DeviceError Client Unit :=
  onHttp Http2.Client.start

/-- Sends a message on the root stream and moves on to the next identifier. -/
def sendRoot (flags : Flags) (body : Option Object) : Call DeviceError Client Unit := do
  let message : Message := { flags, body, id := (← get).rootId }
  onHttp (Http2.Client.send message.encode rootStream)
  modify fun client => { client with rootId := client.rootId + 1 }

/-- Sends a message on the reply stream and moves on to the next identifier. -/
def sendReply (flags : Flags) (body : Option Object) : Call DeviceError Client Unit := do
  let message : Message := { flags, body, id := (← get).replyId }
  onHttp (Http2.Client.send message.encode replyStream)
  modify fun client => { client with replyId := client.replyId + 1 }

/-- Announces the parameters of the connection and opens both streams. -/
def handshake : Call DeviceError Client Unit := do
  onHttp (Http2.Client.announce
    [.maxConcurrentStreams maxConcurrentStreams, .initialWindowSize initialWindowSize] 0)
  onHttp (Http2.Client.updateWindow windowIncrement 0)
  onHttp (Http2.Client.openStream rootStream)
  sendRoot Flags.alwaysSet (some (.dictionary []))
  sendRoot rootOpened none
  onHttp (Http2.Client.openStream replyStream)
  sendReply (Flags.initHandshake ||| Flags.alwaysSet) none

/-- Sends an object on the root stream. -/
def send (object : Object) (expectReply : Bool) : Call DeviceError Client Unit :=
  let wanting := if expectReply then Flags.alwaysSet ||| Flags.wantingReply else Flags.alwaysSet
  sendRoot (wanting ||| Flags.data) (some object)

/-- The length of the first pending message, if all of it is there. -/
def completeLength? (pending : Bytes) : Option Nat :=
  (Message.frameLength? pending).filter (· ≤ pending.length)

/-- Takes payloads until a message with a body is complete. A message that does not decode
stays pending. -/
def receiveMore : Nat → Call DeviceError Client Object
  | 0 => throw .waiting
  | fuel + 1 => do
    let pending := (← get).pending
    match completeLength? pending with
    | none =>
      let payload ← onHttp (Http2.Client.take rootStream)
      modify fun client => { client with pending := client.pending ++ payload }
      receiveMore fuel
    | some length =>
      let message ← Call.ofExcept (Message.decode (pending.take length))
      modify fun client => { client with pending := client.pending.drop length }
      match message.body with
      | some object => pure object
      | none => receiveMore fuel

/-- How many steps a receiver can take: each one uses up a queued payload, bytes of the
transport, or pending bytes. -/
def receiveFuel (client : Client) : Nat :=
  client.pending.length + client.http.transport.unread.length +
    (client.http.queues rootStream).foldr (fun payload n => payload.length + 1 + n) 1

/-- The body of the next message on the root stream that has one; the others are skipped. -/
def receive : Call DeviceError Client Object := do
  receiveMore (receiveFuel (← get))

end Client

end Tether.Xpc
