import Tether.Http2.Frame

/-!
# An HTTP/2 connection

One transport carries many streams. A reader of one stream keeps the payloads of the others
in queues for later readers, and answers what has to be answered on the way: parameters and
pings are acknowledged, and the window of a stream that the device opened (these have even
numbers) is refilled as its data comes in.

* `Client.take`: reads the next payload of a stream;
* `Client.react`: what one frame does to a reader.
-/

namespace Tether.Http2

/-- The near end of a connection. -/
structure Client where
  transport : Transport
  /-- Payloads that came in and were not asked for yet, oldest first. -/
  queues : UInt32 → List Bytes := fun _ => []

namespace Client

/-- What either end of a connection starts with. -/
def preface : Bytes :=
  Bytes.ofString "PRI * HTTP/2.0\r\n\r\nSM\r\n\r\n"

/-- Runs a call on the transport. -/
@[inline] def onTransport {α : Type} (c : Call DeviceError Transport α) :
    Call DeviceError Client α :=
  Call.zoom Client.transport (fun client t => { client with transport := t }) id c

/-- Writes bytes. -/
def write (bs : Bytes) : Call DeviceError Client Unit :=
  onTransport (Call.zoom id (fun _ t => t) .socket (Transport.writeAll bs))

/-- Writes a frame. -/
def writeFrame (frame : Frame) : Call DeviceError Client Unit :=
  write frame.toBytes

/-- Starts a connection. -/
def start : Call DeviceError Client Unit :=
  write preface

/-- Announces parameters. -/
def announce (settings : List Setting) (stream : UInt32) : Call DeviceError Client Unit :=
  writeFrame (.settings settings stream 0)

/-- Lets the other end send more. -/
def updateWindow (increment stream : UInt32) : Call DeviceError Client Unit :=
  writeFrame (.windowUpdate increment stream)

/-- Opens a stream. -/
def openStream (stream : UInt32) : Call DeviceError Client Unit :=
  writeFrame (.headers stream)

/-- Sends a payload on a stream, in one frame. -/
def send (payload : Bytes) (stream : UInt32) : Call DeviceError Client Unit :=
  writeFrame (.data stream payload)

/-- Takes the oldest payload from a stream's queue. -/
def dequeue (stream : UInt32) : Call DeviceError Client (Option Bytes) := do
  let client ← get
  match client.queues stream with
  | [] => pure none
  | payload :: rest =>
    set { client with queues := fun s => if s = stream then rest else client.queues s }
    pure (some payload)

/-- Puts a payload behind the others of its stream. -/
def enqueue (stream : UInt32) (payload : Bytes) : Call DeviceError Client Unit :=
  modify fun client =>
    { client with
      queues := fun s => if s = stream then client.queues s ++ [payload] else client.queues s }

/-- Refills the windows for a payload, on a stream that the device opened. -/
def refill (source : UInt32) (payload : Bytes) : Call DeviceError Client Unit := do
  if source % 2 = 0 ∧ payload ≠ [] then
    updateWindow (UInt32.ofNat payload.length) 0
    updateWindow (UInt32.ofNat payload.length) source

/-- What a frame does to a reader of `stream`: the payload if it is the one waited for. -/
def react (stream : UInt32) : Frame → Call DeviceError Client (Option Bytes)
  | .settings _ _ flags => do
    if flags &&& Frame.acknowledged = 0 then writeFrame Frame.settingsAck
    pure none
  | .ping flags payload => do
    if flags &&& Frame.acknowledged = 0 then writeFrame (.ping Frame.acknowledged payload)
    pure none
  | .data source payload => do
    refill source payload
    if source = stream then pure (some payload)
    else
      enqueue source payload
      pure none
  | .headers _ => pure none
  | .windowUpdate _ _ => pure none
  | .priority => pure none

/-- Reads frames until one has a payload for `stream`. -/
def takeMore (stream : UInt32) : Nat → Call DeviceError Client Bytes
  | 0 => throw .waiting
  | fuel + 1 => do
    let frame ← onTransport Frame.read
    match ← react stream frame with
    | some payload => pure payload
    | none => takeMore stream fuel

/-- The next payload of a stream. A frame takes at least nine bytes, so there are no more
frames than unread bytes. -/
def take (stream : UInt32) : Call DeviceError Client Bytes := do
  match ← dequeue stream with
  | some payload => pure payload
  | none => takeMore stream ((← get).transport.unread.length + 1)

end Client

end Tether.Http2
