import Tether.Error
import Tether.Text.Utf8
import Tether.Transport

/-!
# HTTP/2 frames

The frames that carry XPC. Each starts with nine bytes: the length of its payload in
three, its type, its flags, and a stream of 31 bits. `Frame.read` takes exactly one frame
from a transport. Some frames are errors to a reader (a reset stream, a farewell, a type
it does not know), but these are consumed whole as well, so that the next read starts at
the next frame.

* `Frame.toBytes`, `Frame.ofPayload`: the two directions of the format.
-/

namespace Tether.Http2

/-- A parameter that one end announces to the other. -/
inductive Setting where
  | headerTableSize (value : UInt32)
  | enablePush (on : Bool)
  | maxConcurrentStreams (value : UInt32)
  | initialWindowSize (value : UInt32)
  | maxFrameSize (value : UInt32)
  | maxHeaderListSize (value : UInt32)
  | enableConnectProtocol (on : Bool)
  deriving DecidableEq, Repr

namespace Setting

/-- The number of a parameter. -/
def id : Setting → Nat
  | headerTableSize _ => 1
  | enablePush _ => 2
  | maxConcurrentStreams _ => 3
  | initialWindowSize _ => 4
  | maxFrameSize _ => 5
  | maxHeaderListSize _ => 6
  | enableConnectProtocol _ => 8

/-- The name of a parameter. -/
def name : Setting → String
  | headerTableSize _ => "HeaderTableSize"
  | enablePush _ => "EnablePush"
  | maxConcurrentStreams _ => "MaxConcurrentStreams"
  | initialWindowSize _ => "InitialWindowSize"
  | maxFrameSize _ => "MaxFrameSize"
  | maxHeaderListSize _ => "MaxHeaderListSize"
  | enableConnectProtocol _ => "EnableConnectProtocol"

/-- Whether a parameter is either on or off. -/
def isSwitch : Setting → Bool
  | enablePush _ => true
  | enableConnectProtocol _ => true
  | _ => false

/-- The announced value, a switch as zero or one. -/
def value : Setting → UInt32
  | headerTableSize v => v
  | enablePush on => if on then 1 else 0
  | maxConcurrentStreams v => v
  | initialWindowSize v => v
  | maxFrameSize v => v
  | maxHeaderListSize v => v
  | enableConnectProtocol on => if on then 1 else 0

/-- The parameter with a number, if there is one; a switch is on unless its value is zero. -/
def ofPair? (id : Nat) (value : UInt32) : Option Setting :=
  match id with
  | 1 => some (headerTableSize value)
  | 2 => some (enablePush (value != 0))
  | 3 => some (maxConcurrentStreams value)
  | 4 => some (initialWindowSize value)
  | 5 => some (maxFrameSize value)
  | 6 => some (maxHeaderListSize value)
  | 8 => some (enableConnectProtocol (value != 0))
  | _ => none

/-- The parameter with a name, if there is one. -/
def ofName? (name : String) (value : UInt32) : Option Setting :=
  ([1, 2, 3, 4, 5, 6, 8].filterMap (ofPair? · value)).find? fun s => s.name = name

/-- The six bytes of a parameter. -/
def toBytes (s : Setting) : Bytes :=
  Bytes.ofNatBE 2 s.id ++ Bytes.ofNatBE 4 s.value.toNat

/-- The parameters in a payload. Unknown ones are ignored, as is an incomplete last one. -/
def ofPayload (payload : Bytes) : List Setting :=
  (pieces 6 payload).filterMap fun field =>
    if field.length = 6 then
      ofPair? (Bytes.toNatBE (field.take 2)) (UInt32.ofNat (Bytes.toNatBE (field.drop 2)))
    else none

theorem ofPair?_id_value (s : Setting) : ofPair? s.id s.value = some s := by
  cases s with
  | enablePush on => cases on <;> rfl
  | enableConnectProtocol on => cases on <;> rfl
  | _ => rfl

end Setting

/-- The number of a stream as it is written: its highest bit is reserved. -/
def streamBits (stream : UInt32) : UInt32 :=
  stream &&& 0x7fffffff

/-- A frame that a reader of XPC has to react to. -/
inductive Frame where
  | settings (announced : List Setting) (stream : UInt32) (flags : UInt8)
  | data (stream : UInt32) (payload : Bytes)
  | headers (stream : UInt32)
  | windowUpdate (increment : UInt32) (stream : UInt32)
  | ping (flags : UInt8) (payload : Bytes)
  | priority
  deriving DecidableEq, Repr

namespace Frame

/-- The length of the part in front of a payload. -/
def headerLength : Nat := 9

/-- The flag of an acknowledgement. -/
def acknowledged : UInt8 := 1

/-- The flag of a complete header block. -/
def endHeaders : UInt8 := 4

/-- The bytes of a frame with the given type, flags, stream and payload. The length is
written in three bytes, whatever the payload. -/
def assemble (type flags : UInt8) (stream : UInt32) (payload : Bytes) : Bytes :=
  Bytes.ofNatBE 3 payload.length ++ [type, flags] ++
    Bytes.ofNatBE 4 (streamBits stream).toNat ++ payload

/-- The bytes of a frame. -/
def toBytes : Frame → Bytes
  | data stream payload => assemble 0 0 stream payload
  | headers stream => assemble 1 endHeaders stream []
  | priority => assemble 2 0 0 (List.replicate 5 0)
  | settings announced stream flags =>
    assemble 4 flags stream (announced.flatMap Setting.toBytes)
  | ping flags payload => assemble 6 flags 0 payload
  | windowUpdate increment stream =>
    assemble 8 0 stream (Bytes.ofNatBE 4 (streamBits increment).toNat)

/-- The answer to another end's parameters. -/
def settingsAck : Frame :=
  settings [] 0 acknowledged

/-- What a complete frame means to a reader. -/
def ofPayload (type flags : UInt8) (stream : UInt32) (payload : Bytes) :
    Except DeviceError Frame :=
  match type.toNat with
  | 0 => .ok (data stream payload)
  | 1 => .ok (headers stream)
  | 2 => .ok priority
  | 3 => .error .streamReset
  | 4 => .ok (settings (Setting.ofPayload payload) stream flags)
  | 6 => .ok (ping flags payload)
  | 7 => .error (.goAway (Text.lossy (payload.drop 8)))
  | 8 =>
    if payload.length < 4 then .error (.notEnoughBytes payload.length 4)
    else
      .ok (windowUpdate (streamBits (UInt32.ofNat (Bytes.toNatBE (payload.take 4)))) stream)
  | _ => .error (.unknownFrame type)

/-- Reads one frame. -/
def read : Call DeviceError Transport Frame := do
  let header ← Call.zoom id (fun _ t => t) .socket (Transport.readExact headerLength)
  let payload ← Call.zoom id (fun _ t => t) .socket
    (Transport.readExact (Bytes.toNatBE (header.take 3)))
  let stream := streamBits (UInt32.ofNat (Bytes.toNatBE (header.drop 5)))
  Call.ofExcept (ofPayload (header.getD 3 0) (header.getD 4 0) stream payload)

end Frame

end Tether.Http2
