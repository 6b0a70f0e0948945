import Tether.Xpc.Encoding

/-!
# XPC messages

A message is a header of twenty-four bytes (magic number, flags, length of the body,
identifier) and a body that is empty or holds one encoded object. `Message.frameLength?`
tells from the first sixteen bytes how long the whole message is.
-/

namespace Tether.Xpc

/-- The flag bits of a message. -/
structure Flags where
  bits : UInt32
  deriving DecidableEq, Repr

namespace Flags

/-- Set in every message. -/
def alwaysSet : Flags := ⟨0x00000001⟩

/-- The message has a body. -/
def data : Flags := ⟨0x00000100⟩

/-- The sender waits for an answer. -/
def wantingReply : Flags := ⟨0x00010000⟩

/-- The message opens a channel. -/
def initHandshake : Flags := ⟨0x00400000⟩

instance : OrOp Flags := ⟨fun a b => ⟨a.bits ||| b.bits⟩⟩

/-- Whether all the bits of `b` are set in `a`. -/
def contains (a b : Flags) : Bool :=
  a.bits &&& b.bits == b.bits

/-- The flags that have a name, in the order in which they are listed. -/
def named : List (Flags × String) :=
  [(alwaysSet, "AlwaysSet"), (data, "Data"), (wantingReply, "WantingReply"),
    (initHandshake, "InitHandshake")]

/-- The bits without a name. -/
def unnamed (a : Flags) : UInt32 :=
  named.foldl (fun bits (flag, _) => bits &&& ~~~flag.bits) a.bits

/-- The names of the flags that are set, then the other bits in hexadecimal. -/
def text (a : Flags) : String :=
  let names := (named.filter fun (flag, _) => a.contains flag).map Prod.snd
  let rest :=
    if a.unnamed = 0 then []
    else ["0x" ++ String.ofList (Text.hexDigits true 8 a.unnamed.toNat)]
  "[" ++ " | ".intercalate (names ++ rest) ++ "]"

end Flags

/-- A message. -/
structure Message where
  flags : Flags
  body : Option Object
  id : UInt64

namespace Message

/-- The number every message starts with. -/
def magic : Nat := 0x29b00b92

/-- The length of a header. -/
def headerLength : Nat := 24

/-- The length of the message that starts here, once its header says it. The sum is taken
in 64 bits. -/
def frameLength? (bs : Bytes) : Option Nat :=
  if bs.length < 16 then none
  else some ((headerLength + Bytes.toNatLE ((bs.drop 8).take 8)) % 2 ^ 64)

/-- The bytes of a message. -/
def encode (m : Message) : Bytes :=
  let body := (m.body.map Xpc.encode).getD []
  Bytes.ofNatLE 4 magic ++ Bytes.ofNatLE 4 m.flags.bits.toNat ++ Bytes.ofNatLE 8 body.length ++
    Bytes.ofNatLE 8 m.id.toNat ++ body

/-- Reads the message that starts here; bytes behind its body are ignored. -/
def decode (bs : Bytes) : Except DeviceError Message := do
  if bs.length < headerLength then .error (.notEnoughBytes bs.length headerLength)
  let (start, rest) ← Reader.number 4 bs
  if start ≠ magic then .error .malformedXpc
  let (flags, rest) ← Reader.number 4 rest
  let (length, rest) ← Reader.number 8 rest
  let (id, rest) ← Reader.number 8 rest
  if rest.length < length then .error .packetSizeMismatch
  let body ← if length = 0 then .ok none else (Xpc.decode (rest.take length)).map some
  .ok { flags := ⟨UInt32.ofNat flags⟩, body, id := UInt64.ofNat id }

end Message

end Tether.Xpc
