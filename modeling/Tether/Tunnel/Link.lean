import Tether.Net.Segment

/-!
# One connection inside a tunnel

A *link* is the host's end of one TCP connection. The tunnel neither loses nor reorders
bytes, so a link has no timers and no congestion control: it numbers what it sends, takes
segments that start exactly where the last one ended, and acknowledges.

* `Link.accept`: what a segment from the device does to a link;
* `accept_ended`: nothing happens to a link that is over.
-/

namespace Tether.Tunnel

open Net

/-- How far a link is. -/
inductive Link.Status where
  /-- The device was asked for a connection and has not answered. -/
  | connecting
  | connected
  /-- The link is over; `unexpectedEof` says that the device finished it. -/
  | ended (fault : Fault)
  deriving DecidableEq, Repr

/-- A status in words. -/
def Link.Status.text : Link.Status → String
  | connecting => "Connecting"
  | connected => "Connected"
  | ended fault => "Error(" ++ fault.name ++ ")"

/-- The host's end of a connection. -/
structure Link where
  /-- The port of the device. -/
  peerPort : UInt16
  /-- The number of the next byte to send. -/
  sequence : UInt32
  /-- The number of the next byte that the device may send. -/
  expected : UInt32 := 0
  /-- Received and not yet taken. -/
  received : Bytes := []
  /-- Queued and not yet sent. -/
  queued : Bytes := []
  status : Link.Status := .connecting
  deriving DecidableEq, Repr

namespace Link

/-- The window that each segment announces. -/
def window : UInt16 := 65535

/-- The control bits of a segment that asks for a connection. -/
def greeting : Control := { syn := true }

/-- The control bits of a segment that only acknowledges. -/
def acknowledgement : Control := { ack := true }

/-- The control bits of a segment that carries bytes. -/
def carrying : Control := { psh := true, ack := true }

/-- The control bits of a segment that finishes a connection. -/
def farewell : Control := { fin := true, ack := true }

/-- The next segment of a link. -/
def segment (l : Link) (hostPort : UInt16) (control : Control) (payload : Bytes) : Segment where
  source := hostPort
  destination := l.peerPort
  sequence := l.sequence
  acknowledgement := if control.ack then l.expected else 0
  control := control
  window := window
  payload := payload

/-- The link once so many bytes have been sent. -/
def advance (l : Link) (n : Nat) : Link :=
  { l with sequence := l.sequence + UInt32.ofNat n }

/-- Takes the payload of a segment that starts where the last one ended. -/
def takeIn (l : Link) (payload : Bytes) : Link :=
  { l with
    received := l.received ++ payload
    expected := l.expected + UInt32.ofNat payload.length }

/-- The link once the device has finished it. The end takes a number of its own. -/
def finish (l : Link) : Link :=
  { l with expected := l.expected + 1, status := .ended .unexpectedEof }

/-- What a link makes of a segment, and whether it answers with an acknowledgement. A
segment that starts elsewhere is acknowledged again if it carries bytes, and otherwise
ignored, its end included. -/
def accept (l : Link) (s : Segment) : Link × Bool :=
  match l.status with
  | .connecting =>
    if s.control.rst then ({ l with status := .ended .connectionRefused }, false)
    else if s.control.syn && s.control.ack then
      ({ l with expected := s.sequence + 1, sequence := l.sequence + 1, status := .connected }, true)
    else (l, false)
  | .connected =>
    if s.control.rst then ({ l with status := .ended .connectionReset }, false)
    else if s.sequence ≠ l.expected then (l, !s.payload.isEmpty)
    else if s.control.fin then ((l.takeIn s.payload).finish, true)
    else (l.takeIn s.payload, !s.payload.isEmpty)
  | .ended _ => (l, false)

theorem accept_ended {l : Link} {s : Segment} {fault : Fault} (h : l.status = .ended fault) :
    l.accept s = (l, false) := by
  simp [accept, h]

theorem peerPort_accept (l : Link) (s : Segment) : (l.accept s).1.peerPort = l.peerPort := by
  unfold accept
  repeat' split
  all_goals rfl

end Link

end Tether.Tunnel
