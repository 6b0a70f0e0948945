import Tether.Tunnel.Link

/-!
# Journals

A stack keeps a *journal* of what happens to its connections: it says when one is begun and
when it is forgotten, which segments come and go, and what its owner queues and takes. The
stack itself never reads it.
-/

namespace Tether.Tunnel

open Net

/-- What a journal tells of. -/
inductive Event where
  /-- A connection was begun; the bytes that the host sends are numbered from `first` on. -/
  | opened (port peerPort : UInt16) (first : UInt32)
  /-- A segment came for a connection. -/
  | arrived (segment : Segment)
  /-- Bytes were queued for sending. -/
  | queued (port : UInt16) (bytes : Bytes)
  /-- Received bytes were taken. -/
  | taken (port : UInt16) (bytes : Bytes)
  /-- A segment went into the tunnel. -/
  | sent (segment : Segment)
  /-- A segment did not go into the tunnel, or not all of it. -/
  | lost (segment : Segment)
  /-- A connection was forgotten. -/
  | forgotten (port : UInt16)
  deriving DecidableEq, Repr

namespace Event

/-- The host port of the connection that an event is about. -/
def port : Event → UInt16
  | opened port _ _ => port
  | arrived segment => segment.destination
  | queued port _ => port
  | taken port _ => port
  | sent segment => segment.source
  | lost segment => segment.source
  | forgotten port => port

/-- Whether a segment was lost. -/
def isLost : Event → Bool
  | lost _ => true
  | _ => false

end Event

/-- What has happened, latest first. -/
abbrev Journal := List Event

end Tether.Tunnel
