/-!
# Classes of failure

Every failure the library reports belongs to one class. A caller picks its recovery
by class (dial again, pair again, give up) and leaves the details to the message.
-/

namespace Tether

/-- What a caller can do about a failure. -/
inductive ErrorClass where
  /-- The path to the device is gone, was refused, or went silent. -/
  | transport
  /-- Pairing or the securing of a connection failed. -/
  | handshake
  /-- The device said something unexpected. -/
  | protocol
  /-- What was asked for does not exist. -/
  | notFound
  /-- The device refuses to do it. -/
  | permissionDenied
  /-- The device ran out of space, slots or memory. -/
  | resourceExhausted
  /-- What was to be made is already there. -/
  | alreadyExists
  /-- The request itself makes no sense. -/
  | invalidArgument
  /-- Anything else. -/
  | other
  deriving DecidableEq, Repr

/-- The name of a class in reports. -/
def ErrorClass.name : ErrorClass → String
  | transport => "Transport"
  | handshake => "Handshake"
  | protocol => "Protocol"
  | notFound => "NotFound"
  | permissionDenied => "PermissionDenied"
  | resourceExhausted => "ResourceExhausted"
  | alreadyExists => "AlreadyExists"
  | invalidArgument => "InvalidArgument"
  | other => "Other"

end Tether
