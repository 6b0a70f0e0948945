import Tether.Error.Class

/-!
# File conduit status codes

A file conduit answers a request that carries no data with a status code. `Status.ofCode`
reads one; codes outside the table all mean `unknownError`, so `ofCode_code` holds
and its converse does not.
-/

namespace Tether.Afc

/-- The outcome a file conduit reports for a request. -/
inductive Status where
  | success
  | unknownError
  | opHeaderInvalid
  | noResources
  | readError
  | writeError
  | unknownPacketType
  | invalidArgument
  | objectNotFound
  | objectIsDirectory
  | permissionDenied
  | serviceNotConnected
  | opTimeout
  | tooMuchData
  | endOfData
  | opNotSupported
  | objectExists
  | objectBusy
  | noSpaceLeft
  | opWouldBlock
  | ioError
  | opInterrupted
  | opInProgress
  | internalError
  | muxError
  | noMemory
  | notEnoughData
  | directoryNotEmpty
  deriving DecidableEq, Repr

namespace Status

/-- The number of a status on the wire. -/
def code : Status → Nat
  | success => 0
  | unknownError => 1
  | opHeaderInvalid => 2
  | noResources => 3
  | readError => 4
  | writeError => 5
  | unknownPacketType => 6
  | invalidArgument => 7
  | objectNotFound => 8
  | objectIsDirectory => 9
  | permissionDenied => 10
  | serviceNotConnected => 11
  | opTimeout => 12
  | tooMuchData => 13
  | endOfData => 14
  | opNotSupported => 15
  | objectExists => 16
  | objectBusy => 17
  | noSpaceLeft => 18
  | opWouldBlock => 19
  | ioError => 20
  | opInterrupted => 21
  | opInProgress => 22
  | internalError => 23
  | muxError => 30
  | noMemory => 31
  | notEnoughData => 32
  | directoryNotEmpty => 33

/-- The status a number stands for; a number without one is an unknown error. -/
def ofCode : Nat → Status
  | 0 => success
  | 2 => opHeaderInvalid
  | 3 => noResources
  | 4 => readError
  | 5 => writeError
  | 6 => unknownPacketType
  | 7 => invalidArgument
  | 8 => objectNotFound
  | 9 => objectIsDirectory
  | 10 => permissionDenied
  | 11 => serviceNotConnected
  | 12 => opTimeout
  | 13 => tooMuchData
  | 14 => endOfData
  | 15 => opNotSupported
  | 16 => objectExists
  | 17 => objectBusy
  | 18 => noSpaceLeft
  | 19 => opWouldBlock
  | 20 => ioError
  | 21 => opInterrupted
  | 22 => opInProgress
  | 23 => internalError
  | 30 => muxError
  | 31 => noMemory
  | 32 => notEnoughData
  | 33 => directoryNotEmpty
  | _ => unknownError

/-- The short name a status has in reports. -/
def name : Status → String
  | success => "Success"
  | unknownError => "UnknownError"
  | opHeaderInvalid => "OpHeaderInvalid"
  | noResources => "NoResources"
  | readError => "ReadError"
  | writeError => "WriteError"
  | unknownPacketType => "UnknownPacketType"
  | invalidArgument => "InvalidArg"
  | objectNotFound => "ObjectNotFound"
  | objectIsDirectory => "ObjectIsDir"
  | permissionDenied => "PermDenied"
  | serviceNotConnected => "ServiceNotConnected"
  | opTimeout => "OpTimeout"
  | tooMuchData => "TooMuchData"
  | endOfData => "EndOfData"
  | opNotSupported => "OpNotSupported"
  | objectExists => "ObjectExists"
  | objectBusy => "ObjectBusy"
  | noSpaceLeft => "NoSpaceLeft"
  | opWouldBlock => "OpWouldBlock"
  | ioError => "IoError"
  | opInterrupted => "OpInterrupted"
  | opInProgress => "OpInProgress"
  | internalError => "InternalError"
  | muxError => "MuxError"
  | noMemory => "NoMem"
  | notEnoughData => "NotEnoughData"
  | directoryNotEmpty => "DirNotEmpty"

/-- The words for a status. -/
def text : Status → String
  | success => "success"
  | unknownError => "unknown error"
  | opHeaderInvalid => "operation header invalid"
  | noResources => "no resources available"
  | readError => "read error"
  | writeError => "write error"
  | unknownPacketType => "unknown packet type"
  | invalidArgument => "invalid argument"
  | objectNotFound => "object not found"
  | objectIsDirectory => "object is a directory"
  | permissionDenied => "permission denied"
  | serviceNotConnected => "service not connected"
  | opTimeout => "operation timed out"
  | tooMuchData => "too much data"
  | endOfData => "end of data"
  | opNotSupported => "operation not supported"
  | objectExists => "object already exists"
  | objectBusy => "object is busy"
  | noSpaceLeft => "no space left on device"
  | opWouldBlock => "operation would block"
  | ioError => "I/O error"
  | opInterrupted => "operation interrupted"
  | opInProgress => "operation in progress"
  | internalError => "internal error"
  | muxError => "multiplexer error"
  | noMemory => "out of memory"
  | notEnoughData => "not enough data"
  | directoryNotEmpty => "directory not empty"

/-- The class of failure a status belongs to. -/
def errorClass : Status → ErrorClass
  | objectNotFound => .notFound
  | permissionDenied => .permissionDenied
  | objectExists => .alreadyExists
  | noResources | noSpaceLeft | noMemory | tooMuchData => .resourceExhausted
  | invalidArgument | objectIsDirectory | directoryNotEmpty => .invalidArgument
  | serviceNotConnected | muxError | opTimeout => .transport
  | opHeaderInvalid | unknownPacketType | notEnoughData => .protocol
  | _ => .other

theorem ofCode_code (s : Status) : ofCode s.code = s := by
  cases s <;> rfl

end Status

end Tether.Afc
