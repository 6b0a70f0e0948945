import Tether.Bytes
import Tether.Error.Fault
import Tether.Afc.Status

/-!
# Device errors

A call to a device fails with a `DeviceError`. Each has a stable number (`code`), a
class callers decide by (`errorClass`), and a sentence for people (`message`). A device
that reports an error by name has it read by `DeviceError.ofReport?`.
-/

namespace Tether

/-- Why a call to a device failed. -/
inductive DeviceError where
  | socket (fault : Fault)
  | badPem
  | badTlsConfiguration
  | handshakeFailed (fault : Fault)
  | badPlist
  | badUtf8
  | unexpectedResponse
  | getProhibited
  | sessionInactive
  | invalidHostId
  | noEstablishedConnection
  | heartbeatSleepyTime
  | heartbeatTimeout
  | notFound
  | serviceNotFound
  | tunnelPacketTooShort
  | tunnelPacketInvalidMagic
  | packetSizeMismatch
  | badJson
  | deviceNotFound
  | deviceLocked
  | usbConnectionRefused
  | usbBadCommand
  | usbBadDevice
  | usbBadVersion
  | invalidPairingFile (reason : String)
  | invalidService
  | missingValue
  | misagentFailure (status : Int)
  | installationFailed (reason : String)
  | afc (status : Afc.Status)
  | unknownAfcOpcode
  | invalidAfcMagic
  | afcMissingAttribute
  | internalError (context : String)
  | unknownFrame (type : UInt8)
  | unknownHttpSetting (setting : UInt16)
  | unknownXpcType (tag : UInt32)
  | malformedXpc
  | invalidXpcMagic
  | unexpectedXpcVersion
  | invalidCString
  | streamReset
  | goAway (reason : String)
  | badAddress
  | notEnoughBytes (got expected : Nat)
  | invalidArgument
  | unknownErrorType (name : String)
  deriving DecidableEq, Repr

namespace DeviceError

/-- One error of each kind, with these details where the kind has any. -/
def each (fault : Fault) (reason : String) (status : Int) (n m : Nat) : List DeviceError :=
  [socket fault, badPem, badTlsConfiguration, handshakeFailed fault, badPlist, badUtf8,
    unexpectedResponse, getProhibited, sessionInactive, invalidHostId, noEstablishedConnection,
    heartbeatSleepyTime, heartbeatTimeout, notFound, serviceNotFound, tunnelPacketTooShort,
    tunnelPacketInvalidMagic, packetSizeMismatch, badJson, deviceNotFound, deviceLocked,
    usbConnectionRefused, usbBadCommand, usbBadDevice, usbBadVersion, invalidPairingFile reason,
    invalidService, missingValue, misagentFailure status, installationFailed reason,
    afc (Afc.Status.ofCode n), unknownAfcOpcode, invalidAfcMagic, afcMissingAttribute,
    internalError reason, unknownFrame (UInt8.ofNat n), unknownHttpSetting (UInt16.ofNat n),
    unknownXpcType (UInt32.ofNat n), malformedXpc, invalidXpcMagic, unexpectedXpcVersion,
    invalidCString, streamReset, goAway reason, badAddress, notEnoughBytes n m, invalidArgument,
    unknownErrorType reason]

/-- The stable number of an error. -/
def code : DeviceError → Int
  | socket _ => -1
  | badPem => -2
  | badTlsConfiguration => -3
  | handshakeFailed _ => -4
  | badPlist => -5
  | badUtf8 => -6
  | unexpectedResponse => -7
  | getProhibited => -8
  | sessionInactive => -9
  | invalidHostId => -10
  | noEstablishedConnection => -11
  | heartbeatSleepyTime => -12
  | heartbeatTimeout => -13
  | notFound => -14
  | serviceNotFound => -15
  | tunnelPacketTooShort => -16
  | tunnelPacketInvalidMagic => -17
  | packetSizeMismatch => -18
  | badJson => -19
  | deviceNotFound => -20
  | deviceLocked => -21
  | usbConnectionRefused => -22
  | usbBadCommand => -23
  | usbBadDevice => -24
  | usbBadVersion => -25
  | invalidPairingFile _ => -26
  | invalidService => -27
  | missingValue => -28
  | misagentFailure _ => -31
  | installationFailed _ => -32
  | afc _ => -33
  | unknownAfcOpcode => -34
  | invalidAfcMagic => -35
  | afcMissingAttribute => -36
  | internalError _ => -39
  | unknownFrame _ => -40
  | unknownHttpSetting _ => -41
  | unknownXpcType _ => -43
  | malformedXpc => -44
  | invalidXpcMagic => -45
  | unexpectedXpcVersion => -46
  | invalidCString => -47
  | streamReset => -48
  | goAway _ => -49
  | badAddress => -53
  | notEnoughBytes _ _ => -55
  | invalidArgument => -57
  | unknownErrorType _ => -59

/-- The short name an error has in reports. -/
def name : DeviceError → String
  | socket _ => "Socket"
  | badPem => "PemParseFailed"
  | badTlsConfiguration => "TlsConfiguration"
  | handshakeFailed _ => "HandshakeFailed"
  | badPlist => "Plist"
  | badUtf8 => "Utf8"
  | unexpectedResponse => "UnexpectedResponse"
  | getProhibited => "GetProhibited"
  | sessionInactive => "SessionInactive"
  | invalidHostId => "InvalidHostID"
  | noEstablishedConnection => "NoEstablishedConnection"
  | heartbeatSleepyTime => "HeartbeatSleepyTime"
  | heartbeatTimeout => "HeartbeatTimeout"
  | notFound => "NotFound"
  | serviceNotFound => "ServiceNotFound"
  | tunnelPacketTooShort => "CdtunnelPacketTooShort"
  | tunnelPacketInvalidMagic => "CdtunnelPacketInvalidMagic"
  | packetSizeMismatch => "PacketSizeMismatch"
  | badJson => "Json"
  | deviceNotFound => "DeviceNotFound"
  | deviceLocked => "DeviceLocked"
  | usbConnectionRefused => "UsbConnectionRefused"
  | usbBadCommand => "UsbBadCommand"
  | usbBadDevice => "UsbBadDevice"
  | usbBadVersion => "UsbBadVersion"
  | invalidPairingFile _ => "InvalidPairingFile"
  | invalidService => "InvalidService"
  | missingValue => "MissingValue"
  | misagentFailure _ => "MisagentFailure"
  | installationFailed _ => "InstallationProxyOperationFailed"
  | afc _ => "Afc"
  | unknownAfcOpcode => "UnknownAfcOpcode"
  | invalidAfcMagic => "InvalidAfcMagic"
  | afcMissingAttribute => "AfcMissingAttribute"
  | internalError _ => "InternalError"
  | unknownFrame _ => "UnknownFrame"
  | unknownHttpSetting _ => "UnknownHttpSetting"
  | unknownXpcType _ => "UnknownXpcType"
  | malformedXpc => "MalformedXpc"
  | invalidXpcMagic => "InvalidXpcMagic"
  | unexpectedXpcVersion => "UnexpectedXpcVersion"
  | invalidCString => "InvalidCString"
  | streamReset => "HttpStreamReset"
  | goAway _ => "HttpGoAway"
  | badAddress => "AddrParseError"
  | notEnoughBytes _ _ => "NotEnoughBytes"
  | invalidArgument => "InvalidArgument"
  | unknownErrorType _ => "UnknownErrorType"

/-- The class of an error; whatever is not listed is a breach of protocol. -/
def errorClass : DeviceError → ErrorClass
  | socket fault => fault.errorClass
  | noEstablishedConnection | heartbeatSleepyTime | heartbeatTimeout
  | usbConnectionRefused | usbBadDevice | streamReset | goAway _ => .transport
  | badPem | badTlsConfiguration | handshakeFailed _ | sessionInactive | invalidHostId => .handshake
  | notFound | serviceNotFound | deviceNotFound | invalidService | missingValue => .notFound
  | getProhibited | deviceLocked => .permissionDenied
  | invalidArgument | badAddress => .invalidArgument
  | afc status => status.errorClass
  | misagentFailure _ | installationFailed _ | internalError _ => .other
  | _ => .protocol

/-- The sentence for an error. -/
def message : DeviceError → String
  | socket _ => "device socket io failed"
  | badPem => "PEM parse failed"
  | badTlsConfiguration => "TLS error"
  | handshakeFailed _ => "TLS handshake failed"
  | badPlist => "io on plist"
  | badUtf8 => "can't convert bytes to utf8"
  | unexpectedResponse => "unexpected response from device"
  | getProhibited => "this request was prohibited"
  | sessionInactive => "no SSL session is active"
  | invalidHostId => "device does not have pairing file"
  | noEstablishedConnection => "no established connection"
  | heartbeatSleepyTime => "device went to sleep"
  | heartbeatTimeout => "heartbeat timeout"
  | notFound => "not found"
  | serviceNotFound => "service not found"
  | tunnelPacketTooShort => "CDTunnel packet too short"
  | tunnelPacketInvalidMagic => "CDTunnel packet invalid magic"
  | packetSizeMismatch => "proclaimed packet size does not match actual size"
  | badJson => "JSON serialization failed"
  | deviceNotFound => "device not found"
  | deviceLocked => "device locked"
  | usbConnectionRefused => "device refused connection"
  | usbBadCommand => "bad command"
  | usbBadDevice => "bad device"
  | usbBadVersion => "usb bad version"
  | invalidPairingFile reason => "invalid pairing file: " ++ reason
  | invalidService => "the requested service does not exist"
  | missingValue => "the requested value does not exist"
  | misagentFailure status => "misagent operation failed with status " ++ toString status
  | installationFailed reason => "installation proxy operation failed: " ++ reason
  | afc status => "afc error: " ++ status.text
  | unknownAfcOpcode => "unknown afc opcode"
  | invalidAfcMagic => "invalid afc magic"
  | afcMissingAttribute => "missing file attribute"
  | internalError context => "internal error: " ++ context
  | unknownFrame _ => "unknown http frame type"
  | unknownHttpSetting _ => "unknown http setting type"
  | unknownXpcType _ => "unknown XPC type"
  | malformedXpc => "malformed XPC message"
  | invalidXpcMagic => "invalid XPC magic"
  | unexpectedXpcVersion => "unexpected XPC version"
  | invalidCString => "invalid C string"
  | streamReset => "stream reset"
  | goAway _ => "go away packet received"
  | badAddress => "cannot parse string as IpAddr"
  | notEnoughBytes got expected =>
    "not enough bytes, expected " ++ toString expected ++ ", got " ++ toString got
  | invalidArgument => "invalid argument passed"
  | unknownErrorType name => "unknown error \x60" ++ name ++ "\x60 returned from device"

/-- The error a device reports by name, if the name is known. `detail` is the context it
gives for an internal error. -/
def ofReport? (name : String) (detail : Option String) : Option DeviceError :=
  match name with
  | "GetProhibited" | "SetProhibited" => some getProhibited
  | "InvalidHostID" => some invalidHostId
  | "SessionInactive" => some sessionInactive
  | "DeviceLocked" | "PasswordProtected" => some deviceLocked
  | "InvalidService" => some invalidService
  | "MissingValue" => some missingValue
  | "InternalError" => some (internalError (detail.getD "No context"))
  | _ => none

/-- The error a device reports by name; an unknown name is kept. -/
def ofReport (name : String) (detail : Option String) : DeviceError :=
  (ofReport? name detail).getD (unknownErrorType name)

end DeviceError

/-- The plain form of an error, to be kept and shown: its number and its sentence. -/
structure ErrorReport where
  code : Int
  message : String
  deriving DecidableEq, Repr

/-- The plain form of an error. -/
def DeviceError.report (e : DeviceError) : ErrorReport :=
  ⟨e.code, e.message⟩

end Tether
