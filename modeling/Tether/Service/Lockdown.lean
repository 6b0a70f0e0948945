import Tether.Connection

/-!
# The lockdown service

Lockdown is the service that every device offers at a fixed port. It tells and takes
values, secures its own connection on request, and starts the other services.
-/

namespace Tether.Lockdown

/-- The name of the service. -/
def name : String := "com.apple.mobile.lockdown"

/-- The port at which every device offers it. -/
def port : UInt16 := 62078

/-- A request with its further fields. -/
def request (label name : String) (fields : Plist.Dictionary) : Plist.Dictionary :=
  [("Label", .string label), ("Request", .string name)] ++ fields

/-- Sends a request and receives the answer. -/
def ask (name : String) (fields : Plist.Dictionary) :
    Call DeviceError Connection Plist.Dictionary := do
  Connection.exchange (request (← get).label name fields)

/-- A field with a text, if there is one. -/
def optionalText (key : String) (text : Option String) : Plist.Dictionary :=
  (text.map fun text => (key, Plist.string text)).toList

/-- Asks for a value, or for all values of a domain. -/
def getValue (key domain : Option String) : Call DeviceError Connection Plist := do
  let answer ← ask "GetValue" (optionalText "Key" key ++ optionalText "Domain" domain)
  Call.ofOption .missingValue (answer.get? "Value")

/-- Sets a value. -/
def setValue (key : String) (value : Plist) (domain : Option String) :
    Call DeviceError Connection Unit := do
  let _ ← ask "SetValue" ([("Key", .string key), ("Value", value)] ++ optionalText "Domain" domain)

/-- Whether a version is below the fifth. One that cannot be read counts as new. -/
def isLegacyVersion (version : String) : Bool :=
  match Text.unsigned? (2 ^ 32) (String.ofList (version.toList.takeWhile (· ≠ '.'))) with
  | some major => major < 5
  | none => false

/-- Whether the device is an old one. A device that does not tell counts as new. -/
def isLegacy : Call DeviceError Connection Bool := do
  let answer : Except DeviceError Plist ← Call.attempt (getValue (some "ProductVersion") none)
  match answer with
  | .ok (.string version) => return isLegacyVersion version
  | _ => return false

/-- Starts a session: the device has to offer to secure the connection, which then happens. -/
def startSession (engine : Tls.Engine) (record : PairingRecord) (legacy : Bool) :
    Call DeviceError Connection Unit := do
  if !(← get).isOpen then Call.fail .noEstablishedConnection
  let answer ← ask "StartSession"
    [("HostID", .string record.hostId), ("SystemBUID", .string record.systemBuid)]
  match (answer.get? "EnableSessionSSL").bind Plist.asBool? with
  | some true => Connection.secure engine record legacy
  | _ => Call.fail .unexpectedResponse

/-- Where a service that was started can be reached. -/
structure StartedService where
  port : UInt16
  /-- Whether the service expects a secured connection. -/
  isSecured : Bool
  deriving DecidableEq, Repr

/-- What an answer says about a started service. -/
def startedService? (answer : Plist.Dictionary) : Option StartedService :=
  ((answer.get? "Port").bind Plist.asUnsigned?).bind fun port =>
    if port < 2 ^ 16 then
      some { port := UInt16.ofNat port
             isSecured := ((answer.get? "EnableServiceSSL").bind Plist.asBool?).getD false }
    else none

/-- Starts a service by its name. -/
def startService (service : String) : Call DeviceError Connection StartedService := do
  let answer ← ask "StartService" [("Service", .string service)]
  Call.ofOption .unexpectedResponse (startedService? answer)

end Tether.Lockdown
