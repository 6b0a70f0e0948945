import Tether.Plist.Value
import Tether.Provider
import Tether.Xpc.Client

/-!
# The directory of services in a tunnel

The first service that can be reached inside a tunnel answers with a list of all others.
Entries that are incomplete are left out; a directory without its own data is refused.
-/

namespace Tether

/-- An entry of the directory. -/
structure Directory.Entry where
  /-- What a client has to be entitled to. -/
  entitlement : String
  port : UInt16
  /-- Whether the service is spoken to by remote XPC. -/
  usesRemoteXpc : Bool
  features : Option (List String)
  serviceVersion : Option Int64
  deriving DecidableEq

/-- The services of a device. -/
structure Directory where
  services : Entries Directory.Entry
  protocolVersion : UInt64
  properties : Entries Plist
  uuid : String

namespace Directory

/-- The port of the directory inside a tunnel. -/
def port : UInt16 := 58783

/-- The version of a service, or `-1` if it does not tell. -/
def Entry.version (e : Entry) : Int64 :=
  e.serviceVersion.getD (-1)

/-- The property of a service under a key. -/
def property? (service : Entries Xpc.Object) (key : String) : Option Xpc.Object :=
  ((service.get? "Properties").bind Xpc.Object.asDictionary?).bind (·.get? key)

/-- A port, however its number is written. -/
def portOf? (o : Xpc.Object) : Option UInt16 :=
  (o.asUnsigned?.filter (·.toNat < 2 ^ 16)).map fun n => UInt16.ofNat n.toNat

/-- The entry that an object describes. -/
def Entry.ofXpc? (o : Xpc.Object) : Option Entry := do
  let service ← o.asDictionary?
  let entitlement ← (service.get? "Entitlement").bind Xpc.Object.asString?
  let port ← (service.get? "Port").bind portOf?
  return {
    entitlement, port
    usesRemoteXpc := ((property? service "UsesRemoteXPC").bind Xpc.Object.asBool?).getD false
    features := ((property? service "Features").bind Xpc.Object.asArray?).map
      fun items => items.filterMap Xpc.Object.asString?
    serviceVersion := (property? service "ServiceVersion").bind Xpc.Object.asSigned? }

/-- The entries that can be read. -/
def entriesOf (services : Entries Xpc.Object) : Entries Entry :=
  services.filterMap fun (name, o) => (Entry.ofXpc? o).map fun e => (name, e)

/-- The directory that an object describes. -/
def ofXpc? (o : Xpc.Object) : Option Directory := do
  let d ← o.asDictionary?
  let services ← (d.get? "Services").bind Xpc.Object.asDictionary?
  let protocolVersion ← (d.get? "MessagingProtocolVersion").bind Xpc.Object.asUnsigned?
  let uuid ← (d.get? "UUID").bind Xpc.Object.asString?
  let properties ← (d.get? "Properties").bind Xpc.Object.asDictionary?
  return {
    services := entriesOf services
    protocolVersion, uuid
    properties := properties.map fun (name, o) => (name, o.toPlist) }

/-- Asks for the directory. -/
def fetch : Call DeviceError Xpc.Client Directory := do
  Xpc.Client.start
  Xpc.Client.handshake
  Call.ofOption .unexpectedResponse (ofXpc? (← Xpc.Client.receive))

/-- Whether a service is listed. -/
def lists (d : Directory) (name : String) : Bool :=
  (d.services.get? name).isSome

/-- The entry of a service. -/
def find (d : Directory) (name : String) : Except DeviceError Entry :=
  (d.services.get? name).elim (.error .serviceNotFound) .ok

/-- Opens a connection to a service of the directory, with the label by which the host
introduces itself to the service. -/
def connect (d : Directory) (service label : String) : Call DeviceError Journey Connection := do
  let connection ← Journey.dial (← Call.ofExcept (d.find service)).port
  return (← Journey.talk { connection with label } Connection.checkIn).2

end Directory

end Tether
