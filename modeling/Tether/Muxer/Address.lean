import Tether.Error
import Tether.Net.Address

/-!
# Where the multiplexing daemon listens

The daemon that knows the devices attached to a host listens at a local socket or at a
network address. An address is written as a path or as `host:port`; a colon decides.
-/

namespace Tether.Muxer

/-- An address of the daemon. -/
inductive Address where
  | path (path : String)
  | network (address : Net.SocketAddress)
  deriving DecidableEq

/-- Where the daemon usually listens. -/
def defaultPath : String := "/var/run/usbmuxd"

/-- The port of a daemon that listens in the network. -/
def defaultPort : UInt16 := 27015

/-- The usual address. -/
def Address.default : Address :=
  .path defaultPath

/-- Reads an address. -/
def Address.ofString (s : String) : Except DeviceError Address :=
  if s.toList.contains ':' then
    (Net.SocketAddress.ofString? s).elim (.error .badAddress) fun a => .ok (.network a)
  else .ok (.path s)

/-- The address that the environment sets, or else the usual one. -/
def Address.ofEnvironment (setting : Option String) : Except DeviceError Address :=
  setting.elim (.ok .default) Address.ofString

end Tether.Muxer
