import Tether.Service.Lockdown

/-!
# Ways to reach a device

A *provider* opens streams to the ports of one device and has the pairing record that
secures them. A `Journey` is what came of using one: the ports that were dialled, and each
connection as it was left.

`Journey.connect` is the usual way to a service: ask lockdown, over a secured connection,
to start the service, dial the port it names, and secure that connection too if asked to.
-/

namespace Tether

/-- A way to reach a device. -/
structure Provider where
  /-- The label that connections introduce themselves with. -/
  label : String
  /-- The pairing record, or why there is none. -/
  record : Except DeviceError PairingRecord
  /-- The stream that the `n`-th dialling opens to a port. -/
  dial : Nat → UInt16 → Except DeviceError Transport

/-- A provider that opens the given streams in turn and refuses to open more. -/
def Provider.ofStreams (label : String) (record : Except DeviceError PairingRecord)
    (streams : List Transport) : Provider where
  label := label
  record := record
  dial := fun n _ => (streams[n]?).elim (.error (.socket .connectionRefused)) .ok

/-- The use of a provider so far. -/
structure Journey where
  provider : Provider
  /-- The ports that were dialled, first one first. -/
  ports : List UInt16 := []
  /-- Each connection as it was left. -/
  connections : List Connection := []

namespace Journey

/-- Opens a connection to a port. -/
def dial (port : UInt16) : Call DeviceError Journey Connection := do
  let j ← get
  set { j with ports := j.ports ++ [port] }
  let transport ← Call.ofExcept (j.provider.dial j.ports.length port)
  return { transport, label := j.provider.label }

/-- Uses a connection and notes how it was left. -/
def talk {α : Type} (c : Connection) (call : Call DeviceError Connection α) :
    Call DeviceError Journey (α × Connection) := fun j =>
  match call c with
  | .ok a c => .ok (a, c) { j with connections := j.connections ++ [c] }
  | .error e c => .error e { j with connections := j.connections ++ [c] }

/-- Opens a connection to lockdown. -/
def connectLockdown : Call DeviceError Journey (Unit × Connection) := do
  talk (← dial Lockdown.port) (pure ())

/-- Asks lockdown, over a secured connection, to start a service. Returns whether the device
is an old one, and where the service can be reached. -/
def negotiate (engine : Tls.Engine) (record : PairingRecord) (service : String) :
    Call DeviceError Connection (Bool × Lockdown.StartedService) := do
  let legacy ← Lockdown.isLegacy
  Lockdown.startSession engine record legacy
  return (legacy, ← Lockdown.startService service)

/-- Opens a connection to a service; `welcome` is what the service itself begins with. -/
def connect {α : Type} (engine : Tls.Engine) (service : String)
    (welcome : Call DeviceError Connection α) : Call DeviceError Journey (α × Connection) := do
  let record ← Call.ofExcept (← get).provider.record
  let ((legacy, started), _) ← talk (← dial Lockdown.port) (negotiate engine record service)
  talk (← dial started.port) do
    if started.isSecured then Connection.secure engine record legacy
    welcome

end Journey

end Tether
