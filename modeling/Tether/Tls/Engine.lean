import Tether.Error
import Tether.Pairing.Record
import Tether.Transport

/-!
# Securing a transport

What secures a connection is an *engine*. It reads a host's private key, can be set up with the
key and the host's certificate, and then takes a transport over and either hands back a secured one
or fails. Which keys it knows, which certificates it takes for theirs and how it deals with a peer
is its own affair: the library works with any engine.
-/

namespace Tether.Tls

/-- Secures transports. -/
structure Engine where
  /-- The private keys that are read. -/
  Key : Type
  /-- What the engine is set up with. -/
  Config : Type
  /-- The private key in a text. -/
  readKey? : Bytes → Option Key
  /-- Sets the engine up with a host's certificate and private key. Old devices are spoken to in the
  older version only. -/
  config? : (legacy : Bool) → (certificate : Bytes) → Key → Option Config
  /-- Takes a transport over. -/
  secure : Config → Call Fault Transport Transport

/-- Sets an engine up with what a pairing record says about the host. -/
def Engine.configure (engine : Engine) (record : PairingRecord) (legacy : Bool) :
    Except DeviceError engine.Config := do
  match engine.readKey? record.hostPrivateKey with
  | none => throw .badPem
  | some key =>
    match engine.config? legacy record.hostCertificate key with
    | none => throw .badTlsConfiguration
    | some config => return config

end Tether.Tls
