import Tether.Tls.Answer
import Tether.Tls.Certificate
import Tether.Tls.Engine
import Tether.Tls.Key

/-!
# An engine for peers that do not go along

The smallest engine that can be run: it knows private keys on the curve P-256 and no others, and it
is for peers that do not go along to the end. It sends its greeting and reads until the peer closes,
breaks the protocol or refuses by an alert.
-/

namespace Tether.Tls

/-- Whether a certificate is made for a private key on the curve. -/
def P256.certifies (certificate : Bytes) (secret : Nat) : Bool :=
  match Certificate.keyInfo? certificate, P256.publicPoint? secret with
  | some info, some point => info = P256.publicKeyInfo point
  | _, _ => false

/-- The most that one read asks for. -/
def readSize : Nat := 4096

/-- Reads until the peer has refused. Each read brings a byte at least and each record takes
some away, so `fuel` for both is enough. -/
def awaitRefusal (fuel : Nat) (legacy : Bool) (answer : Answer) : Call Fault Transport Transport :=
  match fuel with
  | 0 => throw .waiting
  | fuel + 1 =>
    match answer.judge legacy with
    | .refusal => Call.fail .invalidData
    | .further answer => awaitRefusal fuel legacy answer
    | .incomplete => do
      let bs ← Transport.read readSize
      if bs.isEmpty then Call.fail .unexpectedEof
      else awaitRefusal fuel legacy { answer with unread := answer.unread ++ bs }

/-- The engine for peers that do not go along; `hello` is its greeting. -/
def Engine.refused (hello : Bytes) : Engine where
  Key := Pem.Label × Bytes
  Config := Bool
  readKey? text := (Pem.privateKey text).toOption
  config? legacy certificate key :=
    (P256.secret? key.1 key.2).bind fun secret =>
      if P256.certifies certificate secret then some legacy else none
  secure legacy := do
    Transport.writeAll hello
    awaitRefusal (2 * (← get).unread.length + 2) legacy {}

end Tether.Tls
