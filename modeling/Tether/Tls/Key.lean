import Tether.Pairing.Pem
import Tether.Tls.Der
import Tether.Tls.P256

/-!
# Private keys on the curve P-256

A private key on the curve P-256 comes in a form that elliptic curves have of their own, or
in the general form, which says what kind of key it holds and wraps the other one. The
curve is given by name or by all its numbers. What a key states about its public part has
to agree with it; bytes behind the key do not matter. Keys of other kinds are none here.
-/

namespace Tether.Tls.P256

/-- The identifier of keys on elliptic curves. -/
def curveKey : Bytes := [0x2A, 0x86, 0x48, 0xCE, 0x3D, 0x02, 0x01]

/-- The identifier of the curve P-256. -/
def curveP256 : Bytes := [0x2A, 0x86, 0x48, 0xCE, 0x3D, 0x03, 0x01, 0x07]

/-- The identifier of fields with a prime number of elements. -/
def primeField : Bytes := [0x2A, 0x86, 0x48, 0xCE, 0x3D, 0x01, 0x01]

/-- Whether an element says that the field is that of P-256. -/
def describesField (e : Der.Element) : Bool :=
  match e.parts? with
  | some [kind, prime] =>
    kind = ⟨Der.identifierTag, primeField⟩ && prime.unsigned? = some fieldPrime
  | _ => false

/-- Whether an element holds the coefficients of P-256. A seed behind them does not matter. -/
def describesCoefficients (e : Der.Element) : Bool :=
  match e.parts? with
  | some (a :: b :: seed) =>
    a.tag = Der.octetStringTag && Bytes.toNatBE a.content = coefficientA &&
      b.tag = Der.octetStringTag && Bytes.toNatBE b.content = coefficientB &&
      (seed.map Der.Element.tag = [] || seed.map Der.Element.tag = [Der.bitStringTag])
  | _ => false

/-- Whether an element holds the base point of P-256 with both coordinates. -/
def describesBase (e : Der.Element) : Bool :=
  match e.content with
  | 4 :: coordinates =>
    let half := coordinates.length / 2
    e.tag = Der.octetStringTag && coordinates.length % 2 = 0 &&
      base = some (Bytes.toNatBE (coordinates.take half), Bytes.toNatBE (coordinates.drop half))
  | _ => false

/-- Whether an element means the curve P-256, by its name or by its numbers. -/
def meansP256 (e : Der.Element) : Bool :=
  e = ⟨Der.identifierTag, curveP256⟩ ||
    match e.parts? with
    | some (version :: field :: curve :: start :: count :: cofactor) =>
      version.unsigned? = some 1 && describesField field && describesCoefficients curve &&
        describesBase start && count.unsigned? = some order &&
        (cofactor = [] || cofactor = [⟨Der.integerTag, [1]⟩])
    | _ => false

/-- Takes the part with an optional tag away, if it comes first. -/
def takeOptional (n : Nat) : List Der.Element → Option Bytes × List Der.Element
  | [] => (none, [])
  | e :: rest => if e.tag = Der.optionalTag n then (some e.content, rest) else (none, e :: rest)

/-- The private key in the form that elliptic curves have of their own: a version, the key,
and in this order, if they are there, the curve and the public key. Where nothing else
tells the curve it has to be there. -/
def curveSecret? (curveKnown : Bool) (e : Der.Element) : Option Nat :=
  match e.parts? with
  | some (version :: key :: parts) =>
    let secret := Bytes.toNatBE key.content
    let (curve, parts) := takeOptional 0 parts
    let (publicKey, parts) := takeOptional 1 parts
    let agrees (point : Nat × Nat) (stated : Bytes) : Bool :=
      ((Der.only? stated).bind Der.Element.wholeBytes?).any (writtenForms point).contains
    if version.unsigned? = some 1 ∧ key.tag = Der.octetStringTag ∧ parts = [] ∧
        (curve.elim curveKnown fun c => (Der.only? c).any meansP256) = true then
      (publicPoint? secret).bind fun point =>
        if publicKey.all (agrees point) then some secret else none
    else none
  | _ => none

/-- The private key in the general form: a version, the kind of key with its curve, the key,
and possibly attributes. -/
def wrappedSecret? (e : Der.Element) : Option Nat :=
  match e.parts? with
  | some (version :: kind :: key :: parts) =>
    match kind.parts? with
    | some [name, curve] =>
      if version.unsigned?.any (· ≤ 1) ∧ name = ⟨Der.identifierTag, curveKey⟩ ∧ meansP256 curve ∧
          key.tag = Der.octetStringTag ∧ (takeOptional 0 parts).2 = [] then
        (Der.only? key.content).bind (curveSecret? true)
      else none
    | _ => none
  | _ => none

/-- The private key in a section with this label. The label of curves stands for both
forms. -/
def secret? (label : Pem.Label) (bs : Bytes) : Option Nat :=
  (Der.element? bs).bind fun (e, _) =>
    match label with
    | .privateKey => wrappedSecret? e
    | .ecPrivateKey => (curveSecret? false e).orElse fun _ => wrappedSecret? e
    | _ => none

/-- The description of a public key in a certificate. -/
def publicKeyInfo (point : Nat × Nat) : Bytes :=
  let name := (⟨Der.identifierTag, curveKey⟩ : Der.Element).shortForm
  let curve := (⟨Der.identifierTag, curveP256⟩ : Der.Element).shortForm
  (⟨Der.sequenceTag, name ++ curve⟩ : Der.Element).shortForm ++
    (⟨Der.bitStringTag, 0 :: uncompressed point⟩ : Der.Element).shortForm

end Tether.Tls.P256
