import Tether.Tls.Der

/-!
# Certificates

A certificate is a signed part, the algorithm and the signature. What names its owner, when
it is valid and how it is signed is not looked at. Extensions are: one that is critical has
to be known, and a known one must not come twice.
-/

namespace Tether.Tls.Certificate

/-- The bound on the length of a certificate. -/
def lengthBound : Nat := 65535

/-- The extensions that are known, by the last byte of their identifiers. -/
def knownExtensions : List UInt8 := [15, 17, 19, 30, 31, 37]

/-- The one of them that holds bits; the others hold a sequence. -/
def keyUsage : UInt8 := 15

/-- An extension. -/
structure Extension where
  name : Bytes
  critical : Bool
  value : Bytes

/-- Reads an extension, which is critical only if it says so. -/
def Extension.ofElement? (e : Der.Element) : Option Extension :=
  let make (name : Der.Element) (critical : Bool) (value : Der.Element) : Option Extension :=
    if name.tag = Der.identifierTag ∧ value.tag = Der.octetStringTag then
      some { name := name.content, critical, value := value.content }
    else none
  match e.parts? with
  | some [name, value] => make name false value
  | some [name, critical, value] =>
    if critical = ⟨Der.booleanTag, [0xFF]⟩ then make name true value
    else if critical = ⟨Der.booleanTag, [0]⟩ then make name false value
    else none
  | _ => none

/-- The number of an extension that is known. -/
def Extension.known? (x : Extension) : Option UInt8 :=
  match x.name with
  | [0x55, 0x1D, n] => if knownExtensions.contains n then some n else none
  | _ => none

/-- Whether an extension on its own is in order. -/
def Extension.acceptable (x : Extension) : Bool :=
  match x.known? with
  | none => !x.critical
  | some n => n = keyUsage || (Der.only? x.value).any fun e => e.tag = Der.sequenceTag

/-- Whether the part with the extensions is in order. -/
def extensionsAcceptable (content : Bytes) : Bool :=
  match (Der.only? content).bind Der.Element.parts? with
  | none => false
  | some elements =>
    match elements.mapM Extension.ofElement? with
    | none => false
    | some extensions =>
      extensions.all Extension.acceptable && (extensions.filterMap Extension.known?).Nodup

/-- Whether the version is the third, which is written as two. -/
def versionInOrder (version : Der.Element) : Bool :=
  version.tag = Der.optionalTag 0 && (Der.only? version.content).any (·.unsigned? = some 2)

/-- Whether nothing but extensions comes last. -/
def restInOrder : List Der.Element → Bool
  | [] => true
  | [e] => e.tag = Der.optionalTag 3 && extensionsAcceptable e.content
  | _ => false

/-- The description of the public key in the signed part: version, serial number,
algorithm, issuer, validity, subject, the description, and possibly extensions. -/
def signedKeyInfo? (algorithm : Der.Element) (parts : List Der.Element) : Option Bytes :=
  match parts with
  | version :: serial :: same :: issuer :: validity :: subject :: key :: rest =>
    if versionInOrder version ∧ serial.tag = Der.integerTag ∧ same = algorithm ∧
        [issuer, validity, subject, key].all (·.tag = Der.sequenceTag) ∧ restInOrder rest then
      some key.content
    else none
  | _ => none

/-- The description of the public key that a certificate is made for. -/
def keyInfo? (certificate : Bytes) : Option Bytes :=
  (Der.only? certificate).bind fun whole =>
    if lengthBound ≤ whole.content.length then none
    else
      match whole.parts? with
      | some [signed, algorithm, signature] =>
        if algorithm.tag = Der.sequenceTag ∧ signature.wholeBytes?.isSome then
          signed.parts?.bind (signedKeyInfo? algorithm)
        else none
      | _ => none

end Tether.Tls.Certificate
