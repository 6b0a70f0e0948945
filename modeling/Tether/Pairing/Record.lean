import Tether.Error
import Tether.Pairing.Pem
import Tether.Plist.Read
import Tether.Plist.Xml.Writer

/-!
# Pairing records

A device trusts a host by the certificates and keys of a pairing record. Certificates are
kept in binary form and private keys as the text that stands in the record.

`PairingRecord.ofBytes` reads a record and `PairingRecord.toPlist` writes one. Of several
faults in a record the first one counts: a value of the wrong type or a field that comes
twice when it is met, missing fields where the record ends, what is wrong with the document
behind it, certificates last.
-/

namespace Tether

/-- A pairing record. -/
structure PairingRecord where
  deviceCertificate : Bytes
  hostPrivateKey : Bytes
  hostCertificate : Bytes
  rootPrivateKey : Bytes
  rootCertificate : Bytes
  systemBuid : String
  hostId : String
  escrowBag : Option Bytes := none
  wifiMacAddress : Option String := none
  udid : Option String := none
  deriving DecidableEq, Repr

namespace PairingRecord

/-- What the value of a field has to be. -/
inductive FieldKind where
  | data
  | text
  deriving DecidableEq, Repr

/-- The fields that every record has, in the order in which they are written. -/
def requiredFields : List (String × FieldKind) :=
  [("DeviceCertificate", .data), ("HostPrivateKey", .data), ("HostCertificate", .data),
    ("RootPrivateKey", .data), ("RootCertificate", .data), ("SystemBUID", .text),
    ("HostID", .text)]

/-- The fields that a record may have. -/
def optionalFields : List (String × FieldKind) :=
  [("EscrowBag", .data), ("WiFiMACAddress", .text), ("UDID", .text)]

/-- All fields, in the order that gives them their numbers. -/
def fields : List (String × FieldKind) :=
  requiredFields ++ optionalFields

/-- Whether a value can be that of a field. -/
def FieldKind.admits (kind : FieldKind) (v : Plist) : Bool :=
  match kind with
  | .data => v.asData?.isSome
  | .text => v.asText?.isSome

/-- The field that a key means, which is a name or a number. It may mean a field that is
not known; other values are no keys at all. -/
def fieldOf? (key : Plist) : Option (Option (String × FieldKind)) :=
  match key with
  | .integer _ | .uid _ => key.asCount?.map fun n => fields[n]?
  | .string _ | .data _ | .date _ =>
    some (key.asText?.bind fun name => fields.find? fun field => field.1 = name)
  | _ => none

/-- The entries of known fields. Unknown fields may have any value. -/
def knownEntries? : List (Plist.Tree × Plist.Tree) → Option Plist.Dictionary
  | [] => some []
  | (key, t) :: rest =>
    (key.asValue?.bind fieldOf?).bind fun field =>
      match field with
      | none => knownEntries? rest
      | some (name, kind) =>
        (t.asValue?.filter kind.admits).bind fun v => (knownEntries? rest).map ((name, v) :: ·)

/-- The data under a key. -/
def dataAt? (d : Plist.Dictionary) (key : String) : Option Bytes :=
  (d.get? key).bind Plist.asData?

/-- The text under a key. -/
def textAt? (d : Plist.Dictionary) (key : String) : Option String :=
  (d.get? key).bind Plist.asText?

/-- The error for a record that is no record. -/
def malformed : DeviceError := .invalidPairingFile "not a pairing record"

/-- The error for a field that is not there. -/
def missing (name : String) : DeviceError :=
  .invalidPairingFile ("Serde(\"missing field \x60" ++ name ++ "\x60\")")

/-- The required data under a key. -/
def needData (d : Plist.Dictionary) (key : String) : Except DeviceError Bytes :=
  (dataAt? d key).elim (.error (missing key)) .ok

/-- The required text under a key. -/
def needText (d : Plist.Dictionary) (key : String) : Except DeviceError String :=
  (textAt? d key).elim (.error (missing key)) .ok

/-- The certificate in the text of a field. -/
def certificateOf (name : String) (text : Bytes) : Except DeviceError Bytes :=
  (Pem.certificate text).mapError fun fault =>
    .invalidPairingFile (name ++ ": " ++ fault.text)

/-- The fields of a record, with the certificates as they stand in it. -/
structure Fields where
  deviceCertificate : Bytes
  hostPrivateKey : Bytes
  hostCertificate : Bytes
  rootPrivateKey : Bytes
  rootCertificate : Bytes
  systemBuid : String
  hostId : String
  escrowBag : Option Bytes
  wifiMacAddress : Option String
  udid : Option String

/-- The fields in the entries of a dictionary. -/
def Fields.ofEntries (entries : List (Plist.Tree × Plist.Tree)) : Except DeviceError Fields := do
  let d ← (knownEntries? entries).elim (.error malformed) .ok
  if !(d.map Prod.fst).Nodup then throw malformed
  return {
    deviceCertificate := ← needData d "DeviceCertificate"
    hostPrivateKey := ← needData d "HostPrivateKey"
    hostCertificate := ← needData d "HostCertificate"
    rootPrivateKey := ← needData d "RootPrivateKey"
    rootCertificate := ← needData d "RootCertificate"
    systemBuid := ← needText d "SystemBUID"
    hostId := ← needText d "HostID"
    escrowBag := dataAt? d "EscrowBag"
    wifiMacAddress := textAt? d "WiFiMACAddress"
    udid := textAt? d "UDID" }

/-- The record with these fields. -/
def ofFields (f : Fields) : Except DeviceError PairingRecord := do
  return {
    deviceCertificate := ← certificateOf "DeviceCertificate" f.deviceCertificate
    hostPrivateKey := f.hostPrivateKey
    hostCertificate := ← certificateOf "HostCertificate" f.hostCertificate
    rootPrivateKey := f.rootPrivateKey
    rootCertificate := ← certificateOf "RootCertificate" f.rootCertificate
    systemBuid := f.systemBuid
    hostId := f.hostId
    escrowBag := f.escrowBag
    wifiMacAddress := f.wifiMacAddress
    udid := f.udid }

/-- The record in a property list. -/
def ofPlist (v : Plist) : Except DeviceError PairingRecord := do
  let d ← v.asDictionary?.elim (.error malformed) .ok
  ofFields (← Fields.ofEntries (d.map fun (key, v) => (.value (.string key), .value v)))

/-- The record in a document. -/
def ofBytes (bs : Bytes) : Except DeviceError PairingRecord := do
  let reading ← (Plist.Reading.ofBytes? bs).elim (.error malformed) .ok
  let entries ← reading.root.asDictionary?.elim (.error malformed) .ok
  let fields ← Fields.ofEntries entries
  if !reading.sound then throw malformed
  ofFields fields

/-- The record in a file, given its contents or how reading it failed. -/
def ofFile (contents : Except Fault Bytes) : Except DeviceError PairingRecord :=
  (contents.mapError DeviceError.socket).bind ofBytes

/-- A record as a property list. Fields without a value are left out. -/
def toPlist (r : PairingRecord) : Plist :=
  let certificate (bytes : Bytes) : Plist := .data (Pem.encode .certificate bytes)
  .dictionary (
    [("DeviceCertificate", certificate r.deviceCertificate), ("HostPrivateKey", .data r.hostPrivateKey),
      ("HostCertificate", certificate r.hostCertificate), ("RootPrivateKey", .data r.rootPrivateKey),
      ("RootCertificate", certificate r.rootCertificate), ("SystemBUID", .string r.systemBuid),
      ("HostID", .string r.hostId)] ++
    (r.escrowBag.map fun bytes => ("EscrowBag", Plist.data bytes)).toList ++
    (r.wifiMacAddress.map fun text => ("WiFiMACAddress", Plist.string text)).toList ++
    (r.udid.map fun text => ("UDID", Plist.string text)).toList)

/-- The document for a record. -/
def toBytes (r : PairingRecord) : Except DeviceError Bytes :=
  (Plist.Xml.write? r.toPlist).elim (.error .badPlist) .ok

end PairingRecord

end Tether
