import Tether.Pairing.Record
import Tether.Proofs.Pairing.Pem
import Tether.Proofs.Plist.Document

/-!
# Pairing records that were written

A record is read again from what was written for it, as a document and as a property list, whatever
its certificates and keys are and whichever of its optional fields it has.

* `knownEntries?_of_forall`: entries of the fields of a record are all known;
* `ofEntries_entries`: the fields of a record are found among its entries;
* `written_record_is_read`: the record is found in its document.
-/

namespace Tether.PairingRecord

open Plist (Dictionary)

/-- The entry is one of a field, and its value can be that of the field. -/
def IsField (e : String × Plist) : Prop :=
  ∃ kind : FieldKind, fields.find? (fun field => field.1 = e.1) = some (e.1, kind) ∧ kind.admits e.2

/-- Entries of fields are all known. -/
theorem knownEntries?_of_forall {d : Dictionary} (h : ∀ e ∈ d, IsField e) :
    knownEntries? (d.map fun e => (.value (.string e.1), .value e.2)) = some d := by
  induction d with
  | nil => rfl
  | cons e d ih =>
    obtain ⟨kind, hfind, hadmits⟩ := h e List.mem_cons_self
    have hkey : fieldOf? (.string e.1) = some (some (e.1, kind)) := congrArg some hfind
    have hvalue : (some e.2).filter kind.admits = some e.2 := by
      rw [Option.filter_some, if_pos hadmits]
    rw [List.map_cons, knownEntries?]
    simp only [Plist.Tree.asValue?, Option.bind_some, hkey, hvalue,
      ih fun e' he' => h e' (List.mem_cons_of_mem _ he'), Option.map_some]

/-- The entries that a record is written with. -/
def entries (r : PairingRecord) : Dictionary :=
  [("DeviceCertificate", .data (Pem.encode .certificate r.deviceCertificate)),
    ("HostPrivateKey", .data r.hostPrivateKey),
    ("HostCertificate", .data (Pem.encode .certificate r.hostCertificate)),
    ("RootPrivateKey", .data r.rootPrivateKey),
    ("RootCertificate", .data (Pem.encode .certificate r.rootCertificate)),
    ("SystemBUID", .string r.systemBuid), ("HostID", .string r.hostId)] ++
  (r.escrowBag.map fun bytes => ("EscrowBag", Plist.data bytes)).toList ++
  (r.wifiMacAddress.map fun text => ("WiFiMACAddress", Plist.string text)).toList ++
  (r.udid.map fun text => ("UDID", Plist.string text)).toList

theorem toPlist_eq (r : PairingRecord) : r.toPlist = .dictionary r.entries :=
  rfl

/-- What is true of the entries of all fields is true of those that a record is written with. -/
theorem forall_mem_entries {P : String × Plist → Prop} (r : PairingRecord)
    (hdata : ∀ name, (name, FieldKind.data) ∈ fields → ∀ bytes, P (name, .data bytes))
    (htext : ∀ name, (name, FieldKind.text) ∈ fields → ∀ text, P (name, .string text)) :
    ∀ e ∈ r.entries, P e := by
  simp only [entries, List.forall_mem_append, List.forall_mem_cons, Option.mem_toList,
    Option.map_eq_some_iff]
  refine ⟨⟨⟨⟨?_, ?_, ?_, ?_, ?_, ?_, ?_, List.forall_mem_nil _⟩, ?_⟩, ?_⟩, ?_⟩
  · exact hdata _ (by decide) _
  · exact hdata _ (by decide) _
  · exact hdata _ (by decide) _
  · exact hdata _ (by decide) _
  · exact hdata _ (by decide) _
  · exact htext _ (by decide) _
  · exact htext _ (by decide) _
  · rintro e ⟨bytes, -, rfl⟩
    exact hdata _ (by decide) _
  · rintro e ⟨text, -, rfl⟩
    exact htext _ (by decide) _
  · rintro e ⟨text, -, rfl⟩
    exact htext _ (by decide) _

theorem isField_of_mem (r : PairingRecord) : ∀ e ∈ r.entries, IsField e := by
  have hfind : ∀ field ∈ fields, fields.find? (fun other => other.1 = field.1) = some field := by
    decide
  exact forall_mem_entries r (fun name h _ => ⟨.data, hfind _ h, rfl⟩)
    (fun name h _ => ⟨.text, hfind _ h, rfl⟩)

theorem isLeaf_of_mem (r : PairingRecord) : ∀ e ∈ r.entries, Plist.Xml.IsLeaf e.2 :=
  forall_mem_entries r (fun _ _ bytes => .data bytes) fun _ _ text => .string text

/-- No field is written twice. -/
theorem nodup_keys_entries (r : PairingRecord) : (r.entries.map Prod.fst).Nodup := by
  obtain ⟨_, _, _, _, _, _, _, escrowBag, wifiMacAddress, udid⟩ := r
  rcases escrowBag with - | bytes <;> rcases wifiMacAddress with - | text <;>
    rcases udid with - | text' <;> simp [entries]

theorem hasUid_toPlist (r : PairingRecord) : r.toPlist.hasUid = false := by
  obtain ⟨_, _, _, _, _, _, _, escrowBag, wifiMacAddress, udid⟩ := r
  rcases escrowBag with - | bytes <;> rcases wifiMacAddress with - | text <;>
    rcases udid with - | text' <;> rfl

/-- The fields of a record, with the certificates as they are written. -/
def writtenFields (r : PairingRecord) : Fields where
  deviceCertificate := Pem.encode .certificate r.deviceCertificate
  hostPrivateKey := r.hostPrivateKey
  hostCertificate := Pem.encode .certificate r.hostCertificate
  rootPrivateKey := r.rootPrivateKey
  rootCertificate := Pem.encode .certificate r.rootCertificate
  systemBuid := r.systemBuid
  hostId := r.hostId
  escrowBag := r.escrowBag
  wifiMacAddress := r.wifiMacAddress
  udid := r.udid

/-- Every field is found, and one that was left out is missing. -/
theorem ofEntries_entries (r : PairingRecord) :
    Fields.ofEntries (r.entries.map fun e => (.value (.string e.1), .value e.2)) =
      .ok r.writtenFields := by
  rw [Fields.ofEntries, knownEntries?_of_forall (isField_of_mem r)]
  dsimp only [Option.elim_some, bind, Except.bind]
  rw [decide_eq_true (nodup_keys_entries r)]
  obtain ⟨_, _, _, _, _, _, _, escrowBag, wifiMacAddress, udid⟩ := r
  rcases escrowBag with - | bytes <;> rcases wifiMacAddress with - | text <;>
    rcases udid with - | text' <;> rfl

theorem ofFields_writtenFields (r : PairingRecord) : ofFields r.writtenFields = .ok r := by
  simp only [ofFields, certificateOf, writtenFields, Pem.certificate_encode]
  rfl

/-- A record is written, and the record in its document and in its property list is the same. -/
theorem written_record_is_read (r : PairingRecord) :
    (∃ bs, r.toBytes = .ok bs ∧ ofBytes bs = .ok r) ∧ ofPlist r.toPlist = .ok r := by
  have hwrite : r.toBytes = .ok (Bytes.ofString (Plist.Xml.document (.dictionary r.entries))) := by
    rw [toBytes, Plist.Xml.write?, hasUid_toPlist]
    rfl
  have hne : r.entries ≠ [] := List.cons_ne_nil _ _
  have hread := Plist.ofBytes?_document hne (isLeaf_of_mem r)
  refine ⟨⟨_, hwrite, ?_⟩, ?_⟩
  · rw [ofBytes, hread]
    dsimp only [Option.elim_some, bind, Except.bind, Plist.Tree.asDictionary?]
    rw [ofEntries_entries]
    exact ofFields_writtenFields r
  · rw [ofPlist, toPlist_eq]
    dsimp only [Option.elim_some, bind, Except.bind, Plist.asDictionary?]
    rw [ofEntries_entries]
    exact ofFields_writtenFields r

end Tether.PairingRecord
