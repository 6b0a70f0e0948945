import Tether.Proofs.Muxer.Replies

/-!
# Which devices are listed

The daemon's answer is read as a whole first. If one entry in it lacks a field or has one of the
wrong kind, the whole answer is refused, and no device is listed at all. Only then the entries are
gone through one by one: those in the network whose address is missing or cannot be decoded are
left out, and each of the others is a device, in the order of the entries.

* `Listing.ofEntry?_eq_some_iff`: which entries can be read, and as what;
* `Listing.device?_eq_some_iff`: which of them are devices, and where those are attached;
* `Client.lists_devices`: what a list comes to.
-/

namespace Tether.Muxer

/-! ## Entries -/

/-- The dictionary of an entry has these fields. A number may be an identifier, and a text may be
anything that gives one. -/
structure Listing.Reads (entry : Plist.Dictionary) (l : Listing) : Prop where
  id : ∃ v, entry.get? "DeviceID" = some v ∧ v.asCount? = some l.id.toNat
  properties : ∃ properties : Plist.Dictionary,
    entry.get? "Properties" = some (.dictionary properties) ∧
    (∃ v, properties.get? "ConnectionType" = some v ∧ v.asText? = some l.connectionType) ∧
    (∃ v, properties.get? "SerialNumber" = some v ∧ v.asText? = some l.serialNumber) ∧
    properties.get? "NetworkAddress" = l.networkAddress.map .data

/-- Where a device is attached by the type of its connection and by the bytes of its socket
address. -/
inductive Attaches : String → Option Bytes → Attachment → Prop
  | usb (address : Option Bytes) : Attaches "USB" address .usb
  | unknown {type : String} (address : Option Bytes) (husb : type ≠ "USB")
    (hnetwork : type ≠ "Network") : Attaches type address (.unknown type)
  /-- Four bytes behind the first four are a version 4 address. -/
  | v4 {address : Bytes} (hlength : 8 ≤ address.length) (hfirst : address[0]? = some 0x02) :
    Attaches "Network" (some address)
      (.network (.v4 ⟨BitVec.ofNat 32 (Bytes.toNatBE ((address.drop 4).take 4))⟩))
  /-- Sixteen bytes behind the first eight are a version 6 address. -/
  | v6 {address : Bytes} (hlength : 24 ≤ address.length)
    (hfirst : address[0]? = some 0x1E ∨ address[0]? = some 0x1C ∧ address[1]? = some 0x1E) :
    Attaches "Network" (some address)
      (.network (.v6 ⟨BitVec.ofNat 128 (Bytes.toNatBE ((address.drop 8).take 16))⟩))
  /-- The family is the second byte where the first one is a length. -/
  | family {address : Bytes} {family : UInt8} (hlength : 8 ≤ address.length)
    (hv4 : address[0]? ≠ some 0x02) (hv6 : family ≠ 0x1E)
    (h : if address[0]? = some 0x1C then address[1]? = some family else address[0]? = some family) :
    Attaches "Network" (some address) (.unknown ("Network " ++ Listing.byteText family))

/-- An entry describes a device in full. -/
def Describes (entry : Plist.Dictionary) (d : Device) : Prop :=
  ∃ l, Listing.Reads entry l ∧ Attaches l.connectionType l.networkAddress d.attachment ∧
    l.serialNumber = d.udid ∧ l.id = d.id

/-- These are the devices that entries describe in full, in the order of the entries. -/
inductive Lists : List Plist.Dictionary → List Device → Prop
  | nil : Lists [] []
  | described {entry : Plist.Dictionary} {entries : List Plist.Dictionary} {d : Device}
    {ds : List Device} (h : Describes entry d) (hrest : Lists entries ds) :
    Lists (entry :: entries) (d :: ds)
  | skipped {entry : Plist.Dictionary} {entries : List Plist.Dictionary} {ds : List Device}
    (h : ∀ d, ¬ Describes entry d) (hrest : Lists entries ds) : Lists (entry :: entries) ds

section Attaches

variable {type : String} {address : Option Bytes} {a : Attachment}

theorem attaches_usb_iff : Attaches "USB" address a ↔ a = .usb := by
  constructor
  · generalize htype : "USB" = type
    intro h
    cases h with
    | usb => rfl
    | unknown _ husb => exact absurd htype.symm husb
    | v4 | v6 | family => simp at htype
  · rintro rfl
    exact .usb address

theorem attaches_unknown_iff (husb : type ≠ "USB") (hnetwork : type ≠ "Network") :
    Attaches type address a ↔ a = .unknown type := by
  constructor
  · intro h
    cases h with
    | unknown => rfl
    | usb => exact absurd rfl husb
    | v4 | v6 | family => exact absurd rfl hnetwork
  · rintro rfl
    exact .unknown address husb hnetwork

/-- In the network there is no device without an address. -/
theorem not_attaches_network_none : ¬ Attaches "Network" none a := by
  generalize htype : "Network" = type
  intro h
  cases h with
  | usb => simp at htype
  | unknown _ _ hnetwork => exact hnetwork htype.symm

end Attaches

namespace Listing

variable {entry : Plist.Dictionary} {l : Listing} {d : Device}

theorem id?_eq_some_iff {v : Plist} {n : UInt32} : id? v = some n ↔ v.asCount? = some n.toNat := by
  have hn := n.toNat_lt
  rw [id?, Option.map_eq_some_iff]
  constructor
  · rintro ⟨m, hm, rfl⟩
    obtain ⟨hcount, hlt⟩ := Option.filter_eq_some_iff.1 hm
    rw [hcount, UInt32.toNat_ofNat', Nat.mod_eq_of_lt (by simpa using hlt)]
  · intro hcount
    exact ⟨n.toNat, Option.filter_eq_some_iff.2 ⟨hcount, by simpa using hn⟩, UInt32.ofNat_toNat⟩

theorem optional?_eq_some_iff {v : Option Plist} {address : Option Bytes} :
    optional? Plist.asData? v = some address ↔ v = address.map .data := by
  cases v with
  | none => cases address <;> simp [optional?]
  | some v => cases v <;> cases address <;> simp [optional?, Plist.asData?]

/-- An entry is read if its dictionary has all fields, each of the right kind. -/
theorem ofEntry?_eq_some_iff : ofEntry? (.dictionary entry) = some l ↔ Reads entry l := by
  have hdictionary {v : Plist} {d : Plist.Dictionary} :
      v.asDictionary? = some d ↔ v = .dictionary d := by
    cases v <;> simp [Plist.asDictionary?]
  rw [ ofEntry?]
  simp only [bind, Option.bind_eq_some_iff, pure, Option.some.injEq, hdictionary,
    Plist.dictionary.injEq, id?_eq_some_iff, optional?_eq_some_iff]
  constructor
  · rintro ⟨_, rfl, id, hid, properties, ⟨_, hproperties, rfl⟩, type, htype, address, haddress,
      serial, hserial, rfl⟩
    exact ⟨hid, properties, hproperties, htype, hserial, haddress⟩
  · rintro ⟨hid, properties, hproperties, htype, hserial, haddress⟩
    exact ⟨entry, rfl, l.id, hid, properties, ⟨_, hproperties, rfl⟩, l.connectionType, htype,
      l.networkAddress, haddress, l.serialNumber, hserial, rfl⟩

theorem attaches_of_attachmentOf? {address : Bytes} {a : Attachment}
    (h : attachmentOf? address = some a) : Attaches "Network" (some address) a := by
  unfold attachmentOf? at h
  split at h
  · next first second _ _ rest =>
    by_cases hshort : rest.length < 4
    · simp [hshort] at h
    rw [if_neg hshort] at h
    by_cases hv4 : first = 0x02
    · rw [if_pos hv4] at h
      obtain rfl := Option.some.inj h
      subst hv4
      exact .v4 (by simp; omega) rfl
    rw [if_neg hv4] at h
    by_cases hv6 : first = 0x1E ∨ first = 0x1C ∧ second = 0x1E
    · rw [if_pos hv6] at h
      dsimp only at h
      by_cases hlength : ((rest.drop 4).take 16).length = 16
      · rw [if_pos hlength] at h
        obtain rfl := Option.some.inj h
        refine .v6 ?_ (by simpa using hv6)
        simp only [List.length_take, List.length_drop] at hlength
        simp only [List.length_cons]
        omega
      · rw [if_neg hlength] at h
        cases h
    · rw [if_neg hv6] at h
      obtain rfl := Option.some.inj h
      refine .family (by simp; omega) (by simpa using hv4) ?_ ?_
      · split <;> grind
      · by_cases hlead : first = 0x1C <;> simp [hlead]
  · cases h

theorem attachmentOf?_of_attaches {address : Bytes} {a : Attachment}
    (h : Attaches "Network" (some address) a) : attachmentOf? address = some a := by
  -- The first four bytes are there in each of the cases.
  have hfour (hlength : 8 ≤ address.length) :
      ∃ a b c d rest, address = a :: b :: c :: d :: rest ∧ 4 ≤ rest.length := by
    obtain _ | ⟨a, _ | ⟨b, _ | ⟨c, _ | ⟨d, rest⟩⟩⟩⟩ := address
    all_goals simp only [List.length_cons, List.length_nil] at hlength
    any_goals omega
    exact ⟨a, b, c, d, rest, rfl, by omega⟩
  generalize htype : "Network" = type at h
  cases h with
  | usb => simp at htype
  | unknown _ _ hnetwork => exact absurd htype.symm hnetwork
  | v4 hlength hfirst =>
    obtain ⟨a, b, c, d, rest, rfl, hrest⟩ := hfour hlength
    obtain rfl : a = 0x02 := by simpa using hfirst
    simp [attachmentOf?, Nat.not_lt.2 hrest]
  | v6 hlength hfirst =>
    obtain ⟨a, b, c, d, rest, rfl, hrest⟩ := hfour (by omega)
    have hv6 : a = 0x1E ∨ a = 0x1C ∧ b = 0x1E := by simpa using hfirst
    have hv4 : a ≠ 0x02 := by rintro rfl; simp at hv6
    simp only [List.length_cons] at hlength
    have hoctets : ((rest.drop 4).take 16).length = 16 := by simp; omega
    rw [attachmentOf?, if_neg (Nat.not_lt.2 hrest), if_neg hv4, if_pos hv6]
    simp only [hoctets, if_true]
    rfl
  | @family _ family hlength hv4 hv6 hfamily =>
    obtain ⟨a, b, c, d, rest, rfl, hrest⟩ := hfour hlength
    have hnot : ¬ (a = 0x1E ∨ a = 0x1C ∧ b = 0x1E) := by
      rintro (rfl | ⟨rfl, rfl⟩) <;> exact hv6 (by simpa using hfamily.symm)
    rw [attachmentOf?, if_neg (Nat.not_lt.2 hrest), if_neg (by simpa using hv4), if_neg hnot]
    by_cases hlead : a = 0x1C <;> simp_all

/-- The address of a device in the network is decoded as it is attached. -/
theorem attachmentOf?_eq_some_iff {address : Bytes} {a : Attachment} :
    attachmentOf? address = some a ↔ Attaches "Network" (some address) a :=
  ⟨attaches_of_attachmentOf?, attachmentOf?_of_attaches⟩

/-- An entry is a device, unless it is in the network and has no address that can be decoded. -/
theorem device?_eq_some_iff : l.device? = some d ↔
    Attaches l.connectionType l.networkAddress d.attachment ∧ l.serialNumber = d.udid ∧
      l.id = d.id := by
  obtain ⟨id, type, address, serialNumber⟩ := l
  obtain ⟨attachment, udid, id'⟩ := d
  rw [device?]
  by_cases hnetwork : type = "Network"
  · subst hnetwork
    cases address with
    | none => simp [not_attaches_network_none]
    | some address =>
      simp only [if_true, bind, Option.bind_some, Option.bind_eq_some_iff,
        attachmentOf?_eq_some_iff, pure, Option.some.injEq, Device.mk.injEq]
      constructor
      · rintro ⟨a, ha, rfl, rfl, rfl⟩
        exact ⟨ha, rfl, rfl⟩
      · rintro ⟨ha, rfl, rfl⟩
        exact ⟨attachment, ha, rfl, rfl, rfl⟩
  · by_cases husb : type = "USB"
    · subst husb
      simp [attaches_usb_iff, eq_comm (a := attachment)]
    · simp [hnetwork, husb, attaches_unknown_iff, eq_comm (a := attachment)]

end Listing

variable {entry : Plist.Dictionary} {entries : List Plist.Dictionary} {d d' : Device}
  {ds ds' : List Device}

/-- The device that an entry describes. -/
def deviceOf? (entry : Plist.Dictionary) : Option Device := do
  let l ← Listing.ofEntry? (.dictionary entry)
  l.device?

theorem describes_iff : Describes entry d ↔ deviceOf? entry = some d := by
  simp only [Describes, deviceOf?, bind, Option.bind_eq_some_iff, Listing.ofEntry?_eq_some_iff,
    Listing.device?_eq_some_iff]

/-- An entry describes one device only, and entries have one list of devices only. -/
theorem Describes.eq (h : Describes entry d) (h' : Describes entry d') : d = d' :=
  Option.some.inj ((describes_iff.1 h).symm.trans (describes_iff.1 h'))

theorem Lists.eq (h : Lists entries ds) (h' : Lists entries ds') : ds = ds' := by
  induction h generalizing ds' with
  | nil =>
    cases h'
    rfl
  | described h _ ih =>
    cases h' with
    | described h' hrest => rw [h.eq h', ih hrest]
    | skipped h' => exact absurd h (h' _)
  | skipped h _ ih =>
    cases h' with
    | described h' => exact absurd h' (h _)
    | skipped _ hrest => exact ih hrest

/-- If all entries can be read, those that are devices are the ones that are described. -/
theorem lists_of_mapM {ls : List Listing}
    (h : (entries.map Plist.dictionary).mapM Listing.ofEntry? = some ls) :
    (∀ entry ∈ entries, ∃ l, Listing.Reads entry l) ∧ Lists entries (ls.filterMap Listing.device?) := by
  induction entries generalizing ls with
  | nil =>
    obtain rfl : [] = ls := by simpa using h
    exact ⟨List.forall_mem_nil _, .nil⟩
  | cons entry entries ih =>
    simp only [List.map_cons, List.mapM_cons, bind, Option.bind_eq_some_iff, pure,
      Option.some.injEq] at h
    obtain ⟨l, hl, ls, hls, rfl⟩ := h
    obtain ⟨hread, hlists⟩ := ih hls
    have hreads := Listing.ofEntry?_eq_some_iff.1 hl
    have hdevice : deviceOf? entry = l.device? := by
      rw [deviceOf?, hl]
      rfl
    refine ⟨List.forall_mem_cons.2 ⟨⟨l, hreads⟩, hread⟩, ?_⟩
    rw [List.filterMap_cons]
    cases hd : l.device? with
    | none =>
      refine .skipped (fun d hdescribes => ?_) hlists
      rw [describes_iff, hdevice, hd] at hdescribes
      cases hdescribes
    | some d => exact .described (describes_iff.2 (hdevice.trans hd)) hlists

/-- If a list cannot be read, one of its entries cannot. -/
theorem exists_of_mapM_eq_none
    (h : (entries.map Plist.dictionary).mapM Listing.ofEntry? = none) :
    ∃ entry ∈ entries, ∀ l, ¬ Listing.Reads entry l := by
  by_contra hall
  push Not at hall
  have hsome : ∃ ls, (entries.map Plist.dictionary).mapM Listing.ofEntry? = some ls := by
    clear h
    induction entries with
    | nil => exact ⟨[], rfl⟩
    | cons entry entries ih =>
      obtain ⟨⟨l, hl⟩, hrest⟩ := List.forall_mem_cons.1 hall
      obtain ⟨ls, hls⟩ := ih hrest
      exact ⟨l :: ls, by
        simp [List.mapM_cons, Listing.ofEntry?_eq_some_iff.2 hl, hls]⟩
  obtain ⟨ls, hls⟩ := hsome
  rw [h] at hls
  cases hls

/-! ## The answer -/

/-- An answer of the daemon on its way: a body that means a dictionary, and a header with the size
of both. -/
structure Answer where
  header : Header
  body : Bytes
  content : Plist.Dictionary
  size : header.size.toNat = headerLength + body.length
  reads : Plist.dictionaryOfBytes? body = some content

/-- The bytes of an answer. -/
def Answer.toBytes (a : Answer) : Bytes :=
  a.header.toBytes ++ a.body

theorem Answer.statedLength_toBytes (a : Answer) : statedLength a.toBytes = a.header.size.toNat := by
  have hhead : statedLength a.toBytes = statedLength a.header.toBytes := by
    rw [statedLength, toBytes, List.take_append_of_le_length (by simp [headerLength]), statedLength]
  have hread := Header.ofBytes_toBytes (h := a.header) (by rw [a.size]; omega)
  obtain ⟨-, herror⟩ | ⟨-, h, hok, hsize⟩ := Header.ofBytes_cases a.header.toBytes
  · rw [herror] at hread
    cases hread
  · obtain rfl := Except.ok.inj (hok.symm.trans hread)
    rw [hhead, hsize]

theorem Answer.isWhole_toBytes (a : Answer) : IsWhole a.toBytes := by
  rw [IsWhole, a.statedLength_toBytes, a.size, toBytes, List.length_append, Header.length_toBytes,
    Nat.max_eq_right (Nat.le_add_right _ _)]

namespace Client

variable {s : Client} {a : Answer} {rest : Bytes}

/-- An answer that has arrived is received, whatever comes behind it. -/
theorem ends_receive (h : s.transport.unread = a.toBytes ++ rest) :
    receive.Ends s (fun content t => content = a.content ∧ t.transport.unread = rest)
      (fun _ _ => False) := by
  have hcontent : contentOf? a.toBytes = some a.content := by
    rw [ contentOf?, Answer.toBytes, List.drop_left' a.header.length_toBytes, a.reads]
  refine (ends_receive_of_isWhole a.isWhole_toBytes h).mono ?_ ?_
  · rintro content _ ⟨-, hread, reads, rfl⟩
    exact ⟨Option.some.inj (hread.symm.trans hcontent), rfl⟩
  · rintro _ _ ⟨⟨hshort, -⟩ | ⟨-, hnone, -⟩, -⟩
    · rw [a.statedLength_toBytes, a.size] at hshort
      omega
    · rw [hcontent] at hnone
      cases hnone

/-- Sending reads nothing. -/
theorem ends_send (request : Plist.Dictionary) (s : Client) :
    (send request).Ends s (fun _ t => t.transport.unread = s.transport.unread)
      (fun _ _ => True) := by
  rw [send, Call.ends_bind, Call.ends_get, Call.ends_bind]
  cases packet s.tag request with
  | error e => trivial
  | ok bs =>
    refine Call.ends_ofExcept_ok.2 (Call.ends_zoom.2 ((Transport.writes_writeAll bs _).mono ?_ ?_))
    · rintro _ t ⟨written, allowance, ht⟩
      rw [ht]
    · rintro (e | _) t - <;> trivial

/-- The question for the devices. -/
def listRequest : Plist.Dictionary :=
  [("MessageType", .string "ListDevices"), ("ClientVersionString", .string "devicelink"),
    ("kLibUSBMuxVersion", .integer (.ofUInt64 3))]

/-- A list is what the answer is read as, or fails as a whole. -/
theorem ends_devices (h : s.transport.unread = a.toBytes ++ rest) :
    devices.Ends s
      (fun ds t => ∃ ls, Listing.ofPlist? a.content = some ls ∧
        ds = ls.filterMap Listing.device? ∧ t.transport.unread = rest)
      (fun halt t => send listRequest s = .error halt t ∨
        Listing.ofPlist? a.content = none ∧ halt = .failed .badPlist ∧
          t.transport.unread = rest) := by
  rw [devices, ask, Call.ends_bind, Call.ends_bind]
  refine ((ends_send listRequest s).and (Call.ends_self _ s)).mono ?_ fun _ _ h => .inl h.2
  rintro _ t ⟨hunread, -⟩
  refine (ends_receive (hunread.trans h)).mono ?_ fun _ _ => False.elim
  rintro _ u ⟨rfl, hunread⟩
  rw [Call.ends_bind]
  cases Listing.ofPlist? a.content with
  | none => exact .inr ⟨rfl, rfl, hunread⟩
  | some ls => exact ⟨ls, rfl, rfl, hunread⟩

/-- For an answer with a list of dictionaries: if each entry can be read, those are listed that
describe a device in full, in their order, and the others are left out. If one entry cannot be
read, no device is listed, and the question fails. -/
theorem lists_devices (h : s.transport.unread = a.toBytes ++ rest)
    (hlist : a.content.get? "DeviceList" = some (.array (entries.map Plist.dictionary))) :
    devices.Ends s
      (fun ds t => (∀ entry ∈ entries, ∃ l, Listing.Reads entry l) ∧ Lists entries ds ∧
        t.transport.unread = rest)
      (fun halt t => send listRequest s = .error halt t ∨
        (∃ entry ∈ entries, ∀ l, ¬ Listing.Reads entry l) ∧ halt = .failed .badPlist ∧
          t.transport.unread = rest) := by
  have hread : Listing.ofPlist? a.content =
      (entries.map Plist.dictionary).mapM Listing.ofEntry? := by
    rw [Listing.ofPlist?, hlist]
    rfl
  refine (ends_devices h).mono ?_ ?_
  · rintro _ t ⟨ls, hls, rfl, hunread⟩
    obtain ⟨hreads, hlists⟩ := lists_of_mapM (hread.symm.trans hls)
    exact ⟨hreads, hlists, hunread⟩
  · rintro halt t (hsend | ⟨hnone, hhalt, hunread⟩)
    · exact .inl hsend
    · exact .inr ⟨exists_of_mapM_eq_none (hread.symm.trans hnone), hhalt, hunread⟩

/-- The entry of a device that is attached by a cable. -/
def wired : Plist.Dictionary :=
  [("DeviceID", .integer (.ofUInt64 3)),
    ("Properties", .dictionary [("ConnectionType", .string "USB"), ("SerialNumber", .string "a")])]

/-- The entry of a device in the network, without an address. -/
def astray : Plist.Dictionary :=
  [("DeviceID", .integer (.ofUInt64 4)),
    ("Properties", .dictionary [("ConnectionType", .string "Network"), ("SerialNumber", .string "b")])]

/-- The entry of a device without a serial number. -/
def nameless : Plist.Dictionary :=
  [("DeviceID", .integer (.ofUInt64 4)),
    ("Properties", .dictionary [("ConnectionType", .string "USB")])]

/-- An answer with these entries. -/
def listing (entries : List Plist.Dictionary) : Plist.Dictionary :=
  [("DeviceList", .array (entries.map Plist.dictionary))]

set_option maxRecDepth 20000 in
/-- An answer in which one device has no address. -/
def gappy : Answer where
  header := { size := 230, version := xmlVersion, kind := plistKind, tag := 0 }
  body := Plist.Binary.write (.dictionary (listing [wired, astray]))
  content := listing [wired, astray]
  size := by cbv
  reads := by cbv

set_option maxRecDepth 20000 in
/-- An answer in which one device has no serial number. -/
def spoiled : Answer where
  header := { size := 207, version := xmlVersion, kind := plistKind, tag := 0 }
  body := Plist.Binary.write (.dictionary (listing [wired, nameless]))
  content := listing [wired, nameless]
  size := by cbv
  reads := by cbv

/-- A client for which an answer has arrived. -/
def answered (a : Answer) : Client :=
  { transport := { unread := a.toBytes }, tag := 0 }

/-- The question can be sent. -/
theorem send_answered (a : Answer) (halt : Halt DeviceError) (t : Client) :
    send listRequest (answered a) ≠ .error halt t := by
  intro h
  have hends : (send listRequest).Ends (answered a) (fun _ _ => True) (fun _ _ => False) := trivial
  rwa [Call.Ends, h] at hends

/-- The device at the cable is described in full. -/
theorem describes_wired : Describes wired ⟨.usb, "a", 3⟩ :=
  describes_iff.2 rfl

theorem not_describes_astray (d : Device) : ¬ Describes astray d := by
  intro h
  have hnone : deviceOf? astray = none := rfl
  rw [describes_iff, hnone] at h
  cases h

theorem not_describes_nameless (d : Device) : ¬ Describes nameless d := by
  intro h
  have hnone : deviceOf? nameless = none := rfl
  rw [describes_iff, hnone] at h
  cases h

theorem lists_devices_gappy :
    devices.Ends (answered gappy)
      (fun ds t => ds = [⟨.usb, "a", 3⟩] ∧ t.transport.unread = []) (fun _ _ => False) := by
  have hunread : (answered gappy).transport.unread = gappy.toBytes ++ [] :=
    (List.append_nil _).symm
  have hlist : gappy.content.get? "DeviceList" =
      some (.array ([wired, astray].map Plist.dictionary)) := rfl
  have hsend := send_answered gappy
  generalize answered gappy = s at hunread hsend ⊢
  refine (lists_devices hunread hlist).mono ?_ ?_
  · rintro ds t ⟨-, hlists, hleft⟩
    exact ⟨hlists.eq (.described describes_wired (.skipped not_describes_astray .nil)), hleft⟩
  · rintro halt t (h | ⟨⟨entry, hentry, hreads⟩, -⟩)
    · exact hsend halt t h
    · simp only [List.mem_cons, List.not_mem_nil, or_false] at hentry
      obtain rfl | rfl := hentry
      · exact hreads ⟨3, "USB", none, "a"⟩ (Listing.ofEntry?_eq_some_iff.1 rfl)
      · exact hreads ⟨4, "Network", none, "b"⟩ (Listing.ofEntry?_eq_some_iff.1 rfl)

/-- One entry describes a device in full and the other does not, and no device is listed. -/
theorem not_listed_spoiled :
    Lists [wired, nameless] [⟨.usb, "a", 3⟩] ∧
      devices.Ends (answered spoiled) (fun _ _ => False) (fun halt _ => halt = .failed .badPlist) := by
  refine ⟨.described describes_wired (.skipped not_describes_nameless .nil), ?_⟩
  have hunread : (answered spoiled).transport.unread = spoiled.toBytes ++ [] :=
    (List.append_nil _).symm
  have hnone : Listing.ofPlist? spoiled.content = none := rfl
  have hsend := send_answered spoiled
  generalize answered spoiled = s at hunread hsend ⊢
  refine (ends_devices hunread).mono ?_ ?_
  · rintro ds t ⟨ls, hls, -⟩
    rw [hnone] at hls
    cases hls
  · rintro halt t (h | ⟨-, hhalt, -⟩)
    · exact absurd h (hsend halt t)
    · exact hhalt

end Client

end Tether.Muxer
