import Tether.Muxer.Client
import Tether.Proofs.Connection

/-!
# Packets of the daemon

A request is one packet: a header, in which the length of the packet stands, and a property list
behind it. A reply is as long as it says in its first field, but a header at least. One that says
less is refused; of any other just so much is read as it says, however it arrives. So where the
daemon turns the connection into one to a device, this starts with the first byte behind the reply.

* `isRequest_packet`: the packet of a request;
* `ends_receive_of_isWhole`: a reply that has arrived;
* `Client.keeps_boundaries`: requests, replies, and the connection that is handed over.
-/

namespace Tether.Muxer

variable {bs body reply rest : Bytes} {tag : UInt32} {request : Plist.Dictionary}

/-! ## Headers -/

/-- A header whose size includes it is read back. -/
theorem Header.ofBytes_toBytes {h : Header} (hsize : headerLength ≤ h.size.toNat) :
    ofBytes h.toBytes = .ok h := by
  have hword (n : UInt32) : UInt32.ofNat (Bytes.toNatLE (Bytes.ofNatLE 4 n.toNat)) = n := by
    have hn := n.toNat_lt
    rw [Bytes.toNatLE_ofNatLE, Nat.mod_eq_of_lt (by simpa using hn), UInt32.ofNat_toNat]
  have hfields : fieldOf h.toBytes 0 = h.size ∧ fieldOf h.toBytes 1 = h.version ∧
      fieldOf h.toBytes 2 = h.kind ∧ fieldOf h.toBytes 3 = h.tag := by
    simp [fieldOf, toBytes, List.drop_append, List.drop_eq_nil_of_le, List.take_of_length_le, hword]
  obtain ⟨h0, h1, h2, h3⟩ := hfields
  simp only [ofBytes, h0, h1, h2, h3, if_neg (Nat.not_lt.2 hsize)]

@[simp] theorem Header.length_toBytes (h : Header) : h.toBytes.length = headerLength := by
  simp [toBytes, headerLength]

/-- The length that a packet gives itself. -/
def statedLength (bs : Bytes) : Nat :=
  Bytes.toNatLE (bs.take 4)

/-- The size in a header is the stated length, unless that is too small for a header. -/
theorem Header.ofBytes_cases (bs : Bytes) :
    statedLength bs < headerLength ∧ ofBytes bs = .error .packetSizeMismatch ∨
      headerLength ≤ statedLength bs ∧ ∃ h, ofBytes bs = .ok h ∧ h.size.toNat = statedLength bs := by
  have hsize : (fieldOf bs 0).toNat = statedLength bs := by
    have hlt : statedLength bs < 256 ^ 4 := (Bytes.toNatLE_lt _).trans_le
      (Nat.pow_le_pow_right (by decide) (List.length_take_le 4 bs))
    rw [fieldOf, Nat.mul_zero, List.drop_zero, UInt32.toNat_ofNat', ← statedLength]
    exact Nat.mod_eq_of_lt hlt
  simp only [ofBytes, hsize]
  by_cases hshort : statedLength bs < headerLength
  · exact .inl ⟨hshort, if_pos hshort⟩
  · exact .inr ⟨Nat.not_lt.1 hshort, _, if_neg hshort, hsize⟩

/-- No header that is read has a body of less than nothing. -/
theorem Header.headerLength_le_size {h : Header} (hbs : ofBytes bs = .ok h) :
    headerLength ≤ h.size.toNat := by
  obtain ⟨-, herror⟩ | ⟨hle, h', hok, hsize⟩ := ofBytes_cases bs
  · rw [herror] at hbs
    cases hbs
  · obtain rfl := Except.ok.inj (hok.symm.trans hbs)
    rwa [hsize]

/-! ## Requests -/

/-- These bytes are the packet with a body: its header is read back as that of a dictionary in XML
with this tag, and has the length of the packet. -/
structure IsRequest (tag : UInt32) (body bs : Bytes) : Prop where
  header : ∃ size : UInt32, Header.ofBytes (bs.take headerLength) = .ok ⟨size, 1, 8, tag⟩ ∧
    size.toNat = bs.length
  body : bs.drop headerLength = body

/-- A request that can be written, and is not too long for its header, is a packet. -/
theorem isRequest_packet (hbody : Plist.Xml.write? (.dictionary request) = some body)
    (hlength : body.length < 2 ^ 32 - headerLength) :
    ∃ bs, packet tag request = .ok bs ∧ IsRequest tag body bs := by
  have hsize : (UInt32.ofNat (headerLength + body.length)).toNat = headerLength + body.length :=
    Nat.mod_eq_of_lt (by rw [headerLength] at hlength ⊢; omega)
  refine ⟨_, by rw [packet, hbody]; rfl, ⟨UInt32.ofNat (headerLength + body.length), ?_, ?_⟩,
    List.drop_left' (Header.length_toBytes _)⟩
  · rw [List.take_left' (Header.length_toBytes _)]
    exact Header.ofBytes_toBytes (by rw [hsize]; exact Nat.le_add_right _ _)
  · rw [hsize, List.length_append, Header.length_toBytes]

namespace Client

variable {s : Client}

/-- A request is written as one packet, or cut off where the transport takes no more. -/
theorem ends_send_packet (hpacket : packet s.tag request = .ok bs) :
    (send request).Ends s
      (fun _ t => ∃ u, s.transport.Took bs u ∧ t = { s with transport := u })
      (fun halt t => ∃ fault u, halt = .failed (.socket fault) ∧
        Transport.CutOff bs fault s.transport u ∧ t = { s with transport := u }) := by
  rw [send, Call.ends_bind, Call.ends_get, Call.ends_bind, hpacket, Call.ends_ofExcept_ok,
    onTransport, Call.ends_zoom]
  refine (Transport.ends_writeAll_took bs s.transport).mono (fun _ u hu => ⟨u, hu, rfl⟩) ?_
  rintro _ u ⟨fault, rfl, hu⟩
  exact ⟨fault, u, rfl, hu, rfl⟩

end Client

/-! ## Replies -/

/-- A whole reply: as long as it says, but a header at least. -/
def IsWhole (reply : Bytes) : Prop :=
  reply.length = max headerLength (statedLength reply)

/-- The dictionary in a reply. -/
def contentOf? (reply : Bytes) : Option Plist.Dictionary :=
  Plist.dictionaryOfBytes? (reply.drop headerLength)

/-- The number in a reply. -/
def numberOf? (reply : Bytes) : Option Nat :=
  (contentOf? reply).bind fun content => (content.get? "Number").bind Plist.asUnsigned?

/-- A reply that is refused for its length has no number. -/
theorem numberOf?_eq_none (hwhole : IsWhole reply) (hshort : statedLength reply < headerLength) :
    numberOf? reply = none := by
  have hnil : reply.drop headerLength = [] :=
    List.drop_eq_nil_of_le (by rw [hwhole, Nat.max_eq_left hshort.le])
  rw [numberOf?, contentOf?, hnil]
  rfl

namespace Client

variable {s : Client}

/-- The client with these bytes left unread. -/
def left (s : Client) (rest : Bytes) (reads : Nat) : Client :=
  { s with transport := { s.transport with unread := rest, reads } }

/-- Of a whole reply just its bytes are read. It is refused for its length if it states less than a
header, and it is received otherwise, if it means a dictionary. -/
theorem ends_receive_of_isWhole (hwhole : IsWhole reply)
    (h : s.transport.unread = reply ++ rest) :
    receive.Ends s
      (fun content t => headerLength ≤ statedLength reply ∧ contentOf? reply = some content ∧
        ∃ reads, t = s.left rest reads)
      (fun halt t => (statedLength reply < headerLength ∧ halt = .failed .packetSizeMismatch ∨
          headerLength ≤ statedLength reply ∧ contentOf? reply = none ∧ halt = .failed .badPlist) ∧
        ∃ reads, t = s.left rest reads) := by
  have hsplit := List.take_append_drop headerLength reply
  have hhead : (reply.take headerLength).length = headerLength := by
    rw [List.length_take, hwhole]
    omega
  have hstated : statedLength (reply.take headerLength) = statedLength reply := by
    rw [statedLength, List.take_take, statedLength]
    rfl
  rw [← hsplit, List.append_assoc] at h
  obtain ⟨reads, hr⟩ := Transport.readExact_of_append h hhead
  rw [receive, Call.ends_bind, onTransport, Call.ends_zoom, Call.Ends, hr]
  dsimp only
  have hcases := Header.ofBytes_cases (reply.take headerLength)
  rw [hstated] at hcases
  obtain ⟨hshort, herror⟩ | ⟨hle, header, hok, hsize⟩ := hcases
  · rw [herror]
    have hnil : reply.drop headerLength = [] :=
      List.drop_eq_nil_of_le (by rw [hwhole, Nat.max_eq_left hshort.le])
    exact ⟨.inl ⟨hshort, rfl⟩, reads, by rw [hnil]; rfl⟩
  · rw [hok]
    obtain ⟨reads', hr'⟩ := Transport.readExact_of_append (n := header.size.toNat - headerLength)
      (t := { s.transport with unread := reply.drop headerLength ++ rest, reads := reads }) rfl
      (by rw [List.length_drop, hwhole, Nat.max_eq_right hle, hsize])
    refine Call.ends_bind.2 (Call.ends_ofExcept_ok.2 (Call.ends_bind.2 (Call.ends_zoom.2 ?_)))
    rw [Call.Ends, hr']
    dsimp only
    cases hcontent : Plist.dictionaryOfBytes? (reply.drop headerLength) with
    | none => exact ⟨.inr ⟨hle, hcontent, rfl⟩, reads', rfl⟩
    | some content => exact ⟨hle, hcontent, reads', rfl⟩

/-! ## Turning the connection over -/

/-- The question for a port of a device. -/
def portRequest (id : UInt32) (port : UInt16) : Plist.Dictionary :=
  [("MessageType", .string "Connect"), ("DeviceID", .integer (.ofUInt64 id.toUInt64)),
    ("PortNumber", .integer (swapped port))]

/-- Every number but zero means an error. -/
theorem resultOf_eq_ok_iff {number : Option Nat} : resultOf number = .ok () ↔ number = some 0 := by
  unfold resultOf
  split <;> simp_all

/-- A connection is there if the question was sent and the number in the reply is zero. It has taken
over the transport where the reply ends. -/
theorem ends_connect (id : UInt32) (port : UInt16) (label : String) (hwhole : IsWhole reply)
    (h : s.transport.unread = reply ++ rest)
    (hpacket : packet s.tag (portRequest id port) = .ok bs) :
    (connect id port label).Ends s
      (fun c _ => numberOf? reply = some 0 ∧ ∃ u reads, s.transport.Took bs u ∧
        c = { transport := { u with unread := rest, reads }, label })
      (fun halt _ => (∃ fault u, halt = .failed (.socket fault) ∧
          Transport.CutOff bs fault s.transport u) ∨
        numberOf? reply ≠ some 0 ∧ ∃ e, halt = .failed e) := by
  rw [connect, ask, Call.ends_bind, Call.ends_bind]
  refine (ends_send_packet hpacket).mono ?_ ?_
  · rintro _ _ ⟨u, hu, rfl⟩
    have hunread : u.unread = reply ++ rest := by
      obtain ⟨written, allowance, rfl⟩ := hu.writes
      exact h
    refine (ends_receive_of_isWhole (s := { s with transport := u }) hwhole hunread).mono ?_ ?_
    · rintro content _ ⟨-, hcontent, reads, rfl⟩
      have hnumber : numberOf? reply = (content.get? "Number").bind Plist.asUnsigned? := by
        rw [numberOf?, hcontent, Option.bind_some]
      rw [← hnumber]
      cases hresult : resultOf (numberOf? reply) with
      | ok _ => exact ⟨resultOf_eq_ok_iff.1 hresult, u, reads, hu, rfl⟩
      | error e =>
        refine .inr ⟨fun hzero => ?_, e, rfl⟩
        rw [resultOf_eq_ok_iff.2 hzero] at hresult
        cases hresult
    · rintro _ _ ⟨⟨hshort, rfl⟩ | ⟨-, hcontent, rfl⟩, -⟩
      · exact .inr ⟨by simp [numberOf?_eq_none hwhole hshort], _, rfl⟩
      · exact .inr ⟨by simp [numberOf?, hcontent], _, rfl⟩
  · rintro _ _ ⟨fault, u, rfl, hu, -⟩
    exact .inl ⟨fault, u, rfl, hu⟩

/-- What is read from the connection are these bytes, from the first one, and behind them whatever
else the device sends. -/
def StartsAt (c : Connection) (rest : Bytes) : Prop :=
  ∀ more n, n ≤ (rest ++ more).length →
    (Connection.readRaw n).Ends { c with transport := c.transport.deliver more }
      (fun bs d => bs = (rest ++ more).take n ∧ d.transport.unread = (rest ++ more).drop n ∧ d.isOpen)
      (fun _ _ => False)

theorem startsAt_unread {c : Connection} (ho : c.isOpen) : StartsAt c c.transport.unread := by
  intro more n hn
  obtain ⟨reads, hr⟩ := Connection.readRaw_of_le
    (c := { c with transport := c.transport.deliver more }) ho hn
  rw [Call.Ends, hr]
  exact ⟨rfl, rfl, ho⟩

/-- A request is one packet whose header tells its length. Of a whole reply just as much is read as
it says, however it arrives, and one is refused for its length only if it says less than a header
has. A connection comes of it if the number in it is zero, and starts right behind it. -/
theorem keeps_boundaries (s : Client) :
    (∀ request body, Plist.Xml.write? (.dictionary request) = some body →
      body.length < 2 ^ 32 - 16 → ∃ bs, IsRequest s.tag body bs ∧
        (send request).Ends s
          (fun _ t => ∃ u, s.transport.Took bs u ∧ t = { s with transport := u })
          (fun halt t => ∃ fault u, halt = .failed (.socket fault) ∧
            Transport.CutOff bs fault s.transport u ∧ t = { s with transport := u })) ∧
    (∀ bs h, Header.ofBytes bs = .ok h → 16 ≤ h.size.toNat) ∧
    ∀ reply rest, IsWhole reply → s.transport.unread = reply ++ rest →
      receive.Ends s
        (fun content t => 16 ≤ statedLength reply ∧ contentOf? reply = some content ∧
          ∃ reads, t = s.left rest reads)
        (fun halt t => (statedLength reply < 16 ∧ halt = .failed .packetSizeMismatch ∨
            16 ≤ statedLength reply ∧ contentOf? reply = none ∧ halt = .failed .badPlist) ∧
          ∃ reads, t = s.left rest reads) ∧
      ∀ id port label, ∃ bs, packet s.tag (portRequest id port) = .ok bs ∧
        (connect id port label).Ends s
          (fun c _ => numberOf? reply = some 0 ∧ c.isOpen ∧ c.label = label ∧
            c.transport.sent = s.transport.sent ++ bs ∧ c.transport.unread = rest ∧ StartsAt c rest)
          (fun halt _ => (∃ fault u, halt = .failed (.socket fault) ∧
              Transport.CutOff bs fault s.transport u) ∨
            numberOf? reply ≠ some 0 ∧ ∃ e, halt = .failed e) := by
  refine ⟨?_, fun bs h => Header.headerLength_le_size, ?_⟩
  · intro request body hbody hlength
    obtain ⟨bs, hpacket, hrequest⟩ : ∃ bs, packet s.tag request = .ok bs ∧ IsRequest s.tag body bs :=
      isRequest_packet hbody hlength
    exact ⟨bs, hrequest, ends_send_packet hpacket⟩
  · intro reply rest hwhole hunread
    refine ⟨ends_receive_of_isWhole hwhole hunread, fun id port label => ?_⟩
    have hpacket : ∃ bs, packet s.tag (portRequest id port) = .ok bs := ⟨_, rfl⟩
    obtain ⟨bs, hpacket⟩ := hpacket
    refine ⟨bs, hpacket, (ends_connect id port label hwhole hunread hpacket).mono ?_ fun _ _ h => h⟩
    rintro _ _ ⟨hnumber, u, reads, hu, rfl⟩
    exact ⟨hnumber, rfl, rfl, hu.sent, rfl, startsAt_unread rfl⟩

/-- A question with one entry. -/
def listen : Plist.Dictionary :=
  [("MessageType", .string "Listen")]

/-- The reply with which a connection is granted. -/
def granted : Bytes :=
  Header.toBytes { size := 71, version := xmlVersion, kind := plistKind, tag := 7 } ++
    Plist.Binary.write (.dictionary [("Number", .integer (.ofUInt64 0))])

/-- A client that has been granted one, with three bytes of the device behind the reply. They come
one at a time. -/
def granting : Client :=
  { transport := { unread := granted ++ [1, 2, 3], pace := fun _ => some 1 }, tag := 7 }

theorem isWhole_granted : IsWhole granted := by
  have hlength : (granted.length, statedLength granted) = (71, 71) := by cbv
  rw [Prod.mk.injEq] at hlength
  rw [IsWhole, hlength.1, hlength.2]
  rfl

theorem keeps_boundaries_granting :
    (∃ bs, IsRequest 7 (Bytes.ofString (Plist.Xml.document (.dictionary listen))) bs) ∧
      (∃ h, Header.ofBytes granted = .ok h ∧ 16 ≤ h.size.toNat) ∧
      (connect 3 62078 "a").Ends granting
        (fun c _ => c.transport.unread = [1, 2, 3] ∧ StartsAt c [1, 2, 3]) (fun _ _ => False) := by
  have hrequest : Plist.Xml.write? (.dictionary listen) =
      some (Bytes.ofString (Plist.Xml.document (.dictionary listen))) := rfl
  have hshort : (Bytes.ofString (Plist.Xml.document (.dictionary listen))).length < 2 ^ 32 - 16 := by
    decide +kernel
  have hheader : ∃ h, Header.ofBytes granted = .ok h := ⟨_, rfl⟩
  have hunread : granting.transport.unread = granted ++ [1, 2, 3] := rfl
  have hallowance : granting.transport.allowance = none := rfl
  have htag : granting.tag = 7 := rfl
  have hnumber : numberOf? granted = some 0 := by cbv
  have hwhole := isWhole_granted
  generalize granting = s at hunread hallowance htag ⊢
  generalize granted = reply at *
  obtain ⟨hsend, hsize, hreceive⟩ := keeps_boundaries s
  obtain ⟨bs, hbs, -⟩ := hsend _ _ hrequest hshort
  obtain ⟨-, hconnect⟩ := hreceive _ _ hwhole hunread
  obtain ⟨bs', -, hends⟩ := hconnect 3 62078 "a"
  refine ⟨⟨bs, htag ▸ hbs⟩, ?_, hends.mono ?_ ?_⟩
  · obtain ⟨h, hh⟩ := hheader
    exact ⟨h, hh, hsize _ _ hh⟩
  · rintro c _ ⟨-, -, -, -, hleft, hstarts⟩
    exact ⟨hleft, hstarts⟩
  · rintro _ _ (⟨fault, u, -, hcut⟩ | ⟨hzero, -⟩)
    · obtain ⟨n, -, hroom, -⟩ := hcut.cut
      rw [hallowance] at hroom
      cases hroom
    · exact hzero hnumber

end Client

end Tether.Muxer
