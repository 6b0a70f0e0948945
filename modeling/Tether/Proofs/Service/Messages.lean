import Tether.Proofs.Service.Negotiation

/-!
# Messages of a service

A message is a dictionary behind its length. One that has arrived whole is received as the
dictionary it means, or as the error that the dictionary reports, and nothing behind it is touched.
Whatever a device has sent is messages and then bytes with which receiving fails or waits
(`exists_delivery`).

* `ends_send`: a request that is sent;
* `ends_receive`: a message that has arrived;
* `Delivery`: all that a device has sent.
-/

namespace Tether.Connection

variable {c s t u : Connection} {rest : Bytes}

/-! ## Requests -/

/-- A request that is sent adds its bytes to what was sent, and nothing is read. Sending does not
wait. -/
theorem ends_send (d : Plist.Dictionary) (s : Connection) :
    (send (.dictionary d)).Ends s
      (fun _ u => u.isOpen ∧ u.transport.ending = s.transport.ending ∧
        u.transport.sent = s.transport.sent ++ framed d ∧ u.transport.unread = s.transport.unread)
      (fun h _ => h ≠ .waiting) := by
  rw [send, Call.ends_bind]
  by_cases huid : Plist.hasUid (.dictionary d)
  · rw [Plist.Xml.write?, if_pos huid]
    exact Halt.failed_ne_waiting _
  · rw [Plist.Xml.write?, if_neg huid, Call.ends_ofOption_some, sendFramed, Call.Ends]
    by_cases ho : s.isOpen
    · rw [onTransport_open _ ho, ← Call.Ends, Call.ends_zoom, Call.ends_bind]
      have hwrite (bs : Bytes) (t : Transport) :=
        (Afc.Client.ends_writeAll bs t).and (Transport.writes_writeAll bs t)
      refine (hwrite _ s.transport).mono ?_ ?_
      · rintro _ t ⟨⟨hsent, hwrote, -⟩, written, allowance, ht⟩
        refine (hwrite _ t).mono ?_ ?_
        · rintro _ u ⟨⟨hsent', hwrote', -⟩, written', allowance', hu⟩
          refine ⟨ho, by rw [hu, ht], ?_, hwrote'.unread.trans hwrote.unread⟩
          rw [hsent', hsent, List.append_assoc]
          rfl
        · rintro _ u ⟨⟨-, fault, rfl, -⟩, -⟩
          exact Halt.failed_ne_waiting _
      · rintro _ t ⟨⟨-, fault, rfl, -⟩, -⟩
        exact Halt.failed_ne_waiting _
    · rw [onTransport_lost _ (by simpa using ho)]
      exact Halt.failed_ne_waiting _

/-! ## Messages -/

/-- A dictionary on its way from a device: a body that means it and is not too long. -/
structure Message where
  body : Bytes
  content : Plist.Dictionary
  reads : Plist.dictionaryOfBytes? body = some content
  short : body.length ≤ maxPlistLength

namespace Message

/-- The bytes of a message. -/
def toBytes (m : Message) : Bytes :=
  Bytes.ofNatBE 4 m.body.length ++ m.body

/-- Messages one after the other. -/
def bytesOf (ms : List Message) : Bytes :=
  ms.flatMap toBytes

@[simp] theorem bytesOf_nil : bytesOf [] = [] :=
  rfl

@[simp] theorem bytesOf_cons (m : Message) (ms : List Message) :
    bytesOf (m :: ms) = m.toBytes ++ bytesOf ms :=
  List.flatMap_cons

@[simp] theorem bytesOf_append (ms ms' : List Message) :
    bytesOf (ms ++ ms') = bytesOf ms ++ bytesOf ms' :=
  List.flatMap_append

/-- A message has a length at least. -/
theorem four_le_length_toBytes (m : Message) : 4 ≤ m.toBytes.length := by
  simp [toBytes]

theorem length_le_length_bytesOf (ms : List Message) : ms.length ≤ (bytesOf ms).length := by
  induction ms with
  | nil => exact Nat.le_refl 0
  | cons m ms ih =>
    have := m.four_le_length_toBytes
    rw [bytesOf_cons, List.length_append, List.length_cons]
    omega

end Message

variable {m : Message}

/-- Where a length has arrived that is not too great, what is left to do is to read the body. -/
theorem ends_receive_of_length {Q : Plist.Dictionary → Connection → Prop}
    {E : Halt DeviceError → Connection → Prop} (ho : c.isOpen) {head body : Bytes}
    (h : c.transport.unread = head ++ body) (hhead : head.length = 4)
    (hshort : Bytes.toNatBE head ≤ maxPlistLength)
    (hbody : ∀ reads, Call.Ends (do
        let body ← readRaw (Bytes.toNatBE head)
        let d ← Call.ofOption .badPlist (Plist.dictionaryOfBytes? body)
        match reportedError? d with
        | some e => Call.fail e
        | none => return d) (c.left body reads) Q E) :
    receive.Ends c Q E := by
  obtain ⟨reads, hr⟩ := readRaw_of_le (n := 4) ho (by rw [h, List.length_append, hhead]; omega)
  rw [h, List.take_left' hhead, List.drop_left' hhead] at hr
  rw [receive, Call.ends_bind, Call.Ends, hr]
  dsimp only
  rw [if_neg (Nat.not_lt.2 hshort)]
  exact hbody reads

/-- A message that has arrived is received, whatever comes behind it. -/
theorem ends_receive (ho : c.isOpen) (h : c.transport.unread = m.toBytes ++ rest) :
    receive.Ends c
      (fun d t => d = m.content ∧ reportedError? m.content = none ∧ ∃ reads, t = c.left rest reads)
      (fun halt t => (∃ e, reportedError? m.content = some e ∧ halt = .failed e) ∧
        ∃ reads, t = c.left rest reads) := by
  have hlength : m.body.length < 256 ^ 4 := lt_of_le_of_lt m.short (by decide)
  have hvalue : Bytes.toNatBE (Bytes.ofNatBE 4 m.body.length) = m.body.length := by
    rw [Bytes.toNatBE_ofNatBE, Nat.mod_eq_of_lt hlength]
  rw [Message.toBytes, List.append_assoc] at h
  refine ends_receive_of_length ho h (Bytes.length_ofNatBE _ _) (hvalue.trans_le m.short) ?_
  intro reads
  obtain ⟨reads', hr⟩ := readRaw_of_le (c := c.left (m.body ++ rest) reads) (n := m.body.length) ho
    (by simp)
  rw [unread_left, List.take_left, List.drop_left, left_left] at hr
  rw [hvalue, Call.ends_bind, Call.Ends, hr]
  dsimp only
  rw [m.reads, Call.ends_bind, Call.ends_ofOption_some]
  cases hreported : reportedError? m.content with
  | none => exact ⟨rfl, rfl, reads', rfl⟩
  | some e => exact ⟨⟨e, rfl, rfl⟩, reads', rfl⟩

/-! ## All that was sent -/

/-- Receiving comes to this where these bytes are unread and nothing else is sent, and leaves the
ones given last. -/
def Stops (ending : Ending) (unread : Bytes) (halt : Halt DeviceError) (left : Bytes) : Prop :=
  ∀ c : Connection, c.isOpen → c.transport.ending = ending → c.transport.unread = unread →
    receive.Ends c (fun _ _ => False) (fun h t => h = halt ∧ ∃ reads, t = c.left left reads)

/-- Less than a length is no message. -/
theorem stops_of_lt (ending : Ending) {bs : Bytes} (h : bs.length < 4) :
    Stops ending bs (haltAt ending) [] := by
  intro c ho hending hunread
  rw [receive, Call.ends_bind]
  refine (ends_readRaw_of_lt ho (by rwa [hunread])).mono (fun _ _ => False.elim) ?_
  rintro _ t ⟨rfl, hleft⟩
  exact ⟨by rw [hending], hleft⟩

/-- A length that is too great is refused, and nothing behind it is read. -/
theorem stops_of_long (ending : Ending) {head body : Bytes} (hhead : head.length = 4)
    (hlong : maxPlistLength < Bytes.toNatBE head) :
    Stops ending (head ++ body) (.failed .packetSizeMismatch) body := by
  intro c ho hending h
  obtain ⟨reads, hr⟩ := readRaw_of_le (n := 4) ho (by rw [h, List.length_append, hhead]; omega)
  rw [h, List.take_left' hhead, List.drop_left' hhead] at hr
  rw [receive, Call.ends_bind, Call.Ends, hr]
  dsimp only
  rw [if_pos hlong]
  exact ⟨rfl, reads, rfl⟩

/-- Behind a length, less than a body is no message either. -/
theorem stops_of_cut (ending : Ending) {head body : Bytes} (hhead : head.length = 4)
    (hshort : Bytes.toNatBE head ≤ maxPlistLength) (hcut : body.length < Bytes.toNatBE head) :
    Stops ending (head ++ body) (haltAt ending) [] := by
  intro c ho hending h
  refine ends_receive_of_length ho h hhead hshort fun reads => Call.ends_bind.2 ?_
  refine (ends_readRaw_of_lt (c := c.left body reads) ho hcut).mono (fun _ _ => False.elim) ?_
  rintro _ t ⟨rfl, reads', rfl⟩
  exact ⟨congrArg haltAt hending, reads', rfl⟩

/-- A body that means no dictionary is read and refused. -/
theorem stops_of_garbled (ending : Ending) {head body rest : Bytes} (hhead : head.length = 4)
    (hshort : Bytes.toNatBE head ≤ maxPlistLength) (hbody : body.length = Bytes.toNatBE head)
    (hgarbled : Plist.dictionaryOfBytes? body = none) :
    Stops ending (head ++ (body ++ rest)) (.failed .badPlist) rest := by
  intro c ho hending h
  refine ends_receive_of_length ho h hhead hshort fun reads => Call.ends_bind.2 ?_
  obtain ⟨reads', hr⟩ := readRaw_of_le (c := c.left (body ++ rest) reads) (n := body.length) ho
    (by simp)
  rw [unread_left, List.take_left, List.drop_left, left_left] at hr
  rw [← hbody, Call.Ends, hr]
  dsimp only
  rw [hgarbled]
  exact ⟨rfl, reads', rfl⟩

/-- What has arrived starts with a message, or receiving stops there. It waits only where the device
is silent, and then with all that has arrived in its hands. -/
theorem message_or_stops (ending : Ending) (bs : Bytes) :
    (∃ m rest, bs = Message.toBytes m ++ rest) ∨
      ∃ halt left, Stops ending bs halt left ∧
        (halt = .waiting → ending = .silent ∧ left = []) := by
  by_cases hlength : bs.length < 4
  · exact .inr ⟨_, _, stops_of_lt ending hlength, fun h => ⟨eq_silent_of_haltAt h, rfl⟩⟩
  obtain ⟨head, tail, rfl, hhead⟩ : ∃ head tail, bs = head ++ tail ∧ head.length = 4 :=
    ⟨bs.take 4, bs.drop 4, (List.take_append_drop _ _).symm, by rw [List.length_take]; omega⟩
  by_cases hlong : maxPlistLength < Bytes.toNatBE head
  · exact .inr ⟨_, _, stops_of_long ending hhead hlong, (Halt.failed_ne_waiting _).elim⟩
  have hshort := Nat.le_of_not_lt hlong
  by_cases hcut : tail.length < Bytes.toNatBE head
  · exact .inr ⟨_, _, stops_of_cut ending hhead hshort hcut, fun h => ⟨eq_silent_of_haltAt h, rfl⟩⟩
  obtain ⟨body, rest, rfl, hbody⟩ :
      ∃ body rest, tail = body ++ rest ∧ body.length = Bytes.toNatBE head :=
    ⟨tail.take (Bytes.toNatBE head), tail.drop (Bytes.toNatBE head),
      (List.take_append_drop _ _).symm, by rw [List.length_take]; omega⟩
  cases hmeans : Plist.dictionaryOfBytes? body with
  | none =>
    exact .inr ⟨_, _, stops_of_garbled ending hhead hshort hbody hmeans,
      (Halt.failed_ne_waiting _).elim⟩
  | some content =>
    refine .inl ⟨⟨body, content, hmeans, hbody.trans_le hshort⟩, rest, ?_⟩
    have hbytes := Bytes.ofNatBE_toNatBE head
    rw [hhead, ← hbody] at hbytes
    rw [Message.toBytes, hbytes, List.append_assoc]

/-- All that a device sends: messages, and bytes behind them with which receiving fails or waits. -/
structure Delivery (ending : Ending) where
  messages : List Message
  rest : Bytes
  halt : Halt DeviceError
  /-- What is unread when receiving has halted. -/
  left : Bytes
  stops : Stops ending rest halt left

/-- The bytes of a delivery. -/
def Delivery.toBytes {ending : Ending} (d : Delivery ending) : Bytes :=
  Message.bytesOf d.messages ++ d.rest

/-- Any bytes are a delivery. -/
theorem exists_delivery (ending : Ending) (bs : Bytes) :
    ∃ d : Delivery ending, d.toBytes = bs := by
  induction hn : bs.length using Nat.strongRecOn generalizing bs with
  | ind n ih =>
    obtain ⟨m, rest, rfl⟩ | ⟨halt, left, hstops, -⟩ := message_or_stops ending bs
    · have hshorter : rest.length < n := by
        have := m.four_le_length_toBytes
        rw [List.length_append] at hn
        omega
      obtain ⟨d, rfl⟩ := ih _ hshorter rest rfl
      exact ⟨{ d with messages := m :: d.messages }, by
        simp only [Delivery.toBytes, Message.bytesOf_cons, List.append_assoc]⟩
    · exact ⟨⟨[], bs, halt, left, hstops⟩, rfl⟩

end Tether.Connection
