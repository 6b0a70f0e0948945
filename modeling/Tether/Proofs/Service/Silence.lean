import Tether.Proofs.Service.Marcos

/-!
# Marcos that come too late

A call for a Marco that runs out of time forgets what it has read. If a part of a Marco has come by
then, this part is gone, and the next call is out of step with the device. Where the part is the
length of the Marco, the next call takes the start of the body for a length; no document starts in
such a way that this length is allowed.

* `stops_of_part`: a part of a message is none;
* `exists_long_of_body`: the start of a body, taken for a length;
* `result_awaitMarco_left`: what a call comes to depends on what is unread;
* `getMarco_forgets`: a call that runs out of time, and the next one.
-/

namespace Tether

namespace Connection

/-- A part of a message is none. -/
theorem stops_of_part (ending : Ending) {m : Message} {p q : Bytes} (h : m.toBytes = p ++ q)
    (hq : q ≠ []) : Stops ending p (haltAt ending) [] := by
  by_cases hlength : p.length < 4
  · exact stops_of_lt ending hlength
  have hhead : (p.take 4).length = 4 := by rw [List.length_take]; omega
  -- What has arrived of it starts with its length.
  have hvalue : Bytes.toNatBE (p.take 4) = m.body.length := by
    have hfront : p.take 4 = Bytes.ofNatBE 4 m.body.length := by
      have htake := congrArg (List.take 4) h
      rw [List.take_append_of_le_length (by omega), Message.toBytes,
        List.take_left' (Bytes.length_ofNatBE _ _)] at htake
      exact htake.symm
    have hlt : m.body.length < 256 ^ 4 := lt_of_le_of_lt m.short (by decide)
    rw [hfront, Bytes.toNatBE_ofNatBE, Nat.mod_eq_of_lt hlt]
  have hcut : (p.drop 4).length < Bytes.toNatBE (p.take 4) := by
    have htotal := congrArg List.length h
    have hpos := List.length_pos_iff.2 hq
    rw [Message.toBytes, List.length_append, List.length_append, Bytes.length_ofNatBE] at htotal
    rw [hvalue, List.length_drop]
    omega
  have hstops := stops_of_cut ending hhead (hvalue.trans_le m.short) hcut
  rwa [List.take_append_drop] at hstops

theorem Message.drop_toBytes (m : Message) : m.toBytes.drop 4 = m.body := by
  rw [toBytes, List.drop_left' (Bytes.length_ofNatBE _ _)]

/-- The first four bytes of a body are a length that is too great. -/
theorem exists_long_of_body (m : Message) :
    ∃ head rest, m.body = head ++ rest ∧ head.length = 4 ∧ maxPlistLength < Bytes.toNatBE head := by
  -- A document has eight bytes at least, and the first of them is no control character.
  have hlength : 8 ≤ m.body.length := by
    by_contra hshort
    have hnone : Plist.dictionaryOfBytes? m.body = none := by
      rw [Plist.dictionaryOfBytes?, Plist.ofBytes?, Plist.Reading.ofBytes?,
        if_pos (Nat.lt_of_not_le hshort)]
      rfl
    rw [m.reads] at hnone
    contradiction
  rcases hbody : m.body with - | ⟨b₀, - | ⟨b₁, - | ⟨b₂, - | ⟨b₃, rest⟩⟩⟩⟩
  · simp [hbody] at hlength
  · simp [hbody] at hlength
  · simp [hbody] at hlength
  · simp [hbody] at hlength
  · refine ⟨[b₀, b₁, b₂, b₃], rest, rfl, rfl, ?_⟩
    have hfirst : 9 ≤ b₀.toNat := by
      by_contra hlt
      have hnone := Plist.dictionaryOfBytes?_of_lt (Nat.lt_of_not_le hlt) (b₁ :: b₂ :: b₃ :: rest)
      rw [← hbody, m.reads] at hnone
      contradiction
    simp only [Bytes.toNatBE, List.foldl_cons, List.foldl_nil, maxPlistLength]
    omega

end Connection

namespace Heartbeat

open Connection (Message Stops)

variable {c : Connection} {rest : Bytes}

/-- What a message comes to is what it means. -/
theorem result_awaitMarco_of_message {m : Message} (ho : c.isOpen)
    (h : c.transport.unread = m.toBytes ++ rest) :
    awaitMarco.result c = (meaningOf m.content).mapError .failed := by
  refine Call.Ends.of_result (P := fun r _ => r = (meaningOf m.content).mapError .failed)
    ((ends_awaitMarco ho h).mono ?_ ?_)
  · rintro i t ⟨hmeaning, -⟩
    rw [hmeaning]
    rfl
  · rintro halt t ⟨⟨e, hmeaning, rfl⟩, -⟩
    rw [hmeaning]
    rfl

theorem result_awaitMarco_of_stops {bs left : Bytes} {halt : Halt DeviceError} (ho : c.isOpen)
    (hstops : Stops c.transport.ending bs halt left) (h : c.transport.unread = bs) :
    awaitMarco.result c = .error halt := by
  refine Call.Ends.of_result (P := fun r _ => r = .error halt)
    ((ends_awaitMarco_of_stops ho hstops h).mono ?_ ?_)
  · exact fun _ _ => False.elim
  · rintro halt' t ⟨rfl, -⟩
    rfl

/-- What waiting for a Marco comes to depends on what is unread, not on how it came. -/
theorem result_awaitMarco_left (ho : c.isOpen) (bs : Bytes) (reads reads' : Nat) :
    awaitMarco.result (c.left bs reads) = awaitMarco.result (c.left bs reads') := by
  obtain ⟨m, rest, rfl⟩ | ⟨halt, left, hstops, -⟩ :=
    Connection.message_or_stops c.transport.ending bs
  · have hresult (n : Nat) : awaitMarco.result (c.left (m.toBytes ++ rest) n) =
        (meaningOf m.content).mapError .failed :=
      result_awaitMarco_of_message ho rfl
    rw [hresult, hresult]
  · have hresult (n : Nat) : awaitMarco.result (c.left bs n) = .error halt :=
      result_awaitMarco_of_stops ho hstops rfl
    rw [hresult, hresult]

/-! ### The time limit -/

theorem getMarco_eq : getMarco = Call.within .heartbeatTimeout awaitMarco := by
  funext s
  rw [getMarco, Call.within]
  rcases awaitMarco s with _ | ⟨_ | _, _⟩ <;> rfl

/-- What becomes of a call when there is no more time for it. -/
def inTime : Except (Halt DeviceError) UInt64 → Except (Halt DeviceError) UInt64
  | .error .waiting => .error (.failed .heartbeatTimeout)
  | r => r

theorem result_getMarco (c : Connection) : getMarco.result c = inTime (awaitMarco.result c) := by
  rw [getMarco_eq, Call.result, Call.within, Call.result]
  rcases awaitMarco c with _ | ⟨_ | _, _⟩ <;> rfl

/-- More bytes arrive on a connection. -/
def hear (c : Connection) (bs : Bytes) : Connection :=
  { c with transport := c.transport.deliver bs }

/-- The body of a Marco is not a message. -/
theorem result_getMarco_of_body (m : Message) (ho : c.isOpen)
    (h : c.transport.unread = m.body ++ rest) :
    getMarco.result c = .error (.failed .packetSizeMismatch) := by
  obtain ⟨head, body, hbody, hhead, hlong⟩ := Connection.exists_long_of_body m
  have hstops : Stops c.transport.ending (head ++ (body ++ rest)) (.failed .packetSizeMismatch)
      (body ++ rest) :=
    Connection.stops_of_long _ hhead hlong
  rw [result_getMarco, result_awaitMarco_of_stops ho hstops]
  · rfl
  · rw [h, hbody, List.append_assoc]

/-- There is no more time for a Marco of which only a part has come, and this part is gone. -/
theorem getMarco_of_part {m : Marco} {p q : Bytes} (ho : c.isOpen)
    (hsilent : c.transport.ending = .silent) (hsplit : m.toBytes = p ++ q) (hq : q ≠ [])
    (hp : c.transport.unread = p) :
    ∃ reads, getMarco c = .error (.failed .heartbeatTimeout) (c.left [] reads) := by
  have hstops := Connection.stops_of_part c.transport.ending hsplit hq
  have hends := ends_awaitMarco_of_stops ho hstops hp
  rw [hsilent, Call.Ends] at hends
  rw [getMarco]
  rcases hc : awaitMarco c with ⟨i, t⟩ | ⟨halt, t⟩
  · rw [hc] at hends
    exact hends.elim
  · rw [hc] at hends
    obtain ⟨rfl, reads, rfl⟩ := hends
    exact ⟨reads, rfl⟩

/-- A Marco that comes in two parts, the second one behind the time limit: the call fails, and the
part that has come is gone. The next call has only the second part and what comes behind it, as
though the first one had never come. If all of it comes behind the time limit, it is received. If
only its length comes before, the next call takes the start of the body for a length and fails. -/
theorem getMarco_forgets {m : Marco} {p q : Bytes} (ho : c.isOpen)
    (hsilent : c.transport.ending = .silent) (hsplit : m.toBytes = p ++ q) (hq : q ≠ [])
    (hp : c.transport.unread = p) :
    ∃ t, getMarco c = .error (.failed .heartbeatTimeout) t ∧ t.transport.unread = [] ∧
      ∀ s, getMarco.result (hear t (q ++ s)) =
          getMarco.result (c.left (q ++ s) c.transport.reads) ∧
        (p = [] → getMarco.result (hear t (q ++ s)) = .ok m.interval) ∧
        (p.length = 4 →
          getMarco.result (hear t (q ++ s)) = .error (.failed .packetSizeMismatch)) := by
  obtain ⟨reads, hfirst⟩ := getMarco_of_part ho hsilent hsplit hq hp
  refine ⟨_, hfirst, rfl, fun s => ⟨?_, ?_, ?_⟩⟩
  · rw [result_getMarco, result_getMarco]
    exact congrArg inTime (result_awaitMarco_left ho _ _ _)
  · -- Nothing of it had come, so nothing is lost.
    rintro rfl
    have hwhole : (hear (c.left [] reads) (q ++ s)).transport.unread = m.toBytes ++ s := by
      rw [hsplit]
      rfl
    rw [result_getMarco,
      result_awaitMarco_of_message (c := hear (c.left [] reads) (q ++ s)) ho hwhole, m.meaning]
    rfl
  · -- What comes later is the body alone.
    intro hlength
    have hbody : q = m.body := by
      rw [← m.drop_toBytes, hsplit, List.drop_left' hlength]
    have hrest : (hear (c.left [] reads) (q ++ s)).transport.unread = m.body ++ s := by
      rw [hbody]
      rfl
    exact result_getMarco_of_body (c := hear (c.left [] reads) (q ++ s)) m.toMessage ho hrest

/-- A connection on which this much has arrived, and then nothing for some time. -/
def quiet (bs : Bytes) : Connection where
  transport := { unread := bs, ending := .silent }
  label := "host"

/-- A Marco of which nothing comes in time is received later. -/
theorem getMarco_receives_late :
    ∃ t, getMarco (quiet []) = .error (.failed .heartbeatTimeout) t ∧
      getMarco.result (hear t (marco 9).toBytes) = .ok 9 := by
  have hne : (marco 9).toBytes ≠ [] := by decide +kernel
  have hsplit := (List.nil_append (marco 9).toBytes).symm
  obtain ⟨t, hfirst, -, hnext⟩ := getMarco_forgets (c := quiet []) rfl rfl hsplit hne rfl
  have hsecond := (hnext []).2.1 rfl
  rw [List.append_nil] at hsecond
  exact ⟨t, hfirst, hsecond⟩

/-- A Marco of which only the length comes in time is not received later. -/
theorem getMarco_loses_length :
    (marco 9).toBytes = (marco 9).toBytes.take 4 ++ (marco 9).toBytes.drop 4 ∧
      ∃ t, getMarco (quiet ((marco 9).toBytes.take 4)) = .error (.failed .heartbeatTimeout) t ∧
        getMarco.result (hear t ((marco 9).toBytes.drop 4)) =
          .error (.failed .packetSizeMismatch) := by
  have hsplit := (List.take_append_drop 4 (marco 9).toBytes).symm
  have hne : (marco 9).toBytes.drop 4 ≠ [] := by decide +kernel
  obtain ⟨reads, hfirst⟩ :=
    getMarco_of_part (c := quiet ((marco 9).toBytes.take 4)) rfl rfl hsplit hne rfl
  have hrest : (marco 9).toBytes.drop 4 = (marco 9).body ++ [] := by
    rw [List.append_nil]
    exact (marco 9).drop_toBytes
  exact ⟨hsplit, _, hfirst, result_getMarco_of_body (marco 9).toMessage rfl hrest⟩

end Heartbeat

end Tether
