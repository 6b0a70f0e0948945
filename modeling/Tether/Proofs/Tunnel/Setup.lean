import Tether.Proofs.Connection
import Tether.Proofs.Tunnel.Arriving
import Tether.Proofs.Tunnel.Play

/-!
# The first message of a tunnel

There are two readers of a message: `parse` has all bytes before it, and the host of a tunnel reads a
header and then a body from its connection. They see the same body, however the bytes arrive, and
refuse the same headers. They differ where a message is not complete, of which `parse` can say so,
while the host goes on reading and meets the end of the connection.

The host reads nothing behind the message. What the device sends there comes next, for the owner of
the tunnel and for the stack that it is handed over to alike.

* `parse_eq_ok_iff`: what is parsed was serialized;
* `ends_receiveBody`: what the host sees, against what is parsed;
* `exists_receiveTimes`, `fills`: the bytes behind a message;
* `negotiate_agrees`: both together.
-/

namespace Tether.Tunnel

open Call

variable {bs body packet rest : Bytes} {n : Nat} {e : DeviceError} {c : Connection}

/-! ## Messages -/

theorem serialize_eq_error_iff :
    serialize body = .error e ↔ 65535 < body.length ∧ e = .invalidArgument := by
  rw [serialize]
  split
  · next hshort =>
    simp only [reduceCtorEq, false_iff]
    omega
  · next hlong =>
    simp only [Except.error.injEq, eq_comm (a := DeviceError.invalidArgument), iff_and_self]
    omega

/-- A message of a body that is not too long. -/
theorem serialize_eq_ok_iff : serialize body = .ok packet ↔
    body.length < 2 ^ 16 ∧ packet = magic ++ Bytes.ofNatBE 2 body.length ++ body := by
  rw [serialize]
  split
  · next h => simp [h, eq_comm]
  · next h => simp [h]

theorem length_of_serialize (h : serialize body = .ok packet) :
    packet.length = headerLength + body.length := by
  have hmagic : magic.length = 8 := rfl
  rw [(serialize_eq_ok_iff.1 h).2, List.length_append, List.length_append, hmagic,
    Bytes.length_ofNatBE, headerLength]

/-- Nothing behind a header matters to it. -/
theorem bodyLength_take (h : headerLength ≤ bs.length) :
    bodyLength (bs.take headerLength) = bodyLength bs := by
  have hlength : (bs.take headerLength).length = headerLength := by
    rw [List.length_take, Nat.min_eq_left h]
  have hmagic : (bs.take headerLength).take 8 = bs.take 8 := by
    rw [List.take_take]
    rfl
  have hfield : ((bs.take headerLength).drop 8).take 2 = (bs.drop 8).take 2 := by
    rw [List.drop_take, List.take_take]
    rfl
  rw [bodyLength, hlength, hmagic, hfield, if_neg (Nat.lt_irrefl _), bodyLength,
    if_neg (Nat.not_lt.2 h)]

theorem bodyLength_eq_ok_iff : bodyLength bs = .ok n ↔
    headerLength ≤ bs.length ∧ bs.take 8 = magic ∧ Bytes.toNatBE ((bs.drop 8).take 2) = n := by
  rw [bodyLength]
  split
  · simp only [reduceCtorEq, false_iff]
    omega
  · split
    · next hmagic => simp [hmagic]
    · next hlength hmagic =>
      rw [not_not] at hmagic
      simp [hmagic, Nat.not_lt.1 hlength]

theorem parse_of_error (h : bodyLength bs = .error e) : parse bs = .error e := by
  rw [parse, h]
  rfl

theorem parse_of_ok (h : bodyLength bs = .ok n) :
    parse bs = if bs.length < headerLength + n then .error .packetSizeMismatch
      else .ok ((bs.drop headerLength).take n) := by
  have hheader := (bodyLength_eq_ok_iff.1 h).1
  have hshort : ((bs.drop headerLength).take n).length < n ↔ bs.length < headerLength + n := by
    rw [List.length_take, List.length_drop]
    omega
  rw [parse, h]
  change (if ((bs.drop headerLength).take n).length < n then _ else _) = _
  simp only [hshort]
  rfl

/-- Just what was serialized is parsed, whatever stands behind it. -/
theorem parse_eq_ok_iff : parse bs = .ok body ↔
    ∃ packet rest, serialize body = .ok packet ∧ bs = packet ++ rest := by
  constructor
  · intro h
    cases hbody : bodyLength bs with
    | error e =>
      rw [parse_of_error hbody] at h
      cases h
    | ok n =>
      rw [parse_of_ok hbody] at h
      obtain ⟨hheader, hmagic, hfield⟩ := bodyLength_eq_ok_iff.1 hbody
      split at h
      · cases h
      · next hlong =>
        obtain rfl := Except.ok.inj h
        have hlength : ((bs.drop headerLength).take n).length = n := by
          rw [List.length_take, List.length_drop]
          omega
        have htwo : ((bs.drop 8).take 2).length = 2 := by
          rw [List.length_take, List.length_drop]
          rw [headerLength] at hheader
          omega
        have hsmall : n < 2 ^ 16 := by
          have hlt := Bytes.toNatLE_lt ((bs.drop 8).take 2).reverse
          rwa [← Bytes.toNatBE_reverse, List.reverse_reverse, hfield, List.length_reverse,
            htwo] at hlt
        have hfield' : Bytes.ofNatBE 2 n = (bs.drop 8).take 2 := by
          have hbytes := Bytes.ofNatBE_toNatBE ((bs.drop 8).take 2)
          rwa [htwo, hfield] at hbytes
        refine ⟨_, (bs.drop headerLength).drop n, serialize_eq_ok_iff.2 ⟨by rwa [hlength], rfl⟩, ?_⟩
        rw [hlength, ← hmagic, hfield', List.append_assoc, List.take_append_drop, ← List.take_add]
        exact (List.take_append_drop headerLength bs).symm
  · rintro ⟨packet, rest, hpacket, rfl⟩
    obtain ⟨hshort, rfl⟩ := serialize_eq_ok_iff.1 hpacket
    have hmagic : magic.length = 8 := rfl
    have hvalue : Bytes.toNatBE (Bytes.ofNatBE 2 body.length) = body.length := by
      rw [Bytes.toNatBE_ofNatBE, Nat.mod_eq_of_lt hshort]
    have hhead : (magic ++ Bytes.ofNatBE 2 body.length).length = headerLength := by
      simp [hmagic, headerLength]
    have hbody : bodyLength (magic ++ Bytes.ofNatBE 2 body.length ++ body ++ rest) =
        .ok body.length := by
      rw [bodyLength_eq_ok_iff]
      refine ⟨?_, ?_, ?_⟩
      · rw [List.append_assoc, List.length_append, hhead]
        exact Nat.le_add_right _ _
      · simp only [List.append_assoc]
        exact List.take_left' hmagic
      · simp only [List.append_assoc]
        rw [List.drop_left' hmagic, List.take_left' (Bytes.length_ofNatBE _ _), hvalue]
    rw [parse_of_ok hbody, if_neg, List.append_assoc, List.drop_left' hhead, List.take_left]
    simp only [List.length_append, hmagic, Bytes.length_ofNatBE, headerLength]
    omega

/-- The bytes end before the message is complete. -/
def IsPart (bs : Bytes) : Prop :=
  parse bs = .error .tunnelPacketTooShort ∨ parse bs = .error .packetSizeMismatch

/-! ## Negotiating -/

/-- Reads the body of a message. -/
def receiveBody : Call DeviceError Connection Bytes := do
  let length ← Call.ofExcept (bodyLength (← Connection.readRaw headerLength))
  Connection.readRaw length

/-- The host sees what is parsed from all that the device sends, or refuses the header that is
refused there. Of a message that is complete nothing but its bytes is read. Where a message is not
complete, no body is seen, and the connection comes to its end. -/
theorem ends_receiveBody (ho : c.isOpen) :
    receiveBody.Ends c
      (fun body d => ∃ packet rest reads, serialize body = .ok packet ∧
        c.transport.unread = packet ++ rest ∧ d = c.left rest reads)
      (fun halt _ => parse c.transport.unread = .error .tunnelPacketInvalidMagic ∧
          halt = .failed .tunnelPacketInvalidMagic ∨
        IsPart c.transport.unread ∧ halt = Connection.haltAt c.transport.ending) := by
  rw [receiveBody, ends_bind]
  by_cases hheader : headerLength ≤ c.transport.unread.length
  · obtain ⟨reads, hr⟩ := Connection.readRaw_of_le ho hheader
    rw [Call.Ends, hr]
    dsimp only
    rw [bodyLength_take hheader]
    cases hbody : bodyLength c.transport.unread with
    | error e =>
      have he : e = .tunnelPacketInvalidMagic := by
        rw [bodyLength, if_neg (Nat.not_lt.2 hheader)] at hbody
        split at hbody
        · exact (Except.error.inj hbody).symm
        · cases hbody
      subst he
      exact .inl ⟨parse_of_error hbody, rfl⟩
    | ok n =>
      refine ends_bind.2 (ends_ofExcept_ok.2 ?_)
      by_cases hlong : headerLength + n ≤ c.transport.unread.length
      · have hparse := parse_of_ok hbody
        rw [if_neg (Nat.not_lt.2 hlong)] at hparse
        obtain ⟨packet, rest, hpacket, hunread⟩ := parse_eq_ok_iff.1 hparse
        have hlength : packet.length = headerLength + n := by
          rw [length_of_serialize hpacket, List.length_take, List.length_drop]
          omega
        have hrest : (c.transport.unread.drop headerLength).drop n = rest := by
          rw [List.drop_drop, hunread, List.drop_left' hlength]
        obtain ⟨reads', hr'⟩ := Connection.readRaw_of_le
          (c := c.left (c.transport.unread.drop headerLength) reads) (n := n) ho
          (by rw [Connection.unread_left, List.length_drop]; omega)
        rw [Connection.unread_left, Connection.left_left, hrest] at hr'
        rw [Call.Ends, hr']
        exact ⟨packet, rest, reads', hpacket, hunread, rfl⟩
      · refine (Connection.ends_readRaw_of_lt
          (c := c.left (c.transport.unread.drop headerLength) reads) ho ?_).mono
          (fun _ _ => False.elim) ?_
        · rw [Connection.unread_left, List.length_drop]
          omega
        · rintro _ _ ⟨rfl, -⟩
          refine .inr ⟨.inr ?_, rfl⟩
          rw [parse_of_ok hbody, if_pos (by omega)]
  · refine (Connection.ends_readRaw_of_lt ho (Nat.lt_of_not_le hheader)).mono
      (fun _ _ => False.elim) ?_
    rintro _ _ ⟨rfl, -⟩
    refine .inr ⟨.inl (parse_of_error ?_), rfl⟩
    rw [bodyLength, if_pos (Nat.lt_of_not_le hheader)]

/-- The handshake in a body. -/
def Handshake.ofBytes? (body : Bytes) : Option Handshake :=
  (Json.ofBytes? body).bind Handshake.ofJson?

/-- The host's request. -/
def request : Bytes :=
  magic ++ Bytes.ofNatBE 2 requestBody.length ++ requestBody

theorem serialize_requestBody : serialize requestBody = .ok request :=
  serialize_eq_ok_iff.2 ⟨by decide +kernel, rfl⟩

theorem negotiate_eq : negotiate = (do
    Connection.sendRaw request
    let body ← receiveBody
    Call.ofOption .badJson ( Handshake.ofBytes? body)) := by
  rw [negotiate, serialize_requestBody]
  simp only [receiveBody, bind_assoc]
  rfl

/-! ## What comes next -/

theorem Handshake.mtu_pos (h : Handshake) : 0 < h.mtu := by
  rw [mtu]
  split
  · decide
  · next hmtu =>
    rw [Nat.pos_iff_ne_zero]
    exact fun hzero => hmtu (UInt16.toNat_inj.1 hzero)

/-- What has arrived is received from the first byte on, in a piece of at most the packet size. -/
theorem ends_receive (h : Handshake) (ho : c.isOpen) (hunread : c.transport.unread ≠ []) :
    (receive h).Ends c
      (fun bs d => bs ≠ [] ∧ bs.length ≤ h.mtu ∧
        ∃ rest reads, c.transport.unread = bs ++ rest ∧ d = c.left rest reads)
      (fun _ _ => False) := by
  have hpos := c.transport.readBound_pos h.mtu_pos
  rw [receive, Connection.readAny, Call.Ends, Connection.onTransport_open _ ho, ← Call.Ends,
    ends_zoom, Call.Ends, Transport.read, if_neg h.mtu_pos.ne', if_neg (by simpa using hunread)]
  refine ⟨?_, ?_, _, _, (List.take_append_drop _ _).symm, rfl⟩
  · simpa [hunread] using hpos.ne'
  · exact (List.length_take_le _ _).trans (c.transport.readBound_le _)

/-- So many receipts, one after the other. -/
def receiveTimes (h : Handshake) : Nat → Call DeviceError Connection (List Bytes)
  | 0 => pure []
  | n + 1 => do
    let bs ← receive h
    return bs :: (← receiveTimes h n)

/-- Receiving gives all that has arrived. -/
theorem exists_receiveTimes (h : Handshake) (ho : c.isOpen) :
    ∃ n, (receiveTimes h n).Ends c
      (fun bss _ => bss.flatten = c.transport.unread ∧ ∀ bs ∈ bss, bs ≠ [] ∧ bs.length ≤ h.mtu)
      (fun _ _ => False) := by
  induction hlength : c.transport.unread.length using Nat.strong_induction_on generalizing c with
  | h length ih =>
    by_cases hunread : c.transport.unread = []
    · exact ⟨0, by simp [hunread], List.forall_mem_nil _⟩
    · have hfirst := ends_receive h ho hunread
      rw [Call.Ends] at hfirst
      rcases hreceive : receive h c with ⟨bs, d⟩ | ⟨halt, d⟩
      · rw [hreceive] at hfirst
        obtain ⟨hbs, hshort, rest, reads, hsplit, rfl⟩ := hfirst
        have hless : rest.length < length := by
          have := List.length_pos_of_ne_nil hbs
          rw [← hlength, hsplit, List.length_append]
          omega
        obtain ⟨n, hn⟩ := ih _ hless (c := c.left rest reads) ho rfl
        refine ⟨n + 1, ?_⟩
        rw [receiveTimes, ends_bind, Call.Ends, hreceive]
        refine ends_bind.2 (hn.mono ?_ fun _ _ => False.elim)
        rintro bss _ ⟨hflatten, hall⟩
        rw [Connection.unread_left] at hflatten
        exact ⟨by rw [List.flatten_cons, hflatten, hsplit],
          List.forall_mem_cons.2 ⟨⟨hbs, hshort⟩, hall⟩⟩
      · rw [hreceive] at hfirst
        exact hfirst.elim

namespace Stack

/-- Reading from the tunnel loses nothing, and takes a byte at least where there is one. -/
theorem fills (n : Nat) (s : Stack) :
    (play (List.replicate n Act.fill) s).incoming ++
          (play (List.replicate n Act.fill) s).transport.unread =
        s.incoming ++ s.transport.unread ∧
      (play (List.replicate n Act.fill) s).transport.unread.length ≤
        s.transport.unread.length - n := by
  induction n generalizing s with
  | zero => exact ⟨rfl, Nat.le_refl _⟩
  | succ n ih =>
    have hstep : fill.Ends s
        (fun _ t => t.incoming ++ t.transport.unread = s.incoming ++ s.transport.unread ∧
          t.transport.unread.length ≤ s.transport.unread.length - 1)
        (fun _ t => t.incoming ++ t.transport.unread = s.incoming ++ s.transport.unread ∧
          t.transport.unread.length ≤ s.transport.unread.length - 1) := by
      refine (ends_fill s).mono ?_ ?_
      · rintro _ _ ⟨hunread, rfl⟩
        have hless := Transport.length_unread_step_lt hunread
        refine ⟨?_, by dsimp only; omega⟩
        rw [Transport.step, List.append_assoc, List.take_append_drop]
      · rintro _ _ ⟨hunread, rfl, -⟩
        exact ⟨rfl, by rw [hunread]; rfl⟩
    obtain ⟨hsame, hless⟩ := hstep.state
    obtain ⟨hsame', hless'⟩ := ih (fill.state s)
    rw [List.replicate_succ, play, List.foldl_cons]
    exact ⟨hsame'.trans hsame, hless'.trans (by omega)⟩

end Stack

/-- An open tunnel is handed over as it is, with the address and the packet size that the device
assigns, unless an address that it assigns is none. -/
theorem ends_handOver (h : Handshake) (ho : c.isOpen) :
    (handOver h).Ends c
      (fun e _ => e.transport = c.transport ∧
        Net.IpAddress.ofString? h.clientAddress = some e.host ∧ e.mtu = h.clientMtu.toNat)
      (fun halt _ => halt = .failed .badAddress ∧ (Net.IpAddress.ofString? h.clientAddress = none ∨
        Net.IpAddress.ofString? h.serverAddress = none)) := by
  rw [handOver, ends_bind]
  cases hclient : Net.IpAddress.ofString? h.clientAddress with
  | none => exact ⟨rfl, .inl rfl⟩
  | some host =>
    rw [ends_ofOption_some, ends_bind]
    cases hserver : Net.IpAddress.ofString? h.serverAddress with
    | none => exact ⟨rfl, .inr rfl⟩
    | some device =>
      rw [ends_ofOption_some, ends_bind, Connection.takeTransport, ends_bind, ends_get, if_pos ho,
        ends_bind]
      exact ⟨rfl, rfl, rfl⟩

/-- These bytes come next, from the first one: the owner of the tunnel receives them in pieces of at
most the packet size, and the stack that the tunnel is handed over to reads them. -/
structure ComesNext (h : Handshake) (c : Connection) (rest : Bytes) : Prop where
  isOpen : c.isOpen
  unread : c.transport.unread = rest
  received : ∃ n, (receiveTimes h n).Ends c
    (fun bss _ => bss.flatten = rest ∧ ∀ bs ∈ bss, bs ≠ [] ∧ bs.length ≤ h.mtu) (fun _ _ => False)
  handedOver : (handOver h).Ends c
    (fun e _ => ∀ n, rest.length ≤ n →
      (Stack.play (List.replicate n Stack.Act.fill) (Stack.ofEnds e)).incoming = rest)
    (fun halt _ => halt = .failed .badAddress)

theorem comesNext_unread (h : Handshake) (ho : c.isOpen) : ComesNext h c c.transport.unread where
  isOpen := ho
  unread := rfl
  received := exists_receiveTimes h ho
  handedOver := by
    refine (ends_handOver h ho).mono ?_ fun _ _ hhalt => hhalt.1
    rintro e _ ⟨he, -⟩ n hn
    obtain ⟨hsame, hless⟩ := Stack.fills n (Stack.ofEnds e)
    have htransport : (Stack.ofEnds e).transport = c.transport := he
    rw [htransport, Nat.sub_eq_zero_of_le hn] at hless
    rw [List.eq_nil_of_length_eq_zero (Nat.le_zero.1 hless), List.append_nil, htransport] at hsame
    exact hsame

/-! ## Both readers -/

/-- What negotiating comes to, against what is parsed from all that the device sends. -/
theorem ends_negotiate (ho : c.isOpen) :
    negotiate.Ends c
      (fun h d => ∃ packet body rest, c.transport.unread = packet ++ rest ∧
        serialize body = .ok packet ∧ Handshake.ofBytes? body = some h ∧ ComesNext h d rest)
      (fun halt _ =>
        (∃ fault t, halt = .failed (.socket fault) ∧
          Transport.CutOff request fault c.transport t) ∨
        (∃ body, parse c.transport.unread = .ok body ∧ Handshake.ofBytes? body = none ∧
          halt = .failed .badJson) ∨
        parse c.transport.unread = .error .tunnelPacketInvalidMagic ∧
          halt = .failed .tunnelPacketInvalidMagic ∨
        IsPart c.transport.unread ∧ halt = Connection.haltAt c.transport.ending) := by
  rw [negotiate_eq, ends_bind]
  refine (Connection.ends_sendRaw request ho).mono ?_ ?_
  · rintro _ _ ⟨t, ht, rfl⟩
    -- Nothing has been read so far.
    have hsame : t.unread = c.transport.unread ∧ t.ending = c.transport.ending := by
      obtain ⟨written, allowance, rfl⟩ := ht.writes
      exact ⟨rfl, rfl⟩
    have hbody := ends_receiveBody (c := { c with transport := t }) ho
    rw [hsame.1, hsame.2] at hbody
    refine ends_bind.2 (hbody.mono ?_ ?_)
    · rintro body _ ⟨packet, rest, reads, hpacket, hunread, rfl⟩
      cases hread : Handshake.ofBytes? body with
      | none =>
        exact .inr (.inl ⟨body, parse_eq_ok_iff.2 ⟨packet, rest, hpacket, hunread⟩, hread, rfl⟩)
      | some h => exact ⟨packet, body, rest, hunread, hpacket, hread, comesNext_unread h ho⟩
    · rintro halt _ (hmagic | hpart)
      · exact .inr (.inr (.inl hmagic))
      · exact .inr (.inr (.inr hpart))
  · rintro _ _ ⟨fault, t, rfl, ht, -⟩
    exact .inl ⟨fault, t, rfl, ht⟩

/-- A body is serialized unless it is longer than 65535 bytes, and is parsed again, whatever stands
behind it. For all bytes that a device sends, negotiating sees the body that is parsed from them, or
refuses the header that is refused there, and what stands behind the message comes next. Where the
bytes end before the message is complete, negotiating comes to the end of the connection. -/
theorem negotiate_agrees :
    (∀ body, (∃ e, serialize body = .error e) ↔ 65535 < body.length) ∧
    (∀ body packet, serialize body = .ok packet → ∀ rest, parse (packet ++ rest) = .ok body) ∧
    ∀ c : Connection, c.isOpen → negotiate.Ends c
      (fun h d => ∃ packet body rest, c.transport.unread = packet ++ rest ∧
        serialize body = .ok packet ∧ parse c.transport.unread = .ok body ∧
        Handshake.ofBytes? body = some h ∧ ComesNext h d rest)
      (fun halt _ =>
        (∃ fault t, halt = .failed (.socket fault) ∧
          Transport.CutOff request fault c.transport t) ∨
        (∃ body, parse c.transport.unread = .ok body ∧ Handshake.ofBytes? body = none ∧
          halt = .failed .badJson) ∨
        parse c.transport.unread = .error .tunnelPacketInvalidMagic ∧
          halt = .failed .tunnelPacketInvalidMagic ∨
        (parse c.transport.unread = .error .tunnelPacketTooShort ∨
            parse c.transport.unread = .error .packetSizeMismatch) ∧
          halt = Connection.haltAt c.transport.ending) := by
  refine ⟨fun body => ?_, fun body packet h rest => parse_eq_ok_iff.2 ⟨packet, rest, h, rfl⟩,
    fun c ho => (ends_negotiate ho).mono ?_ fun _ _ h => h⟩
  · simp only [serialize_eq_error_iff, exists_and_left, exists_eq, and_true]
  · rintro h _ ⟨packet, body, rest, hunread, hpacket, hread, hnext⟩
    exact ⟨packet, body, rest, hunread, hpacket,
      parse_eq_ok_iff.2 ⟨packet, rest, hpacket, hunread⟩, hread, hnext⟩

/-- The answer of a device. -/
def answerBody : Bytes :=
  Bytes.ofString ("\x7b\"clientParameters\":\x7b\"mtu\":1280,\"address\":\"fd00::2\",\"netmask\":\"\"\x7d," ++
    "\"serverAddress\":\"fd00::1\",\"type\":\"\",\"serverRSDPort\":7\x7d")

/-- A connection over which a device has sent these bytes, and closed it. They come three at a
time. -/
def offering (bs : Bytes) : Connection :=
  { transport := { unread := bs, ending := .closed, pace := fun _ => some 3 }, label := "a" }

/-- The message of the device. -/
def answer : Bytes :=
  magic ++ Bytes.ofNatBE 2 answerBody.length ++ answerBody

theorem negotiate_agrees_answered :
    parse (answer ++ [96, 1]) = .ok answerBody ∧
      negotiate.Ends (offering (answer ++ [96, 1]))
        (fun h d => h.clientMtu = 1280 ∧ ComesNext h d [96, 1]) (fun _ _ => False) := by
  have hanswer : serialize answerBody = .ok answer :=
    serialize_eq_ok_iff.2 ⟨by decide +kernel, rfl⟩
  have hread : Handshake.ofBytes? answerBody = some ⟨1280, "fd00::2", "", "fd00::1", "", 7⟩ := by
    decide +kernel
  have hallowance : (offering (answer ++ [96, 1])).transport.allowance = none := rfl
  have hunread : (offering (answer ++ [96, 1])).transport.unread = answer ++ [96, 1] := rfl
  have hopen : (offering (answer ++ [96, 1])).isOpen := rfl
  generalize offering (answer ++ [96, 1]) = c at hallowance hunread hopen ⊢
  obtain ⟨-, hparse, hnegotiate⟩ := negotiate_agrees
  have hparsed := hparse answerBody answer hanswer [96, 1]
  refine ⟨hparsed, (hnegotiate c hopen).mono ?_ ?_⟩
  · rintro h d ⟨packet, body, rest, hsplit, hpacket, hbody, hh, hnext⟩
    rw [hunread, hparsed] at hbody
    obtain rfl := Except.ok.inj hbody
    obtain rfl := Except.ok.inj (hanswer.symm.trans hpacket)
    rw [hunread, List.append_cancel_left_eq] at hsplit
    rw [hread] at hh
    obtain rfl := Option.some.inj hh
    exact ⟨rfl, hsplit ▸ hnext⟩
  · rw [hunread, hparsed]
    rintro _ _ (⟨fault, t, -, hcut⟩ | ⟨body, hbody, hnone, -⟩ | ⟨hmagic, -⟩ | ⟨hpart | hpart, -⟩)
    · obtain ⟨n, -, hroom, -⟩ := hcut.cut
      rw [hallowance] at hroom
      cases hroom
    · obtain rfl := Except.ok.inj hbody
      rw [hread] at hnone
      cases hnone
    · cases hmagic
    · cases hpart
    · cases hpart

/-- Of five bytes of a header the one reader says that they are too few, and of three bytes of a
body that it is not as long as announced. The other one finds in both cases that the connection was
closed. -/
theorem negotiate_disagrees :
    (parse (Bytes.ofString "CDTun") = .error .tunnelPacketTooShort ∧
      negotiate.Ends (offering (Bytes.ofString "CDTun")) (fun _ _ => False)
        (fun halt _ => halt = .failed (.socket .unexpectedEof))) ∧
    parse (magic ++ [0, 5, 97, 98, 99]) = .error .packetSizeMismatch ∧
      negotiate.Ends (offering (magic ++ [0, 5, 97, 98, 99])) (fun _ _ => False)
        (fun halt _ => halt = .failed (.socket .unexpectedEof)) := by
  have hends (bs : Bytes) (e : DeviceError) (hparse : parse bs = .error e)
      (hpart : e = .tunnelPacketTooShort ∨ e = .packetSizeMismatch) :
      negotiate.Ends (offering bs) (fun _ _ => False)
        (fun halt _ => halt = .failed (.socket .unexpectedEof)) := by
    have hallowance : (offering bs).transport.allowance = none := rfl
    have hunread : (offering bs).transport.unread = bs := rfl
    have hending : (offering bs).transport.ending = .closed := rfl
    have hopen : (offering bs).isOpen := rfl
    generalize offering bs = c at hallowance hunread hending hopen ⊢
    refine (ends_negotiate hopen).mono ?_ ?_
    · rintro h d ⟨packet, body, rest, hsplit, hpacket, -, -⟩
      have hok := parse_eq_ok_iff.2 ⟨packet, rest, hpacket, hunread.symm.trans hsplit⟩
      rw [hparse] at hok
      cases hok
    · rw [hunread, hparse, hending]
      rintro _ _ (⟨fault, t, -, hcut⟩ | ⟨body, hbody, -, -⟩ | ⟨hmagic, -⟩ | ⟨-, hhalt⟩)
      · obtain ⟨n, -, hroom, -⟩ := hcut.cut
        rw [hallowance] at hroom
        cases hroom
      · cases hbody
      · obtain rfl := Except.error.inj hmagic
        obtain hpart | hpart := hpart <;> cases hpart
      · exact hhalt
  have hfirst : parse (Bytes.ofString "CDTun") = .error .tunnelPacketTooShort := by decide
  have hsecond : parse (magic ++ [0, 5, 97, 98, 99]) = .error .packetSizeMismatch := by decide
  exact ⟨⟨hfirst, hends _ _ hfirst (.inl rfl)⟩, hsecond, hends _ _ hsecond (.inr rfl)⟩

end Tether.Tunnel
