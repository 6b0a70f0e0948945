import Tether.Proofs.Net.Packet
import Tether.Proofs.Tunnel.Receiving

/-!
# A stream of packets

A tunnel is a stream of bytes, and a read may end anywhere in a packet or behind several. What
is not a whole packet waits for the next read, so a stack hears the same packets in the same
order whatever its reads return, and its table ends up the same (`Table.hearAll`).

* `Stack.Arrives`: a stream of packets of which a part has been read;
* `Stack.ends_handlePackets`: the whole packets that are here are heard, and the part behind them
  stays;
* `Stack.ends_process_of_arrives`: one read and the packets that it completes.
-/

namespace Tether

namespace Transport

/-- A write that nothing refuses changes only what was written. -/
theorem ends_writeAll_of_allowance {t : Transport} (h : t.allowance = none) (bs : Bytes) :
    (writeAll bs).Ends t (fun _ u => ∃ written, u = { t with written }) (fun _ _ => False) := by
  rw [Call.Ends, writeAll]
  by_cases hempty : bs.isEmpty
  · rw [if_pos hempty]
    exact ⟨t.written, rfl⟩
  · rw [if_neg hempty, h]
    exact ⟨t.written ++ [bs], by simp⟩

/-- What a read of the tunnel leaves. -/
def step (t : Transport) : Transport :=
  { t with unread := t.unread.drop (t.readBound Tunnel.Stack.readSize), reads := t.reads + 1 }

theorem length_unread_step_lt {t : Transport} (h : t.unread ≠ []) :
    t.step.unread.length < t.unread.length := by
  have hread := t.readBound_pos (by decide : 0 < Tunnel.Stack.readSize)
  have hpos := List.length_pos_of_ne_nil h
  rw [step, List.length_drop]
  omega

end Transport

namespace Tunnel

open Net Call

/-! ## What a table hears -/

/-- A table after a segment. -/
def Table.hearSegment (t : Table) (x : Segment) : Table :=
  match t.get? x.destination with
  | none => t
  | some l => if l.peerPort = x.source then t.update x.destination (l.accept x).1 else t

/-- A table after a packet between two addresses. -/
def Table.hear (host device : IpAddress) (t : Table) (p : IpPacket) : Table :=
  if p.protocol = protocolTcp ∧ p.source = device ∧ p.destination = host then
    match (Segment.ofBytes p.payload).toOption with
    | none => t
    | some x => t.hearSegment x
  else t

/-- A table after some packets. -/
def Table.hearAll (host device : IpAddress) (t : Table) (ps : Packets) : Table :=
  ps.foldl (fun t x => t.hear host device x.2) t

theorem Table.get?_hearSegment {t : Table} {port : UInt16} {l : Link} (h : t.get? port = some l)
    (x : Segment) :
    (t.hearSegment x).get? port = some l ∨
      (t.hearSegment x).get? port = some (l.accept x).1 := by
  rw [hearSegment]
  split
  · exact .inl h
  · next k hk =>
    split
    · rw [get?_update]
      by_cases hport : port = x.destination
      · rw [← hport] at hk
        obtain rfl : l = k := Option.some.inj (h.symm.trans hk)
        exact .inr (by simp [← hport, h])
      · exact .inl (by simpa [hport] using h)
    · exact .inl h

/-- What segments preserve, packets preserve. -/
theorem Table.get?_hearAll {t : Table} {port : UInt16} {l : Link} {P : Link → Prop}
    (hP : ∀ l x, P l → P (l.accept x).1) (h : t.get? port = some l) (hl : P l)
    (host device : IpAddress) (ps : Packets) :
    ∃ k, (t.hearAll host device ps).get? port = some k ∧ P k := by
  induction ps generalizing t l with
  | nil => exact ⟨l, h, hl⟩
  | cons x ps ih =>
    rw [hearAll, List.foldl_cons]
    obtain ⟨k, hk, hPk⟩ : ∃ k, (t.hear host device x.2).get? port = some k ∧ P k := by
      rw [hear]
      split
      · split
        · exact ⟨l, h, hl⟩
        · rcases get?_hearSegment h _ with h' | h'
          · exact ⟨l, h', hl⟩
          · exact ⟨_, h', hP l _ hl⟩
      · exact ⟨l, h, hl⟩
    exact ih hk hPk

/-- A connection that is not there does not come about by packets. -/
theorem Table.get?_hearAll_none {t : Table} {port : UInt16} (h : t.get? port = none)
    (host device : IpAddress) (ps : Packets) : (t.hearAll host device ps).get? port = none := by
  induction ps generalizing t with
  | nil => exact h
  | cons x ps ih =>
    rw [hearAll, List.foldl_cons]
    refine ih ?_
    rw [hear]
    split
    · split
      · exact h
      · next y _ =>
        rw [hearSegment]
        split
        · exact h
        · split
          · rw [get?_update]
            split
            · next hport => simp [← hport, h]
            · exact h
          · exact h
    · exact h

namespace Stack

variable {s t : Stack} {port : UInt16} {ps : Packets}

/-- Each acknowledgement goes into the tunnel. -/
structure Writable (s : Stack) : Prop where
  allowance : s.transport.allowance = none
  families : ∃ bs, wrap s.host s.device protocolTcp [] = .ok bs

/-- Nothing has changed but connections and what was written. -/
structure Steady (s t : Stack) : Prop where
  host : t.host = s.host
  device : t.device = s.device
  incoming : t.incoming = s.incoming
  transport : ∃ written, t.transport = { s.transport with written }

theorem Steady.refl (s : Stack) : Steady s s :=
  ⟨rfl, rfl, rfl, _, rfl⟩

theorem Steady.trans {r : Stack} (h : Steady r s) (h' : Steady s t) : Steady r t := by
  refine ⟨h'.host.trans h.host, h'.device.trans h.device, h'.incoming.trans h.incoming, ?_⟩
  obtain ⟨_, hs⟩ := h.transport
  obtain ⟨written, ht⟩ := h'.transport
  exact ⟨written, by rw [ht, hs]⟩

theorem Steady.unread (h : Steady s t) : t.transport.unread = s.transport.unread := by
  obtain ⟨_, ht⟩ := h.transport
  rw [ht]

theorem Steady.ending (h : Steady s t) : t.transport.ending = s.transport.ending := by
  obtain ⟨_, ht⟩ := h.transport
  rw [ht]

theorem Steady.writable (h : Steady s t) (hs : s.Writable) : t.Writable := by
  obtain ⟨_, ht⟩ := h.transport
  exact ⟨by rw [ht]; exact hs.allowance, by rw [h.host, h.device]; exact hs.families⟩

/-- A segment without bytes fits into a packet. -/
theorem Writable.exists_packet (h : s.Writable) {x : Segment} (hx : x.payload = []) :
    ∃ packet, s.packetOf x = .ok packet := by
  obtain ⟨bs, hbs⟩ := h.families
  have hlength (sum : Nat) : (x.assemble sum).length = 20 := by simp [Segment.assemble, hx]
  rw [packetOf]
  generalize s.host = host at hbs ⊢
  generalize s.device = device at hbs ⊢
  cases host <;> cases device
  · exact ⟨_, by simp [Segment.toBytes, Segment.pseudoHeader?, bind, Except.bind, wrap,
      Ipv4Packet.create, Ipv4Packet.headerLength, hlength]; rfl⟩
  · cases hbs
  · cases hbs
  · exact ⟨_, by simp [Segment.toBytes, Segment.pseudoHeader?, bind, Except.bind, wrap,
      Ipv6Packet.create, hlength]; rfl⟩

/-- So it goes into the tunnel. -/
theorem ends_transmit_of_writable (h : s.Writable) {l : Link} (hl : s.links.get? port = some l)
    (control : Control) :
    (transmit port control []).Ends s
      (fun _ t => t.links = s.links ∧ Steady s t) (fun _ _ => False) := by
  obtain ⟨packet, hpacket⟩ := h.exists_packet (x := l.segment port control []) rfl
  rw [transmit, ends_bind]
  refine (ends_linkAt hl).mono ?_ fun _ _ h => h
  rintro _ _ ⟨rfl, rfl⟩
  rw [ends_bind, ends_attempt, put, ends_bind, ends_get, hpacket, ends_bind, ends_ofExcept_ok,
    ends_bind, note, ends_modify, onTransport, ends_zoom]
  refine (Transport.ends_writeAll_of_allowance h.allowance packet).mono ?_
    fun _ _ h => h.elim
  rintro _ _ ⟨written, rfl⟩
  exact ⟨rfl, rfl, rfl, rfl, written, rfl⟩

/-- A segment is heard by its connection, and nothing else happens to the table. -/
theorem ends_accept (h : s.Writable) (x : Segment) :
    (accept x).Ends s
      (fun _ t => t.links = s.links.hearSegment x ∧ Steady s t) (fun _ _ => False) := by
  rw [accept, ends_bind, ends_get, Table.hearSegment]
  cases hl : s.links.get? x.destination with
  | none => exact ⟨rfl, .refl s⟩
  | some l =>
    dsimp only
    split
    · have hl' : (s.links.update x.destination (l.accept x).1).get? x.destination =
          some (l.accept x).1 := Table.get?_update_self hl
      rw [ends_bind, record, ends_modify, ends_bind, setLink, ends_modify]
      split
      · have hs : Steady s { s with
            journal := .arrived x :: s.journal
            links := s.links.update x.destination (l.accept x).1 } :=
          ⟨rfl, rfl, rfl, _, rfl⟩
        refine (ends_transmit_of_writable (hs.writable h) hl' _).mono ?_ fun _ _ h => h
        rintro _ t ⟨hlinks, ht⟩
        exact ⟨hlinks, hs.trans ht⟩
      · exact ⟨rfl, rfl, rfl, rfl, _, rfl⟩
    · exact ⟨rfl, .refl s⟩

/-- So is a packet. -/
theorem ends_acceptPacket (h : s.Writable) (p : IpPacket) :
    (acceptPacket p).Ends s
      (fun _ t => t.links = s.links.hear s.host s.device p ∧ Steady s t) (fun _ _ => False) := by
  rw [acceptPacket, ends_bind, ends_get, segmentOf?, Table.hear]
  by_cases hp : p.protocol = protocolTcp ∧ p.source = s.device ∧ p.destination = s.host
  · simp only [if_pos hp]
    cases (Segment.ofBytes p.payload).toOption with
    | none => exact ⟨rfl, .refl s⟩
    | some x => exact ends_accept h x
  · simp only [if_neg hp]
    exact ⟨rfl, .refl s⟩

/-! ## Reads -/

/-- A stream of packets arrives: what has been read of it and is still here is a part of the
first packet, and the rest lies unread. -/
structure Arrives (s : Stack) (ps : Packets) : Prop where
  writable : s.Writable
  sound : Packets.Sound ps
  bytes : s.incoming ++ s.transport.unread = Packets.bytes ps
  incomplete : cutPacket s.incoming = .incomplete

/-- Processing what is here handles the whole packets and leaves the part behind them. -/
theorem ends_handlePackets {whole : Packets} {part : Bytes} {fuel : Nat} (h : s.Writable)
    (hsound : Packets.Sound whole) (hincoming : s.incoming = Packets.bytes whole ++ part)
    (hpart : cutPacket part = .incomplete) (hfuel : whole.length < fuel) :
    (handlePackets fuel).Ends s
      (fun _ t => t.links = s.links.hearAll s.host s.device whole ∧
        Steady { s with incoming := part } t) (fun _ _ => False) := by
  induction whole generalizing s fuel with
  | nil =>
    obtain rfl : s.incoming = part := by simpa [Packets.bytes] using hincoming
    obtain ⟨fuel, rfl⟩ : ∃ n, fuel = n + 1 := ⟨fuel - 1, by omega⟩
    rw [handlePackets, ends_bind, ends_get]
    simp only [hpart]
    exact ⟨rfl, .refl s⟩
  | cons x whole ih =>
    rw [List.length_cons] at hfuel
    obtain ⟨fuel, rfl⟩ : ∃ n, fuel = n + 1 := ⟨fuel - 1, by omega⟩
    have hbytes : s.incoming = x.1 ++ (Packets.bytes whole ++ part) := by
      simp [hincoming, Packets.bytes]
    have hx : cutPacket s.incoming = .packet x.2 x.1.length := by
      rw [hbytes]
      exact (hsound x List.mem_cons_self).cut _
    have hdrop : s.incoming.drop x.1.length = Packets.bytes whole ++ part := by
      rw [hbytes, List.drop_left]
    rw [handlePackets, ends_bind, ends_get]
    simp only [hx, hdrop]
    rw [ends_bind, ends_modify, ends_bind, note, ends_modify, ends_bind]
    let r : Stack := { s with
      incoming := Packets.bytes whole ++ part
      capture := s.capture.map (· ++ [⟨s.clock, s.incoming.take x.1.length⟩]) }
    have hr : r.Writable := ⟨h.allowance, h.families⟩
    refine Ends.mono (s := r) (ends_acceptPacket hr x.2) ?_ fun _ _ h => h
    rintro _ t ⟨hlinks, ht⟩
    refine (ih (ht.writable hr) (fun y hy => hsound y (by simp [hy]))
      ht.incoming (by omega)).mono ?_ fun _ _ h => h
    rintro _ u ⟨hlinks', hu⟩
    have hrt : Steady { r with incoming := part } { t with incoming := part } :=
      ⟨ht.host, ht.device, rfl, ht.transport⟩
    have hru := hrt.trans hu
    refine ⟨?_, hru.host, hru.device, hru.incoming, hru.transport⟩
    rw [hlinks', hlinks, ht.host, ht.device]
    rfl

/-- How a read ends when nothing is left. -/
def halt : Ending → Halt TunnelError
  | .closed => .failed ⟨.unexpectedEof, "tunnel closed"⟩
  | .silent => .waiting
  | .broken fault => .failed (.bare fault)

/-- From `s` to `t` these packets were heard. -/
structure Hears (whole : Packets) (s t : Stack) : Prop where
  links : t.links = s.links.hearAll s.host s.device whole
  host : t.host = s.host
  device : t.device = s.device
  ending : t.transport.ending = s.transport.ending

theorem Hears.refl (s : Stack) : Hears [] s s :=
  ⟨rfl, rfl, rfl, rfl⟩

theorem Hears.trans {u : Stack} {qs : Packets} (h : Hears ps s t) (h' : Hears qs t u) :
    Hears (ps ++ qs) s u := by
  refine ⟨?_, h'.host.trans h.host, h'.device.trans h.device, h'.ending.trans h.ending⟩
  rw [h'.links, h.links, h.host, h.device, Table.hearAll, Table.hearAll, Table.hearAll,
    List.foldl_append]

theorem Steady.hears (h : Steady s t) (hlinks : t.links = s.links) : Hears [] s t :=
  ⟨hlinks, h.host, h.device, h.ending⟩

theorem Steady.arrives (h : Steady s t) (hs : s.Arrives ps) : t.Arrives ps :=
  ⟨h.writable hs.writable, hs.sound, by rw [h.incoming, h.unread]; exact hs.bytes,
    h.incoming ▸ hs.incomplete⟩

theorem Arrives.eq_nil (h : s.Arrives ps) (hunread : s.transport.unread = []) : ps = [] := by
  cases ps with
  | nil => rfl
  | cons x ps =>
    have hbytes := h.bytes
    rw [hunread, List.append_nil, Packets.bytes, List.flatMap_cons] at hbytes
    have hcut := h.incomplete
    rw [hbytes, (h.sound x List.mem_cons_self).cut] at hcut
    cases hcut

/-- From `s` to `t` a stream of packets goes on: some were heard, and the `later` ones are still to
arrive. -/
structure Advances (ps later : Packets) (s t : Stack) : Prop where
  heard : ∃ whole, ps = whole ++ later ∧ Hears whole s t
  arrives : t.Arrives later

theorem Advances.refl (h : s.Arrives ps) : Advances ps ps s s :=
  ⟨⟨[], rfl, .refl s⟩, h⟩

theorem Advances.trans {u : Stack} {qs later : Packets} (h : Advances ps qs s t)
    (h' : Advances qs later t u) : Advances ps later s u := by
  obtain ⟨⟨whole, rfl, hst⟩, -⟩ := h
  obtain ⟨⟨whole', rfl, htu⟩, hu⟩ := h'
  exact ⟨⟨whole ++ whole', (List.append_assoc _ _ _).symm, hst.trans htu⟩, hu⟩

theorem Steady.advances (h : Steady s t) (hlinks : t.links = s.links) (hs : s.Arrives ps) :
    Advances ps ps s t :=
  ⟨⟨[], rfl, h.hears hlinks⟩, h.arrives hs⟩

theorem Advances.ending {later : Packets} (h : Advances ps later s t) :
    t.transport.ending = s.transport.ending := by
  obtain ⟨⟨_, -, hst⟩, -⟩ := h
  exact hst.ending

/-- What segments preserve is so after some more packets. -/
theorem Advances.link {P : Link → Prop} {l : Link} {later : Packets} (h : Advances ps later s t)
    (hP : ∀ l x, P l → P (l.accept x).1) (hl : s.links.get? port = some l) (hPl : P l) :
    ∃ k, t.links.get? port = some k ∧ P k := by
  obtain ⟨⟨whole, -, hst⟩, -⟩ := h
  rw [hst.links]
  exact Table.get?_hearAll hP hl hPl _ _ _

/-- The packets that are still to arrive make the same of the table. -/
theorem Advances.hearAll {later : Packets} (h : Advances ps later s t) :
    t.links.hearAll t.host t.device later = s.links.hearAll s.host s.device ps := by
  obtain ⟨⟨whole, rfl, hst⟩, -⟩ := h
  rw [hst.links, hst.host, hst.device, Table.hearAll, Table.hearAll, Table.hearAll,
    List.foldl_append]

/-- A read takes some bytes, if there are any. -/
theorem ends_fill (s : Stack) :
    fill.Ends s
      (fun _ t => s.transport.unread ≠ [] ∧ t = { s with
        incoming := s.incoming ++ s.transport.unread.take (s.transport.readBound readSize)
        transport := s.transport.step })
      (fun h t => s.transport.unread = [] ∧ t = s ∧ h = halt s.transport.ending) := by
  rw [fill, ends_bind, onTransport, ends_zoom, Call.Ends, Transport.read,
    if_neg (by decide : ¬ readSize = 0)]
  by_cases hunread : s.transport.unread = []
  · rw [if_pos (by simp [hunread])]
    cases he : s.transport.ending with
    | closed => exact ⟨hunread, rfl, rfl⟩
    | silent => exact ⟨hunread, rfl, rfl⟩
    | broken fault => exact ⟨hunread, rfl, rfl⟩
  · rw [if_neg (by simpa using hunread)]
    have hpos := s.transport.readBound_pos (by decide : 0 < readSize)
    have hsome : ¬ (s.transport.unread.take (s.transport.readBound readSize)).isEmpty := by
      simp [hunread]
      omega
    simp only [if_neg hsome]
    exact ⟨hunread, rfl⟩

/-- One read completes some packets, and these are heard. -/
theorem ends_process_of_arrives (h : s.Arrives ps) :
    process.Ends s
      (fun _ t => ∃ later, Advances ps later s t ∧ s.transport.unread ≠ [] ∧
        ∃ written, t.transport = { s.transport.step with written })
      (fun e t => ps = [] ∧ t = s ∧ e = halt s.transport.ending) := by
  rw [process, ends_bind]
  refine (ends_fill s).mono ?_ ?_
  · rintro _ t ⟨hunread, ht⟩
    have hwritable : t.Writable := by
      rw [ht]
      exact ⟨h.writable.allowance, h.writable.families⟩
    have hbytes : t.incoming ++ t.transport.unread = Packets.bytes ps := by
      simp only [ht, Transport.step]
      rw [List.append_assoc, List.take_append_drop, h.bytes]
    obtain ⟨whole, later, part, rfl, harrived, hpart, hcut⟩ :=
      Packets.split_of_prefix h.sound ⟨_, hbytes⟩
    have hwhole : Packets.Sound whole := fun x hx => h.sound x (by simp [hx])
    have hfuel := Packets.mul_length_le hwhole
    rw [handleBuffered, ends_bind, ends_get]
    refine (ends_handlePackets hwritable hwhole harrived hcut ?_).mono ?_ fun _ _ h => h.elim
    · rw [harrived, List.length_append]
      simp only [Ipv4Packet.headerLength] at hfuel ⊢
      omega
    · rintro _ u ⟨hlinks, hu⟩
      have hrest : part ++ t.transport.unread = Packets.bytes later := by
        rw [harrived, List.append_assoc, Packets.bytes_append] at hbytes
        exact List.append_cancel_left hbytes
      have hlater : Arrives { t with incoming := part } later :=
        ⟨⟨hwritable.allowance, hwritable.families⟩, fun x hx => h.sound x (by simp [hx]), hrest,
          hcut⟩
      have hheard : Hears whole s u := by
        refine ⟨?_, ?_, ?_, ?_⟩
        · rw [hlinks, ht]
        · rw [hu.host, ht]
        · rw [hu.device, ht]
        · rw [hu.ending, ht]
          rfl
      obtain ⟨written, htransport⟩ := hu.transport
      exact ⟨later, ⟨⟨whole, rfl, hheard⟩, hu.arrives hlater⟩, hunread, written,
        by rw [htransport, ht]⟩
  · rintro e t ⟨hunread, rfl, rfl⟩
    exact ⟨h.eq_nil hunread, rfl, rfl⟩

theorem length_unread_lt_of_read (hunread : s.transport.unread ≠ [])
    (hread : ∃ written, t.transport = { s.transport.step with written }) :
    t.transport.unread.length < s.transport.unread.length := by
  obtain ⟨written, hread⟩ := hread
  rw [hread]
  exact Transport.length_unread_step_lt hunread

end Stack

end Tunnel

end Tether
