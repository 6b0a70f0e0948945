import Tether.Proofs.Net.Checksum
import Tether.Proofs.Tunnel.Passing
import Tether.Proofs.Tunnel.Sending
import Tether.Proofs.Tunnel.Setup

/-!
# The sizes of packets

The device says how long the packets of its tunnel may be. A stack that is made for the tunnel fills
the packets of a stream up to that size, but takes 64 bytes of the stream for each packet even if
that makes it longer. No packet is longer than that, whatever it carries.

* `length_packetOf`: how long the packet with a segment is;
* `exists_written`: what went into a tunnel, and how long it can be;
* `packets_sized`: the sizes that a handshake leads to.
-/

namespace Tether.Tunnel

open Net Call

/-- What went into the tunnel of a packet is the start of one of the host's. -/
theorem Passage.of_mem_taken {a : Passage} {bs : Bytes} (h : bs ∈ a.taken) :
    a.isHanded = true ∧ bs <+: a.packet := by
  cases a with
  | cut packet => cases h
  | sent packet =>
    rw [taken, List.mem_singleton] at h
    exact ⟨rfl, h ▸ List.prefix_rfl⟩
  | refused packet n =>
    rw [taken] at h
    split at h
    · cases h
    · rw [List.mem_singleton.1 h]
      exact ⟨rfl, List.take_prefix n packet⟩

namespace Stack

variable {s : Stack} {x : Segment} {packet : Bytes}

/-! ## One packet -/

theorem length_of_toBytes {source destination : IpAddress} {bs : Bytes}
    (h : x.toBytes source destination = .ok bs) :
    bs.length = Segment.headerLength + x.payload.length := by
  rw [Segment.toBytes] at h
  split at h
  · obtain rfl := Except.ok.inj h
    exact Segment.length_assemble _ _
  · cases h

/-- The headers of a segment that is put into a packet stand before its payload. -/
theorem length_of_wrap {source destination : IpAddress} {protocol : UInt8} {bs : Bytes}
    (h : wrap source destination protocol bs = .ok packet) :
    packet.length + Segment.headerLength = headersLength source + bs.length := by
  rcases source with source | source <;> rcases destination with destination | destination
  · obtain ⟨-, rfl⟩ := Ipv4Packet.create_eq_ok_iff.1 h
    rw [List.length_append, Ipv4Packet.length_header, headersLength]
    omega
  · cases h
  · cases h
  · simp only [wrap, Ipv6Packet.create] at h
    split at h
    · obtain rfl := Except.ok.inj h
      simp [headersLength, Ipv6Packet.headerLength]
      omega
    · cases h

/-- A packet is as long as its headers and what its segment carries. -/
theorem length_packetOf (h : s.packetOf x = .ok packet) :
    packet.length = headersLength s.host + x.payload.length := by
  obtain ⟨bs, hbytes, hwrap⟩ := wrap_of_packetOf h
  have hpacket := length_of_wrap hwrap
  rw [length_of_toBytes hbytes] at hpacket
  omega

/-! ## The packets of the host -/

/-- Whether the host has made a segment, which went into the tunnel or did not. The journal before
that is `j`. -/
def Makes (s : Stack) (x : Segment) (j : Journal) : Prop :=
  .sent x :: j <:+ s.journal ∨ .lost x :: j <:+ s.journal

theorem exists_makes (h : .sent x ∈ s.journal ∨ .lost x ∈ s.journal) : ∃ j, s.Makes x j := by
  rcases h with h | h
  · obtain ⟨es, j, hj⟩ := List.append_of_mem h
    exact ⟨j, .inl ⟨es, hj.symm⟩⟩
  · obtain ⟨es, j, hj⟩ := List.append_of_mem h
    exact ⟨j, .inr ⟨es, hj.symm⟩⟩

/-- Each segment is one that its connection may send. -/
theorem Kept.exists_sends (h : s.Kept) {j : Journal} (hx : s.Makes x j) :
    ∃ a, (Ledger.ofJournal j).at? x.source = some a ∧ a.Sends s.segmentSize x := by
  rcases hx with hx | hx
  · exact (h.valid.of_suffix hx).1
  · exact (h.valid.of_suffix hx).1

/-- No segment carries more than fits. -/
theorem Kept.length_payload_le (h : s.Kept) {j : Journal} (hx : s.Makes x j) :
    x.payload.length ≤ s.segmentSize := by
  by_cases hpayload : x.payload = []
  · rw [hpayload]
    exact Nat.zero_le _
  · obtain ⟨a, -, hsends⟩ := h.exists_sends hx
    rw [hsends.payload_eq hpayload]
    exact List.length_take_le _ _

/-- What went into the tunnel are packets of segments, or the starts of such packets. -/
theorem exists_written (e : Ends) (acts : List Act) :
    ∃ new, (play acts (ofEnds e)).transport.written = e.transport.written ++ new ∧
      ∀ bs ∈ new, ∃ x packet, (play acts (ofEnds e)).packetOf x = .ok packet ∧ bs <+: packet ∧
        packet.length ≤ headersLength e.host + (play acts (ofEnds e)).segmentSize := by
  obtain ⟨ps, hpasses, -⟩ := exists_passes acts (ofEnds e)
  have hshows := hpasses.shows
  refine ⟨ps.flatMap Passage.taken, hshows.written, fun bs hbs => ?_⟩
  obtain ⟨a, ha, hbs⟩ := List.mem_flatMap.1 hbs
  obtain ⟨hhanded, hstart⟩ := Passage.of_mem_taken hbs
  obtain ⟨x, hx, hevent⟩ := hshows.handed a ha hhanded
  obtain ⟨j, hmakes⟩ := exists_makes hevent
  refine ⟨x, a.packet, hx, hstart, ?_⟩
  rw [length_packetOf hx, hshows.host]
  exact Nat.add_le_add_left ((kept_play e acts).length_payload_le hmakes) _

end Stack

/-! ## What the device says -/

/-- How long the packets of a host become, given what the device said: as long as packets are
received, or longer if these have no room for 64 bytes. -/
def Handshake.longest (h : Handshake) (host : IpAddress) : Nat :=
  max h.mtu (Stack.headersLength host + 64)

theorem Handshake.toNat_le_mtu (h : Handshake) : h.clientMtu.toNat ≤ h.mtu := by
  rw [mtu]
  split
  · next hmtu =>
    rw [hmtu]
    exact Nat.zero_le _
  · exact Nat.le_refl _

theorem Handshake.mtu_eq {h : Handshake} (hmtu : h.clientMtu ≠ 0) : h.mtu = h.clientMtu.toNat :=
  if_neg hmtu

namespace Stack

/-- The packets of a host that a tunnel is handed over to:

* each of them is at most as long as what the device said, or has 64 bytes of a stream at most;
* if the device named a size, each segment with bytes takes as many of the pending ones as fit, and
  a flush cuts what is queued on each link into segments of that size, the last of which may be
  shorter. -/
theorem packets_sized (h : Handshake) {c : Connection} (ho : c.isOpen) :
    (handOver h).Ends c
      (fun e _ => IpAddress.ofString? h.clientAddress = some e.host ∧ ∀ acts,
        let s := play acts (ofEnds e)
        let room := h.longest e.host - headersLength e.host
        (∃ new, s.transport.written = c.transport.written ++ new ∧
          ∀ bs ∈ new, ∃ x packet, s.packetOf x = .ok packet ∧ bs <+: packet ∧
            packet.length ≤ h.longest e.host) ∧
        (h.clientMtu ≠ 0 →
          (∀ x j, s.Makes x j → x.payload ≠ [] →
            ∃ a, (Ledger.ofJournal j).at? x.source = some a ∧ x.payload = a.pending.take room ∧
              ∀ packet, s.packetOf x = .ok packet → packet.length =
                min (h.longest e.host) (headersLength e.host + a.pending.length)) ∧
          flush.Ends s
            (fun _ t => t.journal =
              ((s.links.flatMap fun entry => entry.2.burst entry.1 room).map Event.sent).reverse ++
                s.journal ∧ ∀ port l, s.links.get? port = some l →
                  IsCut room l.queued ((l.burst port room).map Segment.payload))
            (fun _ t => ¬ t.journal.Lossless)))
      (fun halt _ => halt = .failed .badAddress ∧ (IpAddress.ofString? h.clientAddress = none ∨
        IpAddress.ofString? h.serverAddress = none)) := by
  refine (ends_handOver h ho).mono ?_ fun _ _ hhalt => hhalt
  rintro e _ ⟨htransport, hhost, hmtu⟩
  refine ⟨hhost, fun acts => ?_⟩
  have hk := kept_play e acts
  have hsize := segmentSize_play e acts
  have hs : (play acts (ofEnds e)).host = e.host := (grows_play acts (ofEnds e)).host
  obtain ⟨new, hwritten, hnew⟩ := exists_written e acts
  rw [htransport] at hwritten
  generalize play acts (ofEnds e) = s at hk hsize hs hwritten hnew ⊢
  intro s' room
  refine ⟨⟨new, hwritten, fun bs hbs => ?_⟩, fun hne => ?_⟩
  · obtain ⟨x, packet, hpacket, hstart, hle⟩ := hnew bs hbs
    have hmtu' := h.toNat_le_mtu
    refine ⟨x, packet, hpacket, hstart, ?_⟩
    rw [Handshake.longest]
    omega
  · have hroom : s.segmentSize = room := by
      rw [hsize, hmtu, ← h.mtu_eq hne]
      simp only [room, Handshake.longest]
      omega
    rw [← hroom]
    refine ⟨fun x j hmakes hpayload => ?_, (ends_flush hk).mono (fun _ t ht => ⟨ht.2.1, ?_⟩)
      fun _ _ ht => ht⟩
    · obtain ⟨a, ha, hsends⟩ := hk.exists_sends hmakes
      have htake := hsends.payload_eq hpayload
      refine ⟨a, ha, htake, fun packet hpacket => ?_⟩
      have hlength := length_packetOf hpacket
      rw [htake, List.length_take, hroom, hs] at hlength
      simp only [room, Handshake.longest] at hlength ⊢
      omega
    · intro port l _
      rw [Link.burst, Link.payload_volley]
      exact isCut_pieces hk.sized l.queued

/-- What a device says that names this size. -/
def assigned (mtu : UInt16) : Handshake where
  clientMtu := mtu
  clientAddress := "10.0.0.1"
  netmask := ""
  serverAddress := "10.0.0.2"
  type := ""
  directoryPort := 7

/-- A connection over which nothing has come. -/
def waiting : Connection :=
  { transport := Ends.sample.transport, label := "a" }

/-- So many bytes are queued on a connection. -/
def queueing (n : Nat) : List Act :=
  [.world (Ends.sample.packet acceptance) .silent none, .connect 80 [0] 7,
    .queue 49152 (List.replicate n 1)]

theorem ofString?_client : IpAddress.ofString? "10.0.0.1" = some (.v4 ⟨0x0a000001⟩) := by
  decide +kernel

theorem ofString?_server : IpAddress.ofString? "10.0.0.2" = some (.v4 ⟨0x0a000002⟩) := by
  decide +kernel

theorem packets_sized_assigned :
    waiting.isOpen ∧ (assigned 200).clientMtu ≠ 0 ∧
      (handOver (assigned 200)).Ends waiting
        (fun e _ => (∀ bs ∈ (play (queueing 300) (ofEnds e)).transport.written, bs.length ≤ 200) ∧
          flush.Ends (play (queueing 300) (ofEnds e))
            (fun _ _ => ∀ port l, (play (queueing 300) (ofEnds e)).links.get? port = some l →
              IsCut 160 l.queued ((l.burst port 160).map Segment.payload))
            (fun _ t => ¬ t.journal.Lossless))
        (fun _ _ => False) := by
  have hopen : waiting.isOpen := rfl
  have hne : (assigned 200).clientMtu ≠ 0 := by decide
  refine ⟨hopen, hne, (packets_sized (assigned 200) hopen).mono ?_ ?_⟩
  · rintro e _ ⟨hhost, hall⟩
    have hhost' : e.host = .v4 ⟨0x0a000001⟩ := Option.some.inj (hhost.symm.trans ofString?_client)
    obtain ⟨⟨new, hwritten, hnew⟩, hfull⟩ := hall (queueing 300)
    have hlongest : (assigned 200).longest e.host = 200 := by
      rw [hhost']
      decide
    have hroom : (assigned 200).longest e.host - headersLength e.host = 160 := by
      rw [hhost']
      decide
    obtain ⟨-, hflush⟩ := hfull hne
    rw [hroom] at hflush
    refine ⟨fun bs hbs => ?_, hflush.mono (fun _ _ ht => ht.2) fun _ _ ht => ht⟩
    rw [hwritten] at hbs
    obtain ⟨x, packet, -, hstart, hle⟩ := hnew bs hbs
    rw [hlongest] at hle
    exact hstart.length_le.trans hle
  · rintro _ _ ⟨-, hnone | hnone⟩
    · exact absurd (ofString?_client.symm.trans hnone) nofun
    · exact absurd (ofString?_server.symm.trans hnone) nofun

theorem ends_handOver_assigned (mtu : UInt16) :
    (handOver (assigned mtu)).Ends waiting (fun e _ => e = { Ends.sample with mtu := mtu.toNat })
      (fun _ _ => False) := by
  have hclient : IpAddress.ofString? (assigned mtu).clientAddress = _ := ofString?_client
  have hserver : IpAddress.ofString? (assigned mtu).serverAddress = _ := ofString?_server
  rw [handOver, ends_bind, hclient, ends_ofOption_some, ends_bind, hserver, ends_ofOption_some]
  exact rfl

/-- Packets may be longer than those that are received, which takes little room for a stream. If
the device leaves the size open, the longest segments are not the largest that have room. -/
theorem packets_exceed :
    (handOver (assigned 50)).Ends waiting
        (fun e _ => (assigned 50).mtu = 50 ∧
          (play (queueing 11 ++ [.flush]) (ofEnds e)).transport.written.map List.length =
            [40, 40, 51])
        (fun _ _ => False) ∧
      (handOver (assigned 0)).Ends waiting
        (fun e _ => (assigned 0).mtu = 16000 ∧
          (play (queueing 65 ++ [.flush]) (ofEnds e)).transport.written.map List.length =
            [40, 40, 104, 41])
        (fun _ _ => False) := by
  refine ⟨(ends_handOver_assigned 50).mono ?_ fun _ _ => False.elim,
    (ends_handOver_assigned 0).mono ?_ fun _ _ => False.elim⟩
  · rintro _ _ rfl
    exact ⟨rfl, by cbv⟩
  · rintro _ _ rfl
    exact ⟨rfl, by cbv⟩

end Stack

end Tether.Tunnel
