import Tether.Proofs.Net.Checksum
import Tether.Proofs.Tunnel.Cuts
import Tether.Proofs.Tunnel.Embedding
import Tether.Proofs.Tunnel.Lifecycle

/-!
# Drawing a port

A stack draws the host port of a new connection at random, and draws again as long as the port is
in use. While some port is free this ends with the first free one that comes. But there are only
16384 ports to draw, and a host may have a connection at each of them. Then every draw is in vain:
who asks for one more connection is told nothing, neither a port nor an error, and whoever shares
the stack waits as well.

* `Stack.Searches`: along which sequences of draws the search ends, and when there are others;
* `Session.searches_run`: so every stack searches;
* `Stack.ports_play_admissions`: connections can be had at any ports that can be drawn;
* `Session.lasts_filling`: also at all of them.
-/

namespace Tether.Tunnel

open Net Call

/-! ## Draws -/

namespace Draw

theorem toNat_port (d : Draw) : d.port.toNat = 49152 + d.val := by
  have hd := d.isLt
  simp only [port, UInt16.toNat_add, UInt16.toNat_ofNat']
  have hbase : (49152 : UInt16).toNat = 49152 := rfl
  omega

theorem port_injective : Function.Injective port := by
  intro d d' h
  have hnat : d.port.toNat = d'.port.toNat := congrArg UInt16.toNat h
  rw [toNat_port, toNat_port] at hnat
  exact Fin.ext (Nat.add_left_cancel hnat)

/-- What can be drawn are the ports from 49152 on. -/
theorem exists_port_eq {p : UInt16} (h : 49152 ≤ p.toNat) : ∃ d : Draw, d.port = p := by
  have hp : p.toNat < 65536 := p.toNat_lt
  refine ⟨⟨p.toNat - 49152, by omega⟩, UInt16.toNat_inj.1 ?_⟩
  rw [toNat_port]
  exact Nat.add_sub_cancel' h

/-- The first ones of an endless sequence of draws. -/
def firsts (draws : Nat → Draw) (n : Nat) : List Draw :=
  (List.range n).map draws

theorem forall_mem_firsts {draws : Nat → Draw} {P : Draw → Prop} (h : ∀ m, P (draws m)) (n : Nat) :
    ∀ d ∈ firsts draws n, P d := by
  intro d hd
  obtain ⟨m, -, rfl⟩ := List.mem_map.1 hd
  exact h m

/-- Every port is drawn sooner or later if all are drawn in turn. -/
theorem surjective_ofNat : Function.Surjective (fun n => Fin.ofNat 16384 n) :=
  fun d => ⟨d.val, Fin.ext (Nat.mod_eq_of_lt d.isLt)⟩

end Draw

variable {t : Table} {draws : Nat → Draw} {k m n : Nat}

/-- The draw of this number is the first one whose port is free. -/
structure Table.FirstFree (t : Table) (draws : Nat → Draw) (k : Nat) : Prop where
  isFree : t.get? (draws k).port = none
  before : ∀ i < k, t.get? (draws i).port ≠ none

theorem Table.exists_firstFree (h : t.get? (draws m).port = none) :
    ∃ k ≤ m, t.FirstFree draws k := by
  have hex : ∃ k, t.get? (draws k).port = none := ⟨m, h⟩
  exact ⟨Nat.find hex, Nat.find_min' hex h, Nat.find_spec hex, fun i hi => Nat.find_min hex hi⟩

/-- The search ends with the first free port, whatever is drawn later. -/
theorem Table.FirstFree.freePort?_eq (h : t.FirstFree draws k) (hn : k < n) :
    freePort? t (Draw.firsts draws n) = some (draws k).port := by
  have hfind : (List.range n).find? (fun i => (t.get? (draws i).port).isNone) = some k := by
    refine List.find?_range_eq_some.2 ⟨by simp [h.isFree], List.mem_range.2 hn, fun i hi => ?_⟩
    simpa [Option.isSome_iff_ne_none] using h.before i hi
  rw [freePort?, Draw.firsts, List.map_map, List.find?_map]
  exact congrArg (Option.map _) hfind

theorem freePort?_eq_none {l : List Draw} (h : ∀ d ∈ l, t.get? d.port ≠ none) :
    freePort? t l = none := by
  rw [freePort?, List.find?_eq_none]
  intro p hp
  obtain ⟨d, hd, rfl⟩ := List.mem_map.1 hp
  simpa using h d hd

namespace Stack

variable {s : Stack} {port peerPort : UInt16} {l : List Draw} {first : UInt32}

/-! ## Asking for a connection -/

/-- Without a free port the search does not end, and the stack is as before. -/
theorem connect_of_in_use (h : ∀ d ∈ l, s.links.get? d.port ≠ none) (peerPort : UInt16)
    (first : UInt32) : connect peerPort l first s = .error .waiting s := by
  have hnone : freePort? s.links l = none := freePort?_eq_none h
  refine Ends.eq_error ?_
  rw [connect, ends_bind, ends_get, hnone]
  exact ⟨rfl, rfl⟩

/-- With one it ends, and what is asked of the device ends too: with a connection at this port, or
with an error and without one. -/
theorem ends_connect_of_free (h : freePort? s.links l = some port) (peerPort : UInt16)
    (first : UInt32) :
    (connect peerPort l first).Ends s
      (fun p t => p = port ∧ t.statusAt? port = some .connected)
      (fun h t => h ≠ .waiting ∧ t.links.get? port = none) := by
  have hport : (connect peerPort l first).Ends s (fun p _ => p = port)
      (fun h _ => h ≠ .waiting) := by
    rw [connect, ends_bind, ends_get, h]
    dsimp only
    rw [record, ends_bind, ends_modify, ends_bind, ends_modify, ends_bind, ends_attempt]
    refine (prompt_greet port _).mono (fun _ _ _ => rfl) fun h t hh => ?_
    cases h with
    | waiting => exact absurd rfl hh
    | failed e => exact Halt.failed_ne_waiting e
  refine (hport.and (ends_connect_entry peerPort l first s)).mono ?_ ?_
  · rintro p t ⟨rfl, -, -, ⟨k, hk, -, hstatus⟩, -⟩
    exact ⟨rfl, by rw [statusAt?, hk, Option.map_some, hstatus]⟩
  · rintro h' t ⟨hne, hages⟩
    have hat := hages port
    rw [(get?_freePort? h).1] at hat
    exact ⟨hne, hat⟩

/-! ## Room in the table -/

/-- The ports that can be drawn. -/
def drawable : Finset UInt16 :=
  Finset.univ.image Draw.port

theorem card_drawable : drawable.card = 16384 := by
  rw [drawable, Finset.card_image_of_injective _ Draw.port_injective, Finset.card_univ,
    Fintype.card_fin]

theorem mem_drawable_iff : port ∈ drawable ↔ 49152 ≤ port.toNat := by
  rw [drawable, Finset.mem_image]
  constructor
  · rintro ⟨d, -, rfl⟩
    exact le_toNat_port d
  · intro h
    obtain ⟨d, hd⟩ := Draw.exists_port_eq h
    exact ⟨d, Finset.mem_univ d, hd⟩

/-- A table with entries at high ports only has a free one unless it has an entry for each. -/
theorem exists_free_iff (hnodup : s.links.ports.Nodup) (hhigh : s.High) :
    (∃ p : UInt16, 49152 ≤ p.toNat ∧ s.links.get? p = none) ↔ s.links.length < 16384 := by
  have hused (p : UInt16) : p ∈ s.links.ports.toFinset ↔ s.links.get? p ≠ none :=
    List.mem_toFinset.trans Table.mem_ports_iff
  have hcard : s.links.ports.toFinset.card = s.links.length :=
    (List.toFinset_card_of_nodup hnodup).trans (List.length_map _)
  have hsub : s.links.ports.toFinset ⊆ drawable := by
    intro p hp
    obtain ⟨l, hl⟩ := Option.ne_none_iff_exists'.1 ((hused p).1 hp)
    exact mem_drawable_iff.2 (hhigh p l hl)
  rw [← hcard, ← card_drawable]
  constructor
  · rintro ⟨p, hp, hfree⟩
    have hnot : p ∉ s.links.ports.toFinset := fun hmem => (hused p).1 hmem hfree
    exact Finset.card_lt_card
      ((Finset.ssubset_iff_of_subset hsub).2 ⟨p, mem_drawable_iff.2 hp, hnot⟩)
  · intro hless
    obtain ⟨p, hp, hnot⟩ := Finset.exists_mem_notMem_of_card_lt_card hless
    refine ⟨p, mem_drawable_iff.1 hp, ?_⟩
    by_contra hmem
    exact hnot ((hused p).2 hmem)

end Stack

namespace Switchboard

variable {b : Switchboard} {l : List Draw} {later : List (Nat × Request)}

/-- Whoever serves a request for a connection without a free port never comes to an end with it. -/
theorem serveNext_of_in_use {ticket : Nat} {peerPort : UInt16} {first : UInt32}
    (hrequests : b.requests = (ticket, .connect peerPort l first) :: later)
    (h : ∀ d ∈ l, b.stack.links.get? d.port ≠ none) :
    serveNext b = .error .waiting { b with requests := later } := by
  refine Ends.eq_error ?_
  rw [serveNext, ends_bind, ends_get, hrequests]
  dsimp only
  rw [ends_bind, ends_modify, serve, ends_bind, ends_attempt, onStack, ends_zoom, Call.Ends,
    Stack.connect_of_in_use h]
  exact ⟨rfl, rfl⟩

end Switchboard

namespace Stack

variable {s : Stack} {d : Draw} {e : Tunnel.Ends} {peerPort : UInt16} {first : UInt32}

/-! ## Every table comes about -/

/-- The segment with which the device accepts a connection. -/
def acceptanceAt (peerPort : UInt16) (d : Draw) : Segment where
  source := peerPort
  destination := d.port
  sequence := 0
  acknowledgement := 1
  control := { syn := true, ack := true }
  window := Link.window
  payload := []

/-- A connection is asked for, and the device accepts it. -/
def admission (e : Tunnel.Ends) (peerPort : UInt16) (d : Draw) : List Act :=
  [.world (e.packet (acceptanceAt peerPort d)) .silent none, .connect peerPort [d] 0]

/-- A stack at the ends of a tunnel, with nothing left of a packet. -/
structure Clear (e : Tunnel.Ends) (s : Stack) : Prop where
  host : s.host = e.host
  device : s.device = e.device
  incoming : s.incoming = []

/-- The stack when some bytes come out of the tunnel, and nothing after them. -/
def offered (s : Stack) (bs : Bytes) : Stack :=
  { s with transport := { s.transport with unread := bs, ending := .silent, allowance := none } }

theorem play_admission (s : Stack) (e : Tunnel.Ends) (peerPort : UInt16) (d : Draw) :
    play (admission e peerPort d) s =
      (connect peerPort [d] 0).state (s.offered (e.packet (acceptanceAt peerPort d))) :=
  state_drop _ _ _

theorem Clear.arrives {bs raw : Bytes} (h : Clear e s)
    (hpacket : IsPacket bs ⟨e.device, e.host, protocolTcp, raw⟩) :
    (s.offered bs).Arrives [(bs, ⟨e.device, e.host, protocolTcp, raw⟩)] where
  writable := by
    refine ⟨rfl, ?_⟩
    rw [offered, h.host, h.device]
    exact hpacket.exists_wrap protocolTcp
  sound := List.forall_mem_singleton.2 hpacket
  bytes := by simp [offered, h.incoming, Packets.bytes]
  incomplete := by rw [offered, h.incoming]; rfl

/-- What a host gets that hears the acceptance. -/
theorem exists_acceptanceAt (hfamily : e.host.SameFamily e.device) (peerPort : UInt16) (d : Draw) :
    ∃ raw sum, IsPacket (e.packet (acceptanceAt peerPort d)) ⟨e.device, e.host, protocolTcp, raw⟩ ∧
      Segment.ofBytes raw = .ok { acceptanceAt peerPort d with checksum := sum } := by
  have hback : e.device.SameFamily e.host := by
    cases hh : e.host <;> cases hd : e.device <;> simp_all [IpAddress.SameFamily]
  obtain ⟨sum, hraw⟩ := Segment.exists_toBytes (acceptanceAt peerPort d) hback
  have hlength : ((acceptanceAt peerPort d).assemble sum).length = 20 := by
    rw [Segment.length_assemble]
    rfl
  have hfits : Fits e.device e.host ((acceptanceAt peerPort d).assemble sum).length := by
    refine ⟨hback, ?_⟩
    rw [hlength]
    cases e.device <;> simp [IpAddress.lengthField, Ipv4Packet.headerLength]
  obtain ⟨bs, hbs⟩ : ∃ bs, wrap e.device e.host protocolTcp
      ((acceptanceAt peerPort d).assemble sum) = .ok bs := fits_iff.1 hfits
  refine ⟨_, UInt16.ofNat sum, ?_, Segment.ofBytes_assemble _ sum⟩
  have hpacket : e.packet (acceptanceAt peerPort d) = bs := by
    rw [Ends.packet, hraw]
    exact congrArg (fun r => r.toOption.getD []) hbs
  rw [hpacket]
  exact isPacket_of_wrap hbs

/-- Until the acceptance has come the connection is being made, and then it is in the table. -/
theorem Advances.admits {raw : Bytes} {sum : UInt16} {bs : Bytes} {later : Packets} {t : Stack}
    (hhost : s.host = e.host) (hdevice : s.device = e.device)
    (hraw : Segment.ofBytes raw = .ok { acceptanceAt peerPort d with checksum := sum })
    (hfree : s.links.get? d.port = none)
    (h : Advances [(bs, ⟨e.device, e.host, protocolTcp, raw⟩)] later
      (s.asking d.port peerPort first) t) :
    t.statusAt? d.port = some .connecting ∧ later ≠ [] ∨
      t.statusAt? d.port = some .connected ∧ later = [] ∧
        t.links.ports = s.links.ports ++ [d.port] := by
  have hlink := get?_asking hfree peerPort first
  obtain ⟨⟨whole, hwhole, hheard⟩, -⟩ := h
  rcases List.append_eq_singleton_iff.1 hwhole.symm with ⟨rfl, rfl⟩ | ⟨rfl, rfl⟩
  · left
    rw [statusAt?, hheard.links]
    exact ⟨congrArg (Option.map Link.status) hlink, List.cons_ne_nil _ _⟩
  · right
    let l : Link := { peerPort, sequence := first }
    let x : Segment := { acceptanceAt peerPort d with checksum := sum }
    have hlinks : t.links = (s.asking d.port peerPort first).links.update d.port (l.accept x).1 := by
      have hhear : (s.asking d.port peerPort first).links.hearSegment x =
          (s.asking d.port peerPort first).links.update d.port (l.accept x).1 := by
        have hx : (s.asking d.port peerPort first).links.get? x.destination = some l := hlink
        rw [Table.hearSegment, hx]
        exact if_pos rfl
      have hends : (s.asking d.port peerPort first).host = e.host ∧
          (s.asking d.port peerPort first).device = e.device := ⟨hhost, hdevice⟩
      rw [hheard.links, hends.1, hends.2, Table.hearAll, List.foldl_cons, List.foldl_nil, Table.hear,
        if_pos ⟨rfl, rfl, rfl⟩, hraw]
      exact hhear
    refine ⟨?_, rfl, ?_⟩
    · rw [statusAt?, hlinks, Table.get?_update_self hlink]
      rfl
    · rw [hlinks, Table.ports_update, asking, Table.insert, Table.ports, List.map_append]
      rfl

/-- A connection that is asked for and accepted is added to the table. -/
theorem Clear.admits (h : Clear e s) (hfamily : e.host.SameFamily e.device)
    (hfree : s.links.get? d.port = none) (peerPort : UInt16) :
    Clear e (play (admission e peerPort d) s) ∧
      (play (admission e peerPort d) s).links.ports = s.links.ports ++ [d.port] := by
  obtain ⟨raw, sum, hpacket, hraw⟩ := exists_acceptanceAt hfamily peerPort d
  have hport : freePort? s.links [d] = some d.port := by
    rw [freePort?, List.map_singleton]
    simp [hfree]
  rw [play_admission]
  refine Call.Ends.state (P := fun t => Clear e t ∧ t.links.ports = s.links.ports ++ [d.port])
    ((ends_connect_of_arrives (h.arrives hpacket) hport peerPort 0).mono ?_ ?_)
  · rintro _ t ⟨-, later, hadvances, hconnected, -⟩
    rcases hadvances.admits (s := s.offered _) h.host h.device hraw hfree with
      ⟨hconnecting, -⟩ | ⟨-, rfl, hports⟩
    · cases hconnected.symm.trans hconnecting
    · obtain ⟨⟨whole, -, hheard⟩, harrived⟩ := hadvances
      exact ⟨⟨hheard.host.trans h.host, hheard.device.trans h.device,
        (List.append_eq_nil_iff.1 harrived.bytes).1⟩, hports⟩
  · -- It is not given up: it is not over, and made once all packets have come.
    rintro _ t ⟨-, u, later, -, hadvances, hover⟩
    rcases hadvances.admits (s := s.offered _) h.host h.device hraw hfree with
      ⟨hconnecting, hlater⟩ | ⟨hconnected, -, -⟩
    · cases hover with
      | refused hended => cases hended.symm.trans hconnecting
      | silent _ hnil => exact absurd hnil hlater
    · cases hover with
      | refused hended => cases hended.symm.trans hconnected
      | silent hwaits => cases hwaits.symm.trans hconnected

/-- Connections can be had at any ports that can be drawn. -/
theorem ports_play_admissions (hfamily : e.host.SameFamily e.device) (peerPort : UInt16)
    {l : List Draw} (hl : l.Nodup) :
    (play (l.flatMap (admission e peerPort)) (ofEnds e)).links.ports = l.map Draw.port := by
  suffices h : Clear e (play (l.flatMap (admission e peerPort)) (ofEnds e)) ∧
      (play (l.flatMap (admission e peerPort)) (ofEnds e)).links.ports = l.map Draw.port from h.2
  induction l using List.reverseRecOn with
  | nil => exact ⟨⟨rfl, rfl, rfl⟩, rfl⟩
  | append_singleton l d ih =>
    obtain ⟨hl, -, hd⟩ := List.nodup_append.1 hl
    obtain ⟨hclear, hports⟩ := ih hl
    have hfree : (play (l.flatMap (admission e peerPort)) (ofEnds e)).links.get? d.port = none := by
      by_contra hused
      have hmem := Table.mem_ports_iff.2 hused
      rw [hports] at hmem
      obtain ⟨d', hd', heq⟩ := List.mem_map.1 hmem
      exact hd d' hd' d (List.mem_singleton_self d) (Draw.port_injective heq)
    rw [List.flatMap_append, List.flatMap_singleton, play_append, List.map_append, ← hports]
    exact hclear.admits hfamily hfree peerPort

/-- Connections at all the ports that can be drawn. -/
def filling (e : Tunnel.Ends) : List Act :=
  (List.finRange 16384).flatMap (admission e 80)

theorem get?_play_filling (hfamily : e.host.SameFamily e.device) (hport : 49152 ≤ port.toNat) :
    (play (filling e) (ofEnds e)).links.get? port ≠ none := by
  obtain ⟨d, rfl⟩ := Draw.exists_port_eq hport
  rw [← Table.mem_ports_iff, filling, ports_play_admissions hfamily 80 (List.nodup_finRange 16384)]
  exact List.mem_map_of_mem (List.mem_finRange d)

/-! ## How the search goes -/

/-- How a stack searches for the host port of a new connection, whatever is drawn. -/
structure Searches (s : Stack) : Prop where
  /-- The search ends with the first free port that is drawn, whatever would be drawn later, and
  asking for the connection ends as well: with this port, or with an error and without an entry. -/
  finds : ∀ (draws : Nat → Draw) m, s.links.get? (draws m).port = none →
    ∃ k ≤ m, s.links.FirstFree draws k ∧ ∀ n, k < n →
      freePort? s.links (Draw.firsts draws n) = some (draws k).port ∧
      ∀ peerPort first, (connect peerPort (Draw.firsts draws n) first).Ends s
        (fun p t => p = (draws k).port ∧ t.statusAt? (draws k).port = some .connected)
        (fun h t => h ≠ .waiting ∧ t.links.get? (draws k).port = none)
  /-- If no free port is ever drawn, no number of draws ends the search, and nothing changes. -/
  lasts : ∀ draws : Nat → Draw, (∀ m, s.links.get? (draws m).port ≠ none) →
    ∀ n peerPort first, connect peerPort (Draw.firsts draws n) first s = .error .waiting s
  /-- Nor does the turn end in which a switchboard serves such a request, and nobody is told. -/
  stalls : ∀ draws : Nat → Draw, (∀ m, s.links.get? (draws m).port ≠ none) →
    ∀ n peerPort first (b : Switchboard) ticket later, b.stack = s →
      b.requests = (ticket, .connect peerPort (Draw.firsts draws n) first) :: later →
      b.serveNext = .error .waiting { b with requests := later }
  /-- A port is free exactly if fewer connections are in the table than there are ports to draw. -/
  room : (∃ p : UInt16, 49152 ≤ p.toNat ∧ s.links.get? p = none) ↔ s.links.length < 16384
  /-- Then, and only then, the search ends along every sequence that comes to each port. -/
  ends : (∀ draws : Nat → Draw, Function.Surjective draws → ∀ peerPort first, ∃ n,
      (connect peerPort (Draw.firsts draws n) first).Ends s (fun _ _ => True)
        (fun h _ => h ≠ .waiting)) ↔
    s.links.length < 16384

theorem searches_play (e : Tunnel.Ends) (acts : List Act) : (play acts (ofEnds e)).Searches := by
  have hnodup := (kept_play e acts).nodup
  have hhigh := high_play e acts
  generalize play acts (ofEnds e) = s at hnodup hhigh
  have hroom := exists_free_iff hnodup hhigh
  refine { finds := ?_, lasts := ?_, stalls := ?_, room := hroom, ends := ?_ }
  · intro draws m hm
    obtain ⟨k, hk, hfirst⟩ := Table.exists_firstFree hm
    exact ⟨k, hk, hfirst, fun n hn =>
      ⟨hfirst.freePort?_eq hn, ends_connect_of_free (hfirst.freePort?_eq hn)⟩⟩
  · exact fun draws h n => connect_of_in_use (Draw.forall_mem_firsts h n)
  · rintro draws h n peerPort first b ticket later rfl hrequests
    exact Switchboard.serveNext_of_in_use hrequests (Draw.forall_mem_firsts h n)
  · constructor
    · intro h
      by_contra hfull
      have hused (d : Draw) : s.links.get? d.port ≠ none :=
        fun hfree => hfull (hroom.1 ⟨d.port, le_toNat_port d, hfree⟩)
      obtain ⟨n, hends⟩ := h _ Draw.surjective_ofNat 0 0
      rw [Call.Ends, connect_of_in_use (Draw.forall_mem_firsts (fun _ => hused _) n)] at hends
      exact hends rfl
    · intro hless draws hdraws peerPort first
      obtain ⟨p, hp, hfree⟩ := hroom.2 hless
      obtain ⟨d, rfl⟩ := Draw.exists_port_eq hp
      obtain ⟨m, rfl⟩ := hdraws d
      obtain ⟨k, -, hfirst⟩ := Table.exists_firstFree hfree
      have hends := ends_connect_of_free (hfirst.freePort?_eq (Nat.lt_succ_self k)) peerPort first
      exact ⟨k + 1, hends.mono (fun _ _ _ => trivial) fun _ _ h => h.1⟩

end Stack

namespace Session

open Stack

/-- So searches the stack of every session, and with no acts in it every stack by itself. -/
theorem searches_run (e : Tunnel.Ends) (before : List Stack.Act) (acts : List Switchboard.Act) :
    (run e before acts).board.stack.Searches := by
  obtain ⟨whole, hwhole⟩ := exists_stack_run_eq e before acts
  rw [hwhole]
  exact searches_play e whole

/-- The device accepts the first connection, and the draws come in pairs. -/
theorem searches_run_admission :
    (Stack.play (admission Ends.sample 80 0) (ofEnds Ends.sample)).links.ports = [49152] ∧
      ∀ n, 2 < n → freePort? (Stack.play (admission Ends.sample 80 0) (ofEnds Ends.sample)).links
        (Draw.firsts (fun n => Fin.ofNat 16384 (n / 2)) n) = some 49153 := by
  have hports := ports_play_admissions (e := Ends.sample) trivial 80 (List.nodup_singleton 0)
  have hsearches := searches_run Ends.sample (admission Ends.sample 80 0) []
  rw [stack_run_nil] at hsearches
  rw [List.flatMap_singleton, List.map_singleton] at hports
  generalize Stack.play (admission Ends.sample 80 0) (ofEnds Ends.sample) = s at hports hsearches
  have hused (p : UInt16) : s.links.get? p ≠ none ↔ p = 49152 := by
    rw [← Table.mem_ports_iff, hports, List.mem_singleton]
    rfl
  refine ⟨hports, ?_⟩
  have hfree : s.links.get? (Draw.port (Fin.ofNat 16384 (2 / 2))) = none := by
    by_contra hmem
    exact absurd ((hused _).1 hmem) (by decide)
  obtain ⟨k, hk, hfirst, hends⟩ := hsearches.finds (fun n => Fin.ofNat 16384 (n / 2)) 2 hfree
  have hsecond : k = 2 := by
    have hat := hfirst.isFree
    interval_cases k
    · exact absurd hat ((hused _).2 rfl)
    · exact absurd hat ((hused _).2 rfl)
    · rfl
  subst hsecond
  exact fun n hn => (hends n hn).1

/-- With a connection at each port no search for one more ends, and no error says so. -/
theorem lasts_filling :
    (∀ p : UInt16, 49152 ≤ p.toNat →
      (Stack.play (filling Ends.sample) (ofEnds Ends.sample)).links.get? p ≠ none) ∧
    ∀ draws n peerPort first, connect peerPort (Draw.firsts draws n) first
        (Stack.play (filling Ends.sample) (ofEnds Ends.sample)) =
      .error .waiting (Stack.play (filling Ends.sample) (ofEnds Ends.sample)) := by
  have hfull (p : UInt16) (hp : 49152 ≤ p.toNat) :=
    get?_play_filling (e := Ends.sample) trivial hp
  generalize Stack.play (filling Ends.sample) (ofEnds Ends.sample) = s at hfull
  exact ⟨hfull, fun draws n => connect_of_in_use fun d _ => hfull _ (le_toNat_port d)⟩

end Session

end Tether.Tunnel
