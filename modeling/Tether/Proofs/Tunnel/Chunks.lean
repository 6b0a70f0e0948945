import Tether.Proofs.Tunnel.Cuts
import Tether.Proofs.Tunnel.Input

/-!
# Reads of any size

The bytes of a tunnel may come in reads of any size. Whether a read ends behind a packet, inside of
one, or behind many, the stack does the same with the packets, and between reads it keeps exactly
the part of a packet that has not come as a whole: no packet is taken too early, and none is taken
for broken because a part of it is missing.

* `Handled`: where a stack is in a stream of packets, between reads;
* `Handled.process`: a read takes it further on;
* `drain_eq_of_wellFormed`: where the reads end does not matter.
-/

namespace Tether.Tunnel.Stack

open Net Call

variable {s u : Stack} {ps whole later : Packets} {missing : Bytes}

/-- Nothing goes wrong with a packet as long as writes succeed. -/
theorem ends_receive_of_allowance {x : Bytes × IpPacket} (hx : IsPacket x.1 x.2)
    (hs : s.transport.allowance = none) :
    (receive x).Ends s (fun _ t => t.transport.allowance = none) (fun _ _ => False) := by
  rw [receive, ends_bind, note, ends_modify, acceptPacket, ends_bind, ends_get, segmentOf?]
  by_cases hp : x.2.protocol = protocolTcp ∧ x.2.source = s.device ∧ x.2.destination = s.host
  · rw [if_pos hp]
    cases (Segment.ofBytes x.2.payload).toOption with
    | none => exact hs
    | some segment =>
      -- The addresses of the packet are those of the stack, so they are of one family.
      obtain ⟨packet, hpacket⟩ := hx.exists_wrap protocolTcp
      rw [hp.2.1, hp.2.2] at hpacket
      let r : Stack := { s with capture := s.capture.map (· ++ [⟨s.clock, x.1⟩]) }
      refine (ends_accept (s := r) ⟨hs, packet, hpacket⟩ segment).mono (fun _ t ht => ?_)
        fun _ _ => id
      obtain ⟨_, ht⟩ := ht.2.transport
      rw [ht]
      exact hs
  · rw [if_neg hp]
    exact hs

/-- Of a stream of packets that lacks its last bytes, the `whole` ones have been handled, and what
was read of the next one waits. -/
structure Handled (s : Stack) (missing : Bytes) (whole later : Packets) (u : Stack) : Prop where
  state : u = (s.afterPackets whole).withInput u.input
  bytes : u.incoming ++ u.transport.unread ++ missing = Packets.bytes later
  incomplete : cutPacket u.incoming = .incomplete
  allowance : u.transport.allowance = none
  sound : Packets.Sound later

/-- A read takes bytes, and the packets that these complete are handled. -/
theorem Handled.process (h : Handled s missing whole later u) (hunread : u.transport.unread ≠ []) :
    process.Ends u
      (fun _ v => ∃ next rest, later = next ++ rest ∧ Handled s missing (whole ++ next) rest v ∧
        v.transport.unread.length < u.transport.unread.length)
      (fun _ _ => False) := by
  rw [Stack.process, ends_bind]
  refine (ends_fill u).mono (fun _ v hv => ?_) fun _ _ hv => hunread hv.1
  have hread : v = u.withInput v.input := by
    rw [hv.2]
    rfl
  have hbytes : v.incoming ++ (v.transport.unread ++ missing) = Packets.bytes later := by
    rw [← h.bytes, hv.2]
    simp only [Transport.step]
    rw [List.append_assoc, ← List.append_assoc (List.take _ _), List.take_append_drop,
      List.append_assoc]
  have hallowance : v.transport.allowance = none := by
    rw [hread]
    exact h.allowance
  refine (ends_handleBuffered_of (I := fun t => t.transport.allowance = none) (fun _ _ ht => ht)
    (fun x hx t ht => ends_receive_of_allowance (h.sound x hx) ht) hallowance h.sound hbytes).mono
    (fun _ w hw => ?_) fun _ _ => id
  obtain ⟨next, rest, part, rfl, -, hpart, hrest, hw, hstate⟩ := hw
  have hinput : w.input = { v.input with incoming := part } := by
    rw [hstate]
    exact input_afterPackets { v with incoming := part } next
  have hunread : w.transport.unread = v.transport.unread := congrArg Input.unread hinput
  have hincoming : w.incoming = part := congrArg Input.incoming hinput
  refine ⟨next, rest, rfl, ⟨?_, ?_, ?_, hw, fun x hx => h.sound x (List.mem_append_right _ hx)⟩, ?_⟩
  · calc w
        = afterPackets (v.withInput { v.input with incoming := part }) next := hstate
      _ = afterPackets ((s.afterPackets whole).withInput w.input) next := by
        rw [hinput, hread, h.state]
        rfl
      _ = (s.afterPackets (whole ++ next)).withInput w.input := by
        rw [afterPackets_withInput, afterPackets_append]
  · rw [hincoming, hunread, List.append_assoc, hrest]
  · rw [hincoming, hpart]
  · rw [hunread, hv.2]
    exact Transport.length_unread_step_lt hv.1

/-- So do some reads, or as many as there are bytes for. -/
theorem Handled.drain (h : Handled s missing whole later u) (n : Nat) :
    (drain n).Ends u
      (fun _ v => ∃ next rest, later = next ++ rest ∧ Handled s missing (whole ++ next) rest v ∧
        (u.transport.unread.length ≤ n → v.transport.unread = []))
      (fun _ _ => False) := by
  induction n generalizing u whole later with
  | zero =>
    refine ⟨[], later, rfl, ?_, fun hle => List.length_eq_zero_iff.1 (by omega)⟩
    rwa [List.append_nil]
  | succ n ih =>
    rw [Stack.drain, ends_bind, ends_get]
    by_cases hunread : u.transport.unread = []
    · rw [if_pos (List.isEmpty_iff.2 hunread)]
      refine ⟨[], later, rfl, ?_, fun _ => hunread⟩
      rwa [List.append_nil]
    · rw [if_neg (by simpa using hunread), ends_bind]
      refine (h.process hunread).mono (fun _ v hv => ?_) fun _ _ => id
      obtain ⟨next, rest, rfl, hv, hless⟩ := hv
      refine (ih hv).mono (fun _ w hw => ?_) fun _ _ => id
      obtain ⟨next', rest', rfl, hw, hdone⟩ := hw
      refine ⟨next ++ next', rest', by rw [List.append_assoc], ?_, fun hle => hdone (by omega)⟩
      rwa [List.append_assoc] at hw

/-- No read fails, however many there are. -/
theorem Handled.exists_drain (h : Handled s missing [] later u) (n : Nat) :
    ∃ t whole rest, Stack.drain n u = .ok () t ∧ later = whole ++ rest ∧
      Handled s missing whole rest t ∧
      (u.transport.unread.length ≤ n → t.transport.unread = []) := by
  have hdrain := h.drain n
  rw [Call.Ends] at hdrain
  split at hdrain
  · next t heq =>
    obtain ⟨whole, rest, hsplit, ht, hdone⟩ := hdrain
    exact ⟨t, whole, rest, heq, hsplit, ht, hdone⟩
  · exact hdrain.elim

/-- What waits is a part of the next packet, and not all of it. -/
theorem Handled.exists_next (h : Handled s missing whole later u) (hmissing : missing ≠ []) :
    ∃ x rest, later = x :: rest ∧ u.incoming <+: x.1 ∧ u.incoming.length < x.1.length := by
  have hbytes := h.bytes
  cases later with
  | nil =>
    have hnil : u.incoming ++ u.transport.unread ++ missing = [] := hbytes
    exact absurd (List.append_eq_nil_iff.1 hnil).2 hmissing
  | cons x rest =>
    rw [Packets.bytes, List.flatMap_cons, List.append_assoc] at hbytes
    have hfront : u.incoming <+: x.1 ++ rest.flatMap Prod.fst := ⟨_, hbytes⟩
    have hpacket : x.1 <+: x.1 ++ rest.flatMap Prod.fst := List.prefix_append _ _
    have hshort : u.incoming.length < x.1.length := by
      by_contra hlong
      -- Otherwise it would have been cut off.
      obtain ⟨tail, htail⟩ :=
        List.prefix_of_prefix_length_le hpacket hfront (Nat.le_of_not_lt hlong)
      have hcut := h.incomplete
      rw [← htail, (h.sound x List.mem_cons_self).cut] at hcut
      cases hcut
    exact ⟨x, rest, rfl, List.prefix_of_prefix_length_le hfront hpacket hshort.le, hshort⟩

/-- Once all has been read, the packet that lacks some bytes is the only one that is left. -/
theorem Handled.eq_singleton {x : Bytes × IpPacket} {part : Bytes}
    (h : Handled s missing whole later u) (hunread : u.transport.unread = [])
    (hmissing : missing ≠ []) (hlast : ∃ before, whole ++ later = before ++ [x])
    (hx : x.1 = part ++ missing) : later = [x] ∧ u.incoming = part := by
  obtain ⟨y, rest, rfl, -, hshort⟩ := h.exists_next hmissing
  obtain ⟨before, hbefore⟩ := hlast
  have hbytes := h.bytes
  rw [hunread, List.append_nil, Packets.bytes, List.flatMap_cons] at hbytes
  rcases List.eq_nil_or_concat' rest with rfl | ⟨front, z, rfl⟩
  · obtain ⟨-, hy⟩ := List.append_inj' hbefore rfl
    rw [List.singleton_inj] at hy
    rw [hy, hx, List.flatMap_nil, List.append_nil] at hbytes
    exact ⟨by rw [hy], List.append_cancel_right hbytes⟩
  · -- The missing bytes are too few for another packet.
    have hz : z = x := by
      have hconcat : whole ++ y :: (front ++ [z]) = (whole ++ y :: front) ++ [z] := by simp
      rw [hconcat] at hbefore
      exact List.singleton_inj.1 (List.append_inj' hbefore rfl).2
    have hlength := congrArg List.length hbytes
    rw [List.flatMap_append, List.flatMap_singleton, hz, hx] at hlength
    simp only [List.length_append] at hlength
    omega

/-- So all packets in front of it have been handled, and of it the part that came waits. -/
theorem Handled.eq_afterPackets {x : Bytes × IpPacket} {part : Bytes}
    (h : Handled s missing whole later u) (hunread : u.transport.unread = [])
    (hmissing : missing ≠ []) (hsplit : ps ++ [x] = whole ++ later) (hx : x.1 = part ++ missing) :
    u = (s.afterPackets ps).withInput u.input ∧ u.incoming = part := by
  obtain ⟨rfl, hpart⟩ := h.eq_singleton hunread hmissing ⟨ps, hsplit.symm⟩ hx
  obtain rfl := List.append_cancel_right hsplit
  exact ⟨h.state, hpart⟩

/-- Where the reads of a tunnel end does not matter. The tunnel carries some packets, each as long
as its header says, and a part of another, and writes succeed. Then, however many reads there have
been, none has failed, and what waits is exactly what has been read of the first packet that has
not come as a whole. Once all has been read, the connections and what was written are the same
wherever the reads ended. -/
theorem drain_eq_of_wellFormed {packets : List Bytes} {part : Bytes} (hempty : s.incoming = [])
    (hwrites : s.transport.allowance = none) (hpackets : ∀ bs ∈ packets, WellFormed bs)
    (hlast : WellFormed (part ++ missing)) (hmissing : missing ≠ [])
    (hunread : s.transport.unread = packets.flatten ++ part) :
    (∀ pace n, ∃ t whole next later, drain n (s.paced pace) = .ok () t ∧
        packets ++ [part ++ missing] = whole ++ next :: later ∧
        s.transport.unread = whole.flatten ++ t.incoming ++ t.transport.unread ∧
        t.incoming <+: next ∧ t.incoming.length < next.length) ∧
      ∀ pace pace', ∃ t t', drain s.transport.unread.length (s.paced pace) = .ok () t ∧
        drain s.transport.unread.length (s.paced pace') = .ok () t' ∧
        t.transport.unread = [] ∧ t'.transport.unread = [] ∧
        t.incoming = part ∧ t'.incoming = part ∧
        t.links = t'.links ∧ t.transport.written = t'.transport.written ∧
        t.journal = t'.journal ∧ t.capture = t'.capture := by
  obtain ⟨ps, hps, rfl⟩ := Packets.exists_of_wellFormed hpackets
  obtain ⟨p, hp⟩ := wellFormed_iff.1 hlast
  let last : Bytes × IpPacket := (part ++ missing, p)
  have hbytes : s.transport.unread ++ missing = Packets.bytes (ps ++ [last]) := by
    rw [hunread, Packets.bytes_append, Packets.bytes_eq_flatten, List.append_assoc]
    exact congrArg _ (List.append_nil _).symm
  have hsound : Packets.Sound (ps ++ [last]) := by
    intro x hx
    rcases List.mem_append.1 hx with hx | hx
    · exact hps x hx
    · rw [List.mem_singleton.1 hx]
      exact hp
  -- Each run is one of the same stack, apart from its input.
  have hstart (pace : Nat → Option Nat) :
      Handled s missing [] (ps ++ [last]) (s.paced pace) :=
    ⟨rfl, by rw [paced, hempty, List.nil_append, hbytes], by rw [paced, hempty]; rfl, hwrites,
      hsound⟩
  refine ⟨fun pace n => ?_, fun pace pace' => ?_⟩
  · obtain ⟨t, whole, later, heq, hsplit, ht, -⟩ := (hstart pace).exists_drain n
    obtain ⟨x, rest, rfl, hprefix, hshort⟩ := ht.exists_next hmissing
    refine ⟨t, whole.map Prod.fst, x.1, rest.map Prod.fst, heq, ?_, ?_, hprefix, hshort⟩
    · rw [← List.map_cons, ← List.map_append, ← hsplit, List.map_append]
      rfl
    · rw [hsplit, Packets.bytes_append, ← ht.bytes, Packets.bytes_eq_flatten, ← List.append_assoc,
        ← List.append_assoc] at hbytes
      exact List.append_cancel_right hbytes
  · -- In the end, both runs have handled all packets but the last.
    obtain ⟨t, whole, later, heq, hsplit, ht, hdone⟩ :=
      (hstart pace).exists_drain s.transport.unread.length
    obtain ⟨t', whole', later', heq', hsplit', ht', hdone'⟩ :=
      (hstart pace').exists_drain s.transport.unread.length
    obtain ⟨hstate, hpart⟩ := ht.eq_afterPackets (hdone le_rfl) hmissing hsplit rfl
    obtain ⟨hstate', hpart'⟩ := ht'.eq_afterPackets (hdone' le_rfl) hmissing hsplit' rfl
    refine ⟨t, t', heq, heq', hdone le_rfl, hdone' le_rfl, hpart, hpart', ?_, ?_, ?_, ?_⟩
    all_goals
      rw [hstate, hstate']
      rfl

/-- The packets that come for a connection once it is made. -/
def incomingPackets : List Bytes :=
  ((replies.drop 1).take 2).map Ends.sample.packet

/-- The packet that comes last. -/
def lastPacket : Bytes :=
  Ends.sample.packet (reply 1 { fin := true, ack := true } [3] 55422)

/-- A stack with a connection, and these packets unread but for the end of the last one. -/
def interrupted : Stack :=
  play (hearing.take 2 ++ [.world (incomingPackets.flatten ++ lastPacket.take 30) .silent none])
    (ofEnds Ends.sample)

theorem drain_interrupted :
    ∃ t t',
      drain interrupted.transport.unread.length (interrupted.paced fun _ => some 1) = .ok () t ∧
      drain interrupted.transport.unread.length (interrupted.paced fun _ => none) = .ok () t' ∧
      t.links = t'.links ∧ t.transport.written = t'.transport.written ∧
      t.incoming = lastPacket.take 30 := by
  have hpackets : ∀ bs ∈ incomingPackets, WellFormed bs := by decide +kernel
  have hlast : WellFormed (lastPacket.take 30 ++ lastPacket.drop 30) := by decide +kernel
  obtain ⟨-, hsame⟩ := drain_eq_of_wellFormed (s := interrupted) (by cbv) (by cbv) hpackets hlast
    (by decide +kernel) (by cbv)
  obtain ⟨t, t', ht, ht', -, -, hpart, -, hlinks, hwritten, -, -⟩ :=
    hsame (fun _ => some 1) fun _ => none
  exact ⟨t, t', ht, ht', hlinks, hwritten, hpart⟩

end Tether.Tunnel.Stack
