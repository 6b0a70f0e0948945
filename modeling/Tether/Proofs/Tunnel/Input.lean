import Tether.Proofs.Tunnel.Arriving

/-!
# What a stack reads

What a stack has read, what it has still to read and how its reads go is its *input*. Once a packet
has been cut off, what is done with it does not depend on the input, nor does it change it: the
call is *blind*. So the packets in front of some bytes can be handled one by one and the input be
seen to afterwards.

* `blind_acceptPacket`: what is done with a packet is blind;
* `Stack.afterPackets`: the stack once some packets have been handled;
* `ends_handlePackets_of`, `ends_handleBuffered_of`: handling what was read handles its whole
  packets, and leaves the part behind them.
-/

namespace Tether.Tunnel

open Net Call

/-- What a stack reads: what it has read, and what its transport makes of further reads. -/
structure Input where
  incoming : Bytes
  unread : Bytes
  ending : Ending
  pace : Nat → Option Nat
  reads : Nat

namespace Stack

/-- The stack with another input. -/
def withInput (s : Stack) (i : Input) : Stack :=
  { s with
    incoming := i.incoming
    transport := { s.transport with
      unread := i.unread, ending := i.ending, pace := i.pace, reads := i.reads } }

/-- It does not matter to a call what the stack reads. -/
abbrev Blind {α : Type} (c : Call TunnelError Stack α) : Prop :=
  ∀ i, Commutes (fun s => withInput s i) c

theorem blind_note (packet : Bytes) : Blind (note packet) :=
  fun _ => .modify fun _ => rfl

theorem blind_record (event : Event) : Blind (record event) :=
  fun _ => .modify fun _ => rfl

theorem blind_setLink (port : UInt16) (link : Link) : Blind (setLink port link) :=
  fun _ => .modify fun _ => rfl

theorem blind_linkAt (port : UInt16) : Blind (linkAt port) :=
  fun _ => .get_bind (fun _ => rfl) fun _ => .ofOption _

theorem blind_writeAll (packet : Bytes) : Blind (onTransport (Transport.writeAll packet)) := by
  intro i s
  simp only [onTransport, Call.zoom, Transport.writeAll, withInput]
  by_cases hp : packet.isEmpty
  · simp only [hp, if_true]; rfl
  · cases ha : s.transport.allowance with
    | none => simp only [hp]; rfl
    | some a =>
      by_cases hl : packet.length ≤ a.1
      · simp [hp, hl]; rfl
      · simp [hp, hl]; rfl

theorem blind_put (segment : Segment) : Blind (put segment) :=
  fun i => .get_bind (fun _ => rfl) fun _ => (Commutes.ofExcept _).bind fun packet =>
    (blind_note packet i).bind fun _ => blind_writeAll packet i

theorem blind_transmit (port : UInt16) (control : Control) (payload : Bytes) :
    Blind (transmit port control payload) := by
  refine fun i => (blind_linkAt port i).bind fun link =>
    (blind_put _ i).attempt.bind fun outcome => ?_
  cases outcome with
  | ok _ => exact blind_record _ i
  | error e => exact (blind_record _ i).bind fun _ => .fail e

theorem blind_accept (x : Segment) : Blind (accept x) := by
  refine fun i => .get_bind (fun _ => rfl) fun s => ?_
  cases s.links.get? x.destination with
  | none => exact .pure _
  | some l =>
    dsimp only
    split
    · refine (blind_record _ i).bind fun _ => (blind_setLink _ _ i).bind fun _ => ?_
      split
      · exact blind_transmit _ _ _ i
      · exact .pure _
    · exact .pure _

theorem blind_acceptPacket (p : IpPacket) : Blind (acceptPacket p) := by
  refine fun i => .get_bind (fun _ => rfl) fun s => ?_
  cases s.segmentOf? p with
  | none => exact .pure _
  | some x => exact blind_accept x i

/-! ## Handling packets -/

/-- What is done with a packet that was cut off. -/
def receive (x : Bytes × IpPacket) : Call TunnelError Stack Unit := do
  note x.1
  acceptPacket x.2

/-- The stack once some packets have been handled. -/
def afterPackets (s : Stack) (ps : Packets) : Stack :=
  ps.foldl (fun s x => (receive x).state s) s

theorem blind_receive (x : Bytes × IpPacket) : Blind (receive x) :=
  fun i => (blind_note x.1 i).bind fun _ => blind_acceptPacket x.2 i

variable {s t : Stack} {whole ps : Packets} {part rest : Bytes} {fuel : Nat}

theorem afterPackets_cons (s : Stack) (x : Bytes × IpPacket) (ps : Packets) :
    s.afterPackets (x :: ps) = ((receive x).state s).afterPackets ps :=
  rfl

theorem afterPackets_append (s : Stack) (ps qs : Packets) :
    s.afterPackets (ps ++ qs) = (s.afterPackets ps).afterPackets qs :=
  List.foldl_append

theorem afterPackets_withInput (s : Stack) (i : Input) (ps : Packets) :
    (s.withInput i).afterPackets ps = (s.afterPackets ps).withInput i := by
  induction ps generalizing s with
  | nil => rfl
  | cons x ps ih => rw [afterPackets_cons, afterPackets_cons, (blind_receive x i).state, ih]

/-- The input of a stack. -/
def input (s : Stack) : Input where
  incoming := s.incoming
  unread := s.transport.unread
  ending := s.transport.ending
  pace := s.transport.pace
  reads := s.transport.reads

@[simp] theorem input_withInput (s : Stack) (i : Input) : (s.withInput i).input = i :=
  rfl

@[simp] theorem withInput_input (s : Stack) : s.withInput s.input = s :=
  rfl

@[simp] theorem withInput_withInput (s : Stack) (i j : Input) :
    (s.withInput i).withInput j = s.withInput j :=
  rfl

theorem Blind.input {α : Type} {c : Call TunnelError Stack α} (h : Blind c) (s : Stack) :
    (c.state s).input = s.input := by
  conv_lhs => rw [← s.withInput_input, (h _).state, input_withInput]

theorem input_afterPackets (s : Stack) (ps : Packets) : (s.afterPackets ps).input = s.input := by
  conv_lhs => rw [← s.withInput_input, afterPackets_withInput, input_withInput]

/-- The whole packets that were read are handled, and the part behind them stays, unless something
goes wrong with one of the packets. What is known of the stack may be an invariant. -/
theorem ends_handlePackets_of {I : Stack → Prop} {E : Halt TunnelError → Stack → Prop}
    (hI : ∀ s i, I s → I (s.withInput i))
    (hreceive : ∀ x ∈ whole, ∀ s, I s → (receive x).Ends s (fun _ => I) E) (hs : I s)
    (hsound : Packets.Sound whole) (hincoming : s.incoming = Packets.bytes whole ++ part)
    (hpart : cutPacket part = .incomplete) (hfuel : whole.length < fuel) :
    (handlePackets fuel).Ends s
      (fun _ t => I t ∧ t = afterPackets { s with incoming := part } whole) E := by
  induction whole generalizing s fuel with
  | nil =>
    obtain rfl : s.incoming = part := by simpa [Packets.bytes] using hincoming
    obtain ⟨fuel, rfl⟩ : ∃ n, fuel = n + 1 := ⟨fuel - 1, by omega⟩
    rw [handlePackets, ends_bind, ends_get]
    simp only [hpart]
    exact ⟨hs, rfl⟩
  | cons x whole ih =>
    -- One packet is cut off and handled, and the others are as many as the fuel that is left.
    rw [List.length_cons] at hfuel
    obtain ⟨fuel, rfl⟩ : ∃ n, fuel = n + 1 := ⟨fuel - 1, by omega⟩
    have hbytes : s.incoming = x.1 ++ (Packets.bytes whole ++ part) := by
      simp [hincoming, Packets.bytes]
    have hx : cutPacket s.incoming = .packet x.2 x.1.length := by
      rw [hbytes]
      exact (hsound x List.mem_cons_self).cut _
    have hdrop : s.incoming.drop x.1.length = Packets.bytes whole ++ part := by
      rw [hbytes, List.drop_left]
    have htake : s.incoming.take x.1.length = x.1 := by
      rw [hbytes, List.take_left]
    rw [handlePackets, ends_bind, ends_get]
    simp only [hx, hdrop, htake]
    rw [ends_bind, ends_modify]
    -- The rest of the input waits while the first packet is handled.
    let r : Stack := s.withInput { s.input with incoming := Packets.bytes whole ++ part }
    have hassoc : (do note x.1; acceptPacket x.2; handlePackets fuel) =
        (receive x >>= fun _ => handlePackets fuel) := by
      rw [receive, bind_assoc]
    rw [hassoc, ends_bind]
    refine ((hreceive x List.mem_cons_self r (hI s _ hs)).and (ends_state (receive x) r)).mono
      (fun _ t ht => ?_) fun _ _ ht => ht.1
    obtain ⟨ht, hstate⟩ := ht
    have hinput : t.input = { s.input with incoming := Packets.bytes whole ++ part } := by
      rw [hstate]
      exact (blind_receive x).input r
    have hnext : { t with incoming := part } = (receive x).state { s with incoming := part } :=
      calc { t with incoming := part }
          = t.withInput { t.input with incoming := part } := rfl
        _ = t.withInput { s.input with incoming := part } := by rw [hinput]
        _ = (receive x).state (s.withInput { s.input with incoming := part }) := by
          rw [hstate, ← (blind_receive x _).state, withInput_withInput]
    refine (ih (fun y hy => hreceive y (List.mem_cons_of_mem x hy)) ht
      (fun y hy => hsound y (List.mem_cons_of_mem x hy)) (congrArg Input.incoming hinput)
      (by omega)).mono (fun _ u hu => ⟨hu.1, ?_⟩) fun _ _ => id
    rw [hu.2, hnext, afterPackets_cons]

/-- What was read of a stream of packets is handled up to the part of one that is not whole. -/
theorem ends_handleBuffered_of {I : Stack → Prop} {E : Halt TunnelError → Stack → Prop}
    (hI : ∀ s i, I s → I (s.withInput i))
    (hreceive : ∀ x ∈ ps, ∀ s, I s → (receive x).Ends s (fun _ => I) E) (hs : I s)
    (hsound : Packets.Sound ps) (hbytes : s.incoming ++ rest = Packets.bytes ps) :
    handleBuffered.Ends s
      (fun _ t => ∃ whole later part, ps = whole ++ later ∧
        s.incoming = Packets.bytes whole ++ part ∧ cutPacket part = .incomplete ∧
        part ++ rest = Packets.bytes later ∧ I t ∧
        t = afterPackets { s with incoming := part } whole) E := by
  obtain ⟨whole, later, part, rfl, hincoming, -, hpart⟩ :=
    Packets.split_of_prefix hsound ⟨rest, hbytes⟩
  have hwhole : Packets.Sound whole := fun x hx => hsound x (List.mem_append_left _ hx)
  have hlength := Packets.mul_length_le hwhole
  have hlater : part ++ rest = Packets.bytes later := by
    rw [hincoming, List.append_assoc, Packets.bytes_append] at hbytes
    exact List.append_cancel_left hbytes
  rw [handleBuffered, ends_bind, ends_get]
  refine (ends_handlePackets_of hI (fun x hx => hreceive x (List.mem_append_left _ hx)) hs hwhole
    hincoming hpart ?_).mono (fun _ t ht => ?_) fun _ _ => id
  · rw [hincoming, List.length_append]
    simp only [Ipv4Packet.headerLength] at hlength ⊢
    omega
  · exact ⟨whole, later, part, rfl, hincoming, hpart, hlater, ht.1, ht.2⟩

end Stack

end Tether.Tunnel
