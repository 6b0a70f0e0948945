import Tether.Proofs.Net.Wrapping
import Tether.Proofs.Tunnel.Arriving
import Tether.Proofs.Tunnel.Play

/-!
# What passes through a tunnel

At the host's end of a tunnel packets *pass*: those that are cut out of what the device has sent,
whatever becomes of them, and those that the host hands to the tunnel, whether or not the tunnel
takes them. Each act of a stack first lets some of the host's packets pass, and then those of the
device, each of which the host may answer at once. A packet is noted in the capture when it passes.

* `Hands`, `Traffic`: how one packet passes;
* `Logs`: several pass and are noted, with one lemma for each call;
* `Passes`: what passes in a play, and `exists_passes`: it is noted;
* `Passes.shows`: what is known of the packets, and what the tunnel has of them.
-/

namespace Tether

namespace Tunnel

open Net Call

/-- A packet that passes. -/
inductive Passage where
  /-- A packet was cut out of what the device has sent. -/
  | cut (packet : Bytes)
  /-- A packet went into the tunnel. -/
  | sent (packet : Bytes)
  /-- A packet was handed to the tunnel, which took just so many bytes of it. -/
  | refused (packet : Bytes) (count : Nat)
  deriving DecidableEq, Repr

namespace Passage

/-- The packet. -/
def packet : Passage → Bytes
  | cut packet | sent packet | refused packet _ => packet

/-- What went into the tunnel. -/
def taken : Passage → List Bytes
  | cut _ => []
  | sent packet => [packet]
  | refused packet count => if count = 0 then [] else [packet.take count]

/-- Whether the packet is one of the host's. -/
def isHanded : Passage → Bool
  | cut _ => false
  | sent _ | refused _ _ => true

end Passage

/-- The tunnel as a stack has it: its two ends, what comes out of it and how, what went into it, and
what happened to the connections in it. -/
structure Wire where
  host : IpAddress
  device : IpAddress
  unread : Bytes
  pace : Nat → Option Nat
  reads : Nat
  /-- Read and not yet cut into packets. -/
  incoming : Bytes
  written : List Bytes
  journal : Journal

namespace Wire

/-- The tunnel once an event was noted. -/
def tells (w : Wire) (e : Event) : Wire :=
  { w with journal := e :: w.journal }

/-- The tunnel once more went into it. -/
def takes (w : Wire) (written : List Bytes) : Wire :=
  { w with written := w.written ++ written }

/-- The tunnel with this left of what has been read. -/
def leaves (w : Wire) (incoming : Bytes) : Wire :=
  { w with incoming }

/-- The tunnel once so many bytes have been read. -/
def fills (w : Wire) (n : Nat) : Wire :=
  { w with
    unread := w.unread.drop n, reads := w.reads + 1, incoming := w.incoming ++ w.unread.take n }

end Wire

namespace Stack

/-- The tunnel of a stack. -/
def wire (s : Stack) : Wire where
  host := s.host
  device := s.device
  unread := s.transport.unread
  pace := s.transport.pace
  reads := s.transport.reads
  incoming := s.incoming
  written := s.transport.written
  journal := s.journal

/-- The packets in the capture of a stack. -/
def recorded (s : Stack) : Option (List Bytes) :=
  s.capture.map (·.map Capture.Record.packet)

/-! ## One packet -/

/-- The host hands the packet with a segment to the tunnel. There is no packet to hand over if the
segment does not fit one. -/
inductive Hands (s : Stack) (x : Segment) : List Passage → Stack → Prop
  | sent {t : Stack} {packet : Bytes} (hpacket : s.packetOf x = .ok packet)
    (h : t.wire = (s.wire.takes [packet]).tells (.sent x)) : Hands s x [.sent packet] t
  | refused {t : Stack} {packet : Bytes} {n : Nat} (hpacket : s.packetOf x = .ok packet)
    (hn : n < packet.length)
    (h : t.wire = (s.wire.takes (Passage.refused packet n).taken).tells (.lost x)) :
    Hands s x [.refused packet n] t
  | unmade {t : Stack} {e : TunnelError} (hpacket : s.packetOf x = .error e)
    (h : t.wire = s.wire.tells (.lost x)) : Hands s x [] t

/-- The host sends something of its own. -/
def Posting (s : Stack) (ps : List Passage) (t : Stack) : Prop :=
  ∃ x, Hands s x ps t

/-- Something of the device's comes. -/
inductive Traffic (s : Stack) : List Passage → Stack → Prop
  | read {t : Stack} (hunread : s.transport.unread ≠ [])
    (h : t.wire = s.wire.fills (s.transport.readBound readSize)) : Traffic s [] t
  /-- What cannot be the start of a packet is thrown away. -/
  | discard {t : Stack} (hcut : cutPacket s.incoming = .invalid)
    (h : t.wire = s.wire.leaves []) : Traffic s [] t
  /-- The packet is not for any connection. -/
  | ignore {t : Stack} {p : IpPacket} {n : Nat} (hcut : cutPacket s.incoming = .packet p n)
    (h : t.wire = s.wire.leaves (s.incoming.drop n)) : Traffic s [.cut (s.incoming.take n)] t
  /-- The packet is for a connection, which does not answer. -/
  | hear {t : Stack} {p : IpPacket} {n : Nat} {x : Segment}
    (hcut : cutPacket s.incoming = .packet p n) (hx : s.segmentOf? p = some x)
    (h : t.wire = (s.wire.leaves (s.incoming.drop n)).tells (.arrived x)) :
    Traffic s [.cut (s.incoming.take n)] t
  /-- The packet is for a connection, which answers. -/
  | answer {t u : Stack} {p : IpPacket} {n : Nat} {x y : Segment} {ps : List Passage}
    (hcut : cutPacket s.incoming = .packet p n) (hx : s.segmentOf? p = some x)
    (hu : u.wire = (s.wire.leaves (s.incoming.drop n)).tells (.arrived x)) (h : Hands u y ps t) :
    Traffic s (.cut (s.incoming.take n) :: ps) t

/-! ## Several packets -/

/-- Some packets pass, one step after the other. In between the stack may do anything that does not
show in the tunnel, and note what happens to its connections. -/
inductive Run (Step : Stack → List Passage → Stack → Prop) :
    Stack → List Passage → Stack → Prop
  | nil (s : Stack) : Run Step s [] s
  | idle {s t u : Stack} {ps : List Passage} (h : t.wire = s.wire) (hrest : Run Step t ps u) :
    Run Step s ps u
  | event {s t u : Stack} {ps : List Passage} {e : Event} (he : e.isTraffic = false)
    (h : t.wire = s.wire.tells e) (hrest : Run Step t ps u) :
    Run Step s ps u
  | step {s t u : Stack} {ps qs : List Passage} (h : Step s ps t) (hrest : Run Step t qs u) :
    Run Step s (ps ++ qs) u

variable {Step : Stack → List Passage → Stack → Prop} {s t u : Stack} {x : Segment} {p : IpPacket}
  {n : Nat} {ps qs : List Passage}

theorem Run.trans (h : Run Step s ps t) (h' : Run Step t qs u) : Run Step s (ps ++ qs) u := by
  induction h with
  | nil => exact h'
  | idle hwire _ ih => exact .idle hwire (ih h')
  | event he hwire _ ih => exact .event he hwire (ih h')
  | step hstep _ ih =>
    rw [List.append_assoc]
    exact .step hstep (ih h')

theorem Run.of_step (h : Step s ps t) : Run Step s ps t := by
  have hrun := Run.step h (.nil t)
  rwa [List.append_nil] at hrun

/-- The packets that passed were added to the capture, if there is one. -/
def Notes (ps : List Passage) (s t : Stack) : Prop :=
  t.recorded = s.recorded.map (· ++ ps.map Passage.packet)

theorem notes_nil_iff : Notes [] s t ↔ t.recorded = s.recorded := by
  simp [Notes]

theorem Notes.trans (h : Notes ps s t) (h' : Notes qs t u) : Notes (ps ++ qs) s u := by
  rw [Notes, h', h, Option.map_map, List.map_append]
  simp only [Function.comp_def, List.append_assoc]

/-- Some packets passed and were noted. -/
def Logs (Step : Stack → List Passage → Stack → Prop) (s t : Stack) : Prop :=
  ∃ ps, Run Step s ps t ∧ Notes ps s t

instance isPreorder_logs : IsPreorder Stack (Logs Step) where
  refl s := ⟨[], .nil s, notes_nil_iff.2 rfl⟩
  trans := by
    rintro s t u ⟨ps, hrun, hnotes⟩ ⟨qs, hrun', hnotes'⟩
    exact ⟨ps ++ qs, hrun.trans hrun', hnotes.trans hnotes'⟩

theorem Logs.of_idle (h : t.wire = s.wire) (hc : t.capture = s.capture) : Logs Step s t :=
  ⟨[], .idle h (.nil t), notes_nil_iff.2 (congrArg (Option.map _) hc)⟩

theorem Logs.of_event {e : Event} (he : e.isTraffic = false)
    (h : t.wire = s.wire.tells e) (hc : t.capture = s.capture) :
    Logs Step s t :=
  ⟨[], .event he h (.nil t), notes_nil_iff.2 (congrArg (Option.map _) hc)⟩

theorem Logs.of_step (h : Step s ps t) (hnotes : Notes ps s t) : Logs Step s t :=
  ⟨ps, .of_step h, hnotes⟩

/-! ## The parts of calls -/

theorem logs_setLink (port : UInt16) (link : Link) : Respects (Logs Step) (setLink port link) :=
  fun _ => .of_idle rfl rfl

theorem logs_linkAt (port : UInt16) : Respects (Logs Step) (linkAt port) :=
  Respects.get.bind fun _ => .ofOption _

theorem logs_record {e : Event} (he : e.isTraffic = false) : Respects (Logs Step) (record e) :=
  fun _ => .of_event he rfl rfl

theorem logs_forget (port : UInt16) : Respects (Logs Step) (forget port) :=
  Respects.bind (fun _ => .of_idle rfl rfl) fun _ => logs_record rfl

/-! ## Sending -/

/-- A packet that is made is a packet. -/
theorem isPacket_of_packetOf {packet : Bytes} (h : s.packetOf x = .ok packet) :
    ∃ p, IsPacket packet p :=
  have ⟨_, _, hwrap⟩ := wrap_of_packetOf h
  ⟨_, isPacket_of_wrap hwrap⟩

theorem ne_nil_of_packetOf {packet : Bytes} (h : s.packetOf x = .ok packet) : packet ≠ [] := by
  obtain ⟨p, hp⟩ := isPacket_of_packetOf h
  rintro rfl
  cases hp

/-- A packet is noted and written, whole or in part, unless there is none. -/
theorem ends_put_part (x : Segment) (s : Stack) :
    (put x).Ends s
      (fun _ t => ∃ packet, s.packetOf x = .ok packet ∧ Notes [.sent packet] s t ∧
        t.wire = s.wire.takes [packet])
      (fun h t => h ≠ .waiting ∧ ((∃ e, s.packetOf x = .error e ∧ t = s) ∨
        ∃ packet n, s.packetOf x = .ok packet ∧ n < packet.length ∧
          Notes [.refused packet n] s t ∧
          t.wire = s.wire.takes (Passage.refused packet n).taken)) := by
  rw [put, ends_bind, ends_get, ends_bind]
  cases hpacket : s.packetOf x with
  | error e => exact ⟨Halt.failed_ne_waiting _, .inl ⟨e, rfl, rfl⟩⟩
  | ok packet =>
    have hnotes (p : Passage) (hp : p.packet = packet) (transport : Transport) :
        Notes [p] s { s with
          capture := s.capture.map (· ++ [⟨s.clock, packet⟩]), transport := transport } := by
      rw [Notes, recorded, recorded, Option.map_map, Option.map_map]
      simp [Function.comp_def, hp]
    rw [ends_ofExcept_ok, ends_bind, note, ends_modify, onTransport, ends_zoom]
    refine (Transport.ends_writeAll_exact (ne_nil_of_packetOf hpacket) s.transport).mono ?_ ?_
    · rintro _ _ ⟨-, rfl⟩
      exact ⟨packet, rfl, hnotes _ rfl _, rfl⟩
    · rintro _ _ ⟨n, fault, rfl, hn, -, rfl⟩
      exact ⟨Halt.failed_ne_waiting _, .inr ⟨packet, n, rfl, hn, hnotes _ rfl _, rfl⟩⟩

/-- The packet with a segment is handed to the tunnel, after it was noted. -/
theorem ends_transmit_hands {port : UInt16} {link : Link} (hl : s.links.get? port = some link)
    (control : Control) (payload : Bytes) :
    (transmit port control payload).Ends s
      (fun _ t => ∃ ps, Hands s (link.segment port control payload) ps t ∧ Notes ps s t)
      (fun _ t => ∃ ps, Hands s (link.segment port control payload) ps t ∧ Notes ps s t) := by
  rw [transmit, ends_bind]
  refine (ends_linkAt hl).mono ?_ fun _ _ => False.elim
  rintro _ _ ⟨rfl, rfl⟩
  rw [ends_bind, ends_attempt]
  refine (ends_put_part _ _).mono ?_ ?_
  · rintro _ t ⟨packet, hpacket, hnotes, hwire⟩
    exact ⟨_, .sent hpacket (congrArg (Wire.tells · _) hwire), hnotes⟩
  · rintro (e | -) t ⟨hne, hend⟩
    · obtain ⟨e', hpacket, rfl⟩ | ⟨packet, n, hpacket, hn, hnotes, hwire⟩ := hend
      · exact ⟨_, .unmade hpacket rfl, notes_nil_iff.2 rfl⟩
      · exact ⟨_, .refused hpacket hn (congrArg (Wire.tells · _) hwire), hnotes⟩
    · exact absurd rfl hne

theorem logs_transmit (port : UInt16) (control : Control) (payload : Bytes) :
    Respects (Logs Posting) (transmit port control payload) := by
  intro s
  cases hl : s.links.get? port with
  | none =>
    rw [transmit, ends_bind]
    refine (ends_linkAt_none hl).mono (fun _ _ => False.elim) ?_
    rintro _ _ ⟨-, rfl⟩
    exact refl_of (Logs Posting) _
  | some link =>
    refine (ends_transmit_hands hl control payload).mono ?_ ?_
    · rintro _ t ⟨ps, hhands, hnotes⟩
      exact .of_step ⟨_, hhands⟩ hnotes
    · rintro _ t ⟨ps, hhands, hnotes⟩
      exact .of_step ⟨_, hhands⟩ hnotes

theorem logs_flushLink (port : UInt16) : Respects (Logs Posting) (flushLink port) :=
  (logs_linkAt port).bind fun _ => (logs_setLink port _).bind fun _ =>
    Respects.get.bind fun _ => .forM fun _ _ => (logs_transmit port _ _).bind fun _ =>
      (logs_linkAt port).bind fun _ => logs_setLink port _

theorem logs_flush : Respects (Logs Posting) flush :=
  Respects.get.bind fun _ => .forM fun port _ => logs_flushLink port

theorem logs_queue (port : UInt16) (bytes : Bytes) : Respects (Logs Step) (queue port bytes) := by
  refine (logs_linkAt port).bind fun link => ?_
  cases link.status with
  | connecting => exact .fail _
  | connected => exact (logs_setLink port _).bind fun _ => logs_record rfl
  | ended fault => exact .fail _

theorem logs_take (port : UInt16) : Respects (Logs Step) (take port) :=
  (logs_linkAt port).bind fun _ => (logs_setLink port _).bind fun _ =>
    (logs_record rfl).bind fun _ => .pure _

theorem logs_close (port : UInt16) : Respects (Logs Posting) (close port) := by
  refine (logs_linkAt port).bind fun link => Respects.bind (Respects.attempt ?_) fun _ =>
    (logs_forget port).bind fun _ => .ofExcept _
  split
  · exact (logs_flushLink port).bind fun _ => logs_transmit port _ _
  · exact .pure _

/-- Several connections are forgotten. -/
theorem run_forgotten (ports : List UInt16) {s t : Stack}
    (h : t.wire = { s.wire with journal := ports.map Event.forgotten ++ s.journal }) :
    Run Step s [] t := by
  induction ports generalizing t with
  | nil => exact .idle h (.nil t)
  | cons port ports ih =>
    have hrest := ih (t := { s with journal := ports.map Event.forgotten ++ s.journal }) rfl
    exact hrest.trans (.event (e := .forgotten port) rfl h (.nil t))

theorem logs_shutdown : Respects (Logs Step) shutdown := by
  refine Respects.bind (fun s => ?_) fun _ => ?_
  · exact ⟨[], run_forgotten s.links.ports rfl, notes_nil_iff.2 rfl⟩
  · intro s
    rw [onTransport, ends_zoom, Call.Ends, Transport.shutdown]
    cases s.transport.shutFault <;> exact Logs.of_idle rfl rfl

/-! ## Receiving -/

/-- A packet that is cut off is noted, and then heard or ignored, and maybe answered. -/
theorem ends_hear (hcut : cutPacket s.incoming = .packet p n) :
    Call.Ends (do
        modify fun s' => { s' with incoming := s.incoming.drop n }
        note (s.incoming.take n)
        acceptPacket p) s
      (fun _ t => Logs Traffic s t) (fun _ t => Logs Traffic s t) := by
  rw [ends_bind, ends_modify, ends_bind, note, ends_modify]
  have hnotes : Notes [.cut (s.incoming.take n)] s { s with
      incoming := s.incoming.drop n
      capture := s.capture.map (· ++ [⟨s.clock, s.incoming.take n⟩]) } := by
    rw [Notes, recorded, recorded, Option.map_map, Option.map_map]
    simp [Function.comp_def, Passage.packet]
  have hwire : ({ s with
      incoming := s.incoming.drop n
      capture := s.capture.map (· ++ [⟨s.clock, s.incoming.take n⟩]) } : Stack).wire =
      s.wire.leaves (s.incoming.drop n) := rfl
  have hsegment : ({ s with
      incoming := s.incoming.drop n
      capture := s.capture.map (· ++ [⟨s.clock, s.incoming.take n⟩]) } : Stack).segmentOf? p =
      s.segmentOf? p := rfl
  generalize ({ s with
    incoming := s.incoming.drop n
    capture := s.capture.map (· ++ [⟨s.clock, s.incoming.take n⟩]) } : Stack) = u
    at hnotes hwire hsegment ⊢
  have hignored : Logs Traffic s u := .of_step (.ignore hcut hwire) hnotes
  rw [acceptPacket, ends_bind, ends_get, hsegment]
  cases hx : s.segmentOf? p with
  | none => exact hignored
  | some x =>
    dsimp only
    rw [accept, ends_bind, ends_get]
    cases hl : u.links.get? x.destination with
    | none => exact hignored
    | some link =>
      dsimp only
      by_cases hport : link.peerPort = x.source
      · rw [if_pos hport, ends_bind, record, ends_modify, ends_bind, setLink, ends_modify]
        have hheard : ({ u with
            journal := .arrived x :: u.journal
            links := u.links.update x.destination (link.accept x).1 } : Stack).wire =
            (s.wire.leaves (s.incoming.drop n)).tells (.arrived x) :=
          congrArg (Wire.tells · (.arrived x)) hwire
        by_cases hanswers : (link.accept x).2
        · rw [if_pos hanswers]
          refine (ends_transmit_hands (Table.get?_update_self hl) _ _).mono ?_ ?_ <;>
          · rintro _ t ⟨ps, hhands, hmore⟩
            have hboth : Notes ([.cut (s.incoming.take n)] ++ ps) s t := hnotes.trans hmore
            exact .of_step (.answer hcut hx hheard hhands) hboth
        · rw [if_neg hanswers]
          exact .of_step (.hear hcut hx hheard) hnotes
      · rw [if_neg hport]
        exact hignored

theorem logs_handlePackets (fuel : Nat) : Respects (Logs Traffic) (handlePackets fuel) := by
  induction fuel with
  | zero => exact .pure _
  | succ fuel ih =>
    intro s
    rw [handlePackets, ends_bind, ends_get]
    dsimp only
    cases hcut : cutPacket s.incoming with
    | incomplete => exact refl_of (Logs Traffic) s
    | invalid => exact .of_step (.discard hcut rfl) (notes_nil_iff.2 rfl)
    | packet p n =>
      have hhear := ends_hear hcut
      rw [ends_bind, ends_modify, ends_bind] at hhear ⊢
      refine hhear.mono (fun _ u hu => ends_bind.2 (hu.mono ?_ fun _ _ h => h)) fun _ _ h => h
      intro _ t ht
      exact (ih t).mono (fun _ _ h => trans_of (Logs Traffic) ht h)
        fun _ _ h => trans_of (Logs Traffic) ht h

theorem logs_handleBuffered : Respects (Logs Traffic) handleBuffered :=
  Respects.get.bind fun _ => logs_handlePackets _

theorem logs_fill : Respects (Logs Traffic) fill := by
  intro s
  refine (ends_fill s).mono ?_ ?_
  · rintro _ _ ⟨hunread, rfl⟩
    exact .of_step (.read hunread rfl) (notes_nil_iff.2 rfl)
  · rintro _ _ ⟨-, rfl, -⟩
    exact refl_of (Logs Traffic) _

theorem logs_process : Respects (Logs Traffic) process :=
  logs_fill.bind fun _ => logs_handleBuffered

theorem logs_awaitAnswer (port : UInt16) (fuel : Nat) :
    Respects (Logs Traffic) (awaitAnswer port fuel) := by
  induction fuel with
  | zero => exact .throw _
  | succ fuel ih =>
    refine (logs_linkAt port).bind fun link => ?_
    cases link.status with
    | connecting => exact logs_process.bind fun _ => ih
    | connected => exact .pure _
    | ended fault => exact .fail _

/-! ## Acts -/

/-- In one act first the host sends something of its own, and then the device is listened to. -/
def Exchange (s : Stack) (ps : List Passage) (t : Stack) : Prop :=
  ∃ qs rs u, ps = qs ++ rs ∧ Run Posting s qs u ∧ Run Traffic u rs t

/-- Some packets passed in one act and were noted. -/
def Exchanges (s t : Stack) : Prop :=
  ∃ ps, Exchange s ps t ∧ Notes ps s t

theorem Logs.exchanges (h : Logs Posting s t) (h' : Logs Traffic t u) : Exchanges s u := by
  obtain ⟨ps, hrun, hnotes⟩ := h
  obtain ⟨qs, hrun', hnotes'⟩ := h'
  exact ⟨ps ++ qs, ⟨ps, qs, t, rfl, hrun, hrun'⟩, hnotes.trans hnotes'⟩

theorem Exchanges.of_posting (h : Logs Posting s t) (h' : Exchanges t u) : Exchanges s u := by
  obtain ⟨ps, hrun, hnotes⟩ := h
  obtain ⟨-, ⟨qs, rs, v, rfl, hposting, htraffic⟩, hnotes'⟩ := h'
  refine ⟨ps ++ (qs ++ rs), ⟨ps ++ qs, rs, v, ?_, hrun.trans hposting, htraffic⟩,
    hnotes.trans hnotes'⟩
  rw [List.append_assoc]

theorem Exchanges.traffic (h : Exchanges s t) (h' : Logs Traffic t u) : Exchanges s u := by
  obtain ⟨-, ⟨qs, rs, v, rfl, hposting, htraffic⟩, hnotes⟩ := h
  obtain ⟨ps, hrun, hnotes'⟩ := h'
  refine ⟨qs ++ rs ++ ps, ⟨qs, rs ++ ps, v, ?_, hposting, htraffic.trans hrun⟩,
    hnotes.trans hnotes'⟩
  rw [List.append_assoc]

theorem exchanges_of_posting {α : Type} {c : Call TunnelError Stack α}
    (h : Respects (Logs Posting) c) : Respects Exchanges c :=
  h.mono fun _ _ hst => hst.exchanges (refl_of (Logs Traffic) _)

theorem exchanges_of_traffic {α : Type} {c : Call TunnelError Stack α}
    (h : Respects (Logs Traffic) c) : Respects Exchanges c :=
  h.mono fun _ _ hst => Logs.exchanges (refl_of (Logs Posting) _) hst

theorem exchanges_greet (port : UInt16) : Respects Exchanges (greet port) := by
  intro s
  rw [greet, ends_bind]
  refine (logs_transmit port Link.greeting [] s).mono (fun _ t ht => ?_) fun _ t ht => ?_
  · refine (Respects.within (Respects.get.bind fun _ => logs_awaitAnswer port _) t).mono ?_ ?_
    · exact fun _ _ hu => ht.exchanges hu
    · exact fun _ _ hu => ht.exchanges hu
  · exact ht.exchanges (refl_of (Logs Traffic) t)

theorem exchanges_connect (peerPort : UInt16) (draws : List Draw) (first : UInt32) :
    Respects Exchanges (connect peerPort draws first) := by
  intro s
  rw [connect, ends_bind, ends_get]
  cases freePort? s.links draws with
  | none => exact Logs.exchanges (refl_of (Logs Posting) s) (refl_of (Logs Traffic) s)
  | some port =>
    dsimp only
    rw [ends_bind, ends_modify, ends_bind, record, ends_modify, ends_bind]
    generalize hu : ({ s with
      journal := .opened port peerPort first :: s.journal
      links := s.links.insert port { peerPort, sequence := first } } : Stack) = u
    have hopened : Logs Posting s u :=
      .of_event (e := .opened port peerPort first) rfl (by rw [← hu]; rfl) (by rw [← hu])
    refine ((exchanges_greet port).attempt u).mono (fun answer t ht => ?_) fun _ t ht => ?_
    · cases answer with
      | ok _ => exact .of_posting hopened ht
      | error e =>
        have hforget : Respects (Logs Traffic) (forget port) := logs_forget port
        refine ends_bind.2 ((hforget t).mono ?_ ?_)
        · exact fun _ _ hv => .of_posting hopened (ht.traffic hv)
        · exact fun _ _ hv => .of_posting hopened (ht.traffic hv)
    · exact .of_posting hopened ht

/-- What passes in a play: with each act some packets, and none by what the world does. -/
inductive Passes : Stack → List Act → List Passage → Prop
  | nil (s : Stack) : Passes s [] []
  | world {s : Stack} {unread : Bytes} {ending : Ending} {allowance : Option (Nat × Fault)}
    {acts : List Act} {ps : List Passage}
    (h : Passes ((Act.world unread ending allowance).call.state s) acts ps) :
    Passes s (.world unread ending allowance :: acts) ps
  | act {s : Stack} {act : Act} {acts : List Act} {ps qs : List Passage}
    (hworld : ∀ unread ending allowance, act ≠ .world unread ending allowance)
    (hact : Exchange s ps (act.call.state s)) (h : Passes (act.call.state s) acts qs) :
    Passes s (act :: acts) (ps ++ qs)

/-- Something passes in each act, and is noted, unless the act starts a capture. -/
theorem exists_exchange (act : Act) (s : Stack)
    (hworld : ∀ unread ending allowance, act ≠ .world unread ending allowance) :
    ∃ ps, Exchange s ps (act.call.state s) ∧
      (act ≠ .startCapture (.ok ()) → Notes ps s (act.call.state s)) := by
  have hnoted (h : Respects Exchanges act.call) : ∃ ps, Exchange s ps (act.call.state s) ∧
      (act ≠ .startCapture (.ok ()) → Notes ps s (act.call.state s)) := by
    obtain ⟨ps, hexchange, hnotes⟩ := h.state s
    exact ⟨ps, hexchange, fun _ => hnotes⟩
  cases act with
  | connect peerPort draws first =>
    refine hnoted fun s => ?_
    rw [Act.call, ends_bind]
    exact exchanges_connect peerPort draws first s
  | queue port bytes => exact hnoted (exchanges_of_posting (logs_queue port bytes))
  | flush => exact hnoted (exchanges_of_posting logs_flush)
  | fill => exact hnoted (exchanges_of_traffic logs_fill)
  | handleBuffered => exact hnoted (exchanges_of_traffic logs_handleBuffered)
  | process => exact hnoted (exchanges_of_traffic logs_process)
  | take port =>
    exact hnoted (exchanges_of_posting ((logs_take port).bind fun _ => .pure _))
  | status port =>
    exact hnoted (exchanges_of_posting (((logs_linkAt port).bind fun _ => .pure _).bind fun _ =>
      .pure _))
  | close port => exact hnoted (exchanges_of_posting (logs_close port))
  | shutdown => exact hnoted (exchanges_of_posting logs_shutdown)
  | tick clock =>
    have htick : Respects (Logs Posting) (Act.tick clock).call := fun _ => .of_idle rfl rfl
    exact hnoted (exchanges_of_posting htick)
  | world unread ending allowance => exact absurd rfl (hworld unread ending allowance)
  | startCapture file =>
    cases file with
    | error e =>
      have herror : Respects (Logs Posting) (Act.startCapture (.error e)).call :=
        fun s => refl_of (Logs Posting) s
      exact hnoted (exchanges_of_posting herror)
    | ok file =>
      have hwire : ((Act.startCapture (.ok file)).call.state s).wire = s.wire := rfl
      exact ⟨[], ⟨[], [], s, rfl, .nil s, .idle hwire (.nil _)⟩, fun hne => absurd rfl hne⟩

/-- In each play some packets pass. They are noted, unless a capture is started meanwhile. -/
theorem exists_passes (acts : List Act) (s : Stack) :
    ∃ ps, Passes s acts ps ∧
      ((∀ act ∈ acts, act ≠ .startCapture (.ok ())) → Notes ps s (play acts s)) := by
  induction acts generalizing s with
  | nil => exact ⟨[], .nil s, fun _ => notes_nil_iff.2 rfl⟩
  | cons act acts ih =>
    obtain ⟨qs, hpasses, hnotes⟩ := ih (act.call.state s)
    by_cases hworld : ∀ unread ending allowance, act ≠ .world unread ending allowance
    · obtain ⟨ps, hexchange, hnoted⟩ := exists_exchange act s hworld
      refine ⟨ps ++ qs, .act hworld hexchange hpasses, fun hacts => ?_⟩
      obtain ⟨hact, hacts⟩ := List.forall_mem_cons.1 hacts
      exact (hnoted hact).trans (hnotes hacts)
    · push Not at hworld
      obtain ⟨unread, ending, allowance, rfl⟩ := hworld
      refine ⟨qs, .world hpasses, fun hacts => ?_⟩
      exact (notes_nil_iff.2 rfl : Notes [] s _).trans (hnotes (List.forall_mem_cons.1 hacts).2)

/-! ## What is known of the packets -/

/-- What the tunnel shows once some packets have passed: each was a packet; those of the host are
the packets of segments, and the journal tells of these; and just what the tunnel took of them went
into it. -/
structure Shows (s : Stack) (ps : List Passage) (t : Stack) : Prop where
  host : t.host = s.host
  device : t.device = s.device
  journal : s.journal <:+ t.journal
  written : t.transport.written = s.transport.written ++ ps.flatMap Passage.taken
  isPacket : ∀ a ∈ ps, ∃ p, IsPacket a.packet p
  handed : ∀ a ∈ ps, a.isHanded = true →
    ∃ y, t.packetOf y = .ok a.packet ∧ (Event.sent y ∈ t.journal ∨ Event.lost y ∈ t.journal)

theorem Shows.trans (h : Shows s ps t) (h' : Shows t qs u) : Shows s (ps ++ qs) u where
  host := h'.host.trans h.host
  device := h'.device.trans h.device
  journal := h.journal.trans h'.journal
  written := by rw [h'.written, h.written, List.flatMap_append, List.append_assoc]
  isPacket a ha := (List.mem_append.1 ha).elim (h.isPacket a) (h'.isPacket a)
  handed a ha hhanded := by
    rcases List.mem_append.1 ha with ha | ha
    · obtain ⟨y, hy, hevent⟩ := h.handed a ha hhanded
      refine ⟨y, by rw [packetOf_congr h'.host h'.device, hy], ?_⟩
      exact hevent.imp (h'.journal.subset ·) (h'.journal.subset ·)
    · exact h'.handed a ha hhanded

/-- No packet passed. -/
theorem Shows.nil (hhost : t.host = s.host) (hdevice : t.device = s.device)
    (hjournal : s.journal <:+ t.journal) (hwritten : t.transport.written = s.transport.written) :
    Shows s [] t where
  host := hhost
  device := hdevice
  journal := hjournal
  written := by rw [hwritten, List.flatMap_nil, List.append_nil]
  isPacket := List.forall_mem_nil _
  handed := List.forall_mem_nil _

/-- No packet passed, whatever was read or thrown away. -/
theorem Shows.of_idle {unread incoming : Bytes} {reads : Nat}
    (h : t.wire = { s.wire with unread := unread, reads := reads, incoming := incoming }) :
    Shows s [] t :=
  have hjournal : t.journal = s.journal := congrArg Wire.journal h
  .nil (congrArg Wire.host h) (congrArg Wire.device h) (hjournal ▸ List.suffix_rfl)
    (congrArg Wire.written h)

/-- No packet passed, and something happened to a connection. -/
theorem Shows.of_event {incoming : Bytes} {e : Event}
    (h : t.wire = (s.wire.leaves incoming).tells e) : Shows s [] t :=
  have hjournal : t.journal = e :: s.journal := congrArg Wire.journal h
  .nil (congrArg Wire.host h) (congrArg Wire.device h) (hjournal ▸ List.suffix_cons _ _)
    (congrArg Wire.written h)

theorem Hands.shows (h : Hands s x ps t) : Shows s ps t := by
  cases h with
  | @sent _ packet hpacket h =>
    have hhost : t.host = s.host := congrArg Wire.host h
    have hdevice : t.device = s.device := congrArg Wire.device h
    have hjournal : t.journal = .sent x :: s.journal := congrArg Wire.journal h
    have hwritten : t.transport.written = s.transport.written ++ [packet] :=
      congrArg Wire.written h
    refine ⟨hhost, hdevice, hjournal ▸ List.suffix_cons _ _, hwritten,
      List.forall_mem_singleton.2 (isPacket_of_packetOf hpacket),
      List.forall_mem_singleton.2 fun _ => ⟨x, ?_, .inl ?_⟩⟩
    · rw [packetOf_congr hhost hdevice, hpacket]
      rfl
    · rw [hjournal]
      exact List.mem_cons_self
  | @refused _ packet n hpacket hn h =>
    have hhost : t.host = s.host := congrArg Wire.host h
    have hdevice : t.device = s.device := congrArg Wire.device h
    have hjournal : t.journal = .lost x :: s.journal := congrArg Wire.journal h
    have hwritten : t.transport.written =
        s.transport.written ++ (Passage.refused packet n).taken := congrArg Wire.written h
    refine ⟨hhost, hdevice, hjournal ▸ List.suffix_cons _ _, ?_,
      List.forall_mem_singleton.2 (isPacket_of_packetOf hpacket),
      List.forall_mem_singleton.2 fun _ => ⟨x, ?_, .inr ?_⟩⟩
    · rw [hwritten, List.flatMap_singleton]
    · rw [packetOf_congr hhost hdevice, hpacket]
      rfl
    · rw [hjournal]
      exact List.mem_cons_self
  | unmade _ h => exact .of_event h

/-- A packet that is cut off is one. -/
theorem isPacket_take_of_cut (hcut : cutPacket s.incoming = .packet p n) :
    IsPacket (s.incoming.take n) p := by
  have hle := (length_of_cutPacket hcut).2
  have hlength : (s.incoming.take n).length = n := by rw [List.length_take, Nat.min_eq_left hle]
  refine isPacket_of_cut (t := s.incoming.drop n) ?_
  rw [List.take_append_drop, hcut, hlength]

/-- A packet of the device's passed. -/
theorem Shows.cut (hcut : cutPacket s.incoming = .packet p n) (h : Shows s [] t) :
    Shows s [.cut (s.incoming.take n)] t where
  host := h.host
  device := h.device
  journal := h.journal
  written := h.written
  isPacket := List.forall_mem_singleton.2 ⟨p, isPacket_take_of_cut hcut⟩
  handed := List.forall_mem_singleton.2 Bool.noConfusion

theorem Traffic.shows (h : Traffic s ps t) : Shows s ps t := by
  cases h with
  | read _ h | discard _ h => exact .of_idle h
  | ignore hcut h => exact .cut hcut (.of_idle h)
  | hear hcut _ h => exact .cut hcut (.of_event h)
  | answer hcut _ hu h => exact (Shows.cut hcut (.of_event hu)).trans h.shows

theorem Run.shows (hstep : ∀ {s t : Stack} {ps : List Passage}, Step s ps t → Shows s ps t)
    (h : Run Step s ps t) : Shows s ps t := by
  induction h with
  | nil s => exact .nil rfl rfl List.suffix_rfl rfl
  | idle h _ ih => exact (Shows.of_idle h).trans ih
  | event _ h _ ih => exact (Shows.of_event h).trans ih
  | step h _ ih => exact (hstep h).trans ih

theorem Exchange.shows (h : Exchange s ps t) : Shows s ps t := by
  obtain ⟨qs, rs, u, rfl, hposting, htraffic⟩ := h
  exact (hposting.shows fun ⟨_, h⟩ => h.shows).trans (htraffic.shows Traffic.shows)

theorem Passes.shows {acts : List Act} (h : Passes s acts ps) : Shows s ps (play acts s) := by
  induction h with
  | nil s => exact .nil rfl rfl List.suffix_rfl rfl
  | @world s unread ending allowance _ _ _ ih =>
    have hstart : Shows s [] ((Act.world unread ending allowance).call.state s) :=
      .nil rfl rfl List.suffix_rfl rfl
    exact hstart.trans ih
  | act _ hact _ ih => exact hact.shows.trans ih

end Stack

end Tunnel

end Tether
