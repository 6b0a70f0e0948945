import Tether.Proofs.Transport
import Tether.Tunnel.Stack

/-!
# How journals grow

Each call on a stack adds events to the journal and removes none. Which ones is a matter of the
call: processing what came out of the tunnel is *traffic*, of which the host's part are *signals*,
segments without bytes of a stream, and sending makes *posts* for one port.
As long as no segment is lost, what goes into the tunnel are the packets with the segments that
the journal says were sent, in that order.

* `Stack.Grows`: the relation between the stacks before and after a call;
* `ends_transmit`: what becomes of one segment;
* `signals_process`, `grows_flush`, `grows_close`, ...: one lemma for each call.
-/

namespace Tether.Tunnel

open Net Call

namespace Event

/-- Whether an event is about a segment that the host sends. -/
def isPost : Event → Bool
  | sent _ | lost _ => true
  | _ => false

/-- Whether an event is about a segment. -/
def isTraffic : Event → Bool
  | arrived _ | sent _ | lost _ => true
  | _ => false

/-- Whether an event is about a segment with which the host sends no bytes of a stream. -/
def isSignal : Event → Bool
  | arrived _ => true
  | sent x | lost x => x.payload.isEmpty
  | _ => false

/-- The segment that was sent. -/
def sent? : Event → Option Segment
  | sent s => some s
  | _ => none

theorem isTraffic_of_isPost {e : Event} (h : e.isPost = true) : e.isTraffic = true := by
  cases e <;> first | rfl | cases h

theorem isTraffic_of_isSignal {e : Event} (h : e.isSignal = true) : e.isTraffic = true := by
  cases e <;> first | rfl | cases h

end Event

namespace Journal

/-- Whether no segment was lost. -/
def Lossless (j : Journal) : Prop :=
  ∀ e ∈ j, e.isLost = false

/-- The segments that were sent, oldest first. -/
def posts (j : Journal) : List Segment :=
  j.reverse.filterMap Event.sent?

@[simp] theorem posts_nil : posts [] = [] :=
  rfl

theorem posts_append (j k : Journal) : (j ++ k).posts = k.posts ++ j.posts := by
  simp [posts]

theorem posts_cons (e : Event) (j : Journal) : posts (e :: j) = j.posts ++ e.sent?.toList := by
  cases h : e.sent? <;> simp [posts, List.filterMap_append, h]

theorem posts_forgotten (ports : List UInt16) : posts (ports.map Event.forgotten) = [] := by
  rw [posts, List.filterMap_eq_nil_iff]
  intro e he
  obtain ⟨port, -, rfl⟩ := List.mem_map.1 (List.mem_reverse.1 he)
  rfl

theorem posts_sent (xs : List Segment) : posts (xs.map Event.sent).reverse = xs := by
  rw [posts, List.reverse_reverse, List.filterMap_map]
  exact List.filterMap_some

end Journal

namespace Stack

/-- The stack after the journal has grown by events as in `P`. -/
structure Grows (P : Event → Prop) (s t : Stack) : Prop where
  host : t.host = s.host
  device : t.device = s.device
  segmentSize : t.segmentSize = s.segmentSize
  events : ∃ es : Journal, t.journal = es ++ s.journal ∧ (∀ e ∈ es, P e) ∧
    (es.Lossless → ∃ packets, List.Forall₂ (fun x p => s.packetOf x = .ok p) es.posts packets ∧
      t.transport.sent = s.transport.sent ++ packets.flatten)

variable {P Q : Event → Prop} {s t u : Stack}

theorem packetOf_congr (hh : t.host = s.host) (hd : t.device = s.device) :
    t.packetOf = s.packetOf := by
  funext x
  rw [packetOf, packetOf, hh, hd]

/-- The packet with a segment is made in two steps. -/
theorem wrap_of_packetOf {x : Segment} {packet : Bytes}
    (h : s.packetOf x = .ok packet) :
    ∃ bs, x.toBytes s.host s.device = .ok bs ∧
      wrap s.host s.device protocolTcp bs = .ok packet := by
  rw [packetOf] at h
  cases hx : x.toBytes s.host s.device with
  | error e =>
    rw [hx] at h
    cases h
  | ok bs =>
    rw [hx] at h
    exact ⟨bs, rfl, h⟩

/-- Nothing happened to the connections. -/
theorem Grows.of_idle (host : t.host = s.host) (device : t.device = s.device)
    (size : t.segmentSize = s.segmentSize) (journal : t.journal = s.journal)
    (sent : t.transport.sent = s.transport.sent) : Grows P s t :=
  ⟨host, device, size, [], journal, fun _ he => absurd he List.not_mem_nil,
    fun _ => ⟨[], .nil, by simp [sent]⟩⟩

theorem Grows.refl (s : Stack) : Grows P s s :=
  .of_idle rfl rfl rfl rfl rfl

theorem Grows.trans (h : Grows P s t) (h' : Grows P t u) : Grows P s u := by
  obtain ⟨hh, hd, hs, es, hj, hP, hw⟩ := h
  obtain ⟨hh', hd', hs', es', hj', hP', hw'⟩ := h'
  refine ⟨hh'.trans hh, hd'.trans hd, hs'.trans hs, es' ++ es, ?_, fun e he => ?_, fun hl => ?_⟩
  · rw [hj', hj, List.append_assoc]
  · exact (List.mem_append.1 he).elim (hP' e) (hP e)
  · obtain ⟨ps, hps, hsent⟩ := hw fun e he => hl e (List.mem_append_right _ he)
    obtain ⟨ps', hps', hsent'⟩ := hw' fun e he => hl e (List.mem_append_left _ he)
    rw [packetOf_congr hh hd] at hps'
    refine ⟨ps ++ ps', ?_, ?_⟩
    · rw [Journal.posts_append]
      exact List.rel_append hps hps'
    · rw [hsent', hsent, List.flatten_append, List.append_assoc]

instance : IsPreorder Stack (Grows P) where
  refl := Grows.refl
  trans _ _ _ := Grows.trans

theorem Grows.mono (h : Grows P s t) (hPQ : ∀ e, P e → Q e) : Grows Q s t := by
  obtain ⟨hh, hd, hs, es, hj, hP, hw⟩ := h
  exact ⟨hh, hd, hs, es, hj, fun e he => hPQ e (hP e he), hw⟩

theorem Grows.lossless (h : Grows P s t) (hl : t.journal.Lossless) : s.journal.Lossless := by
  obtain ⟨es, hj, -, -⟩ := h.events
  exact fun e he => hl e (hj ▸ List.mem_append_right es he)

theorem Grows.journal_eq (h : Grows (fun _ => False) s t) : t.journal = s.journal := by
  obtain ⟨es, hj, hes, -⟩ := h.events
  obtain rfl : es = [] := List.eq_nil_iff_forall_not_mem.2 hes
  exact hj

/-- An event other than a segment that was sent. -/
theorem Grows.of_note {e : Event} (hP : P e) (he : e.sent? = none) (host : t.host = s.host)
    (device : t.device = s.device) (size : t.segmentSize = s.segmentSize)
    (journal : t.journal = e :: s.journal) (sent : t.transport.sent = s.transport.sent) :
    Grows P s t := by
  refine ⟨host, device, size, [e], journal, fun e' h => ?_, fun _ => ⟨[], ?_, by simp [sent]⟩⟩
  · rwa [List.mem_singleton.1 h]
  · rw [Journal.posts_cons, he]
    exact .nil

theorem respects_of_grows {α : Type} {c : Call TunnelError Stack α} (h : Respects (Grows P) c)
    (hPQ : ∀ e, P e → Q e) : Respects (Grows Q) c :=
  h.mono fun _ _ hg => hg.mono hPQ

/-! ## The parts of calls -/

theorem grows_record {e : Event} (hP : P e) (he : e.sent? = none) :
    Respects (Grows P) (record e) :=
  fun _ => .of_note hP he rfl rfl rfl rfl rfl

theorem grows_setLink (port : UInt16) (link : Link) : Respects (Grows P) (setLink port link) :=
  fun _ => .of_idle rfl rfl rfl rfl rfl

theorem grows_linkAt (port : UInt16) : Respects (Grows P) (linkAt port) :=
  Respects.get.bind fun _ => .ofOption _

theorem grows_note (packet : Bytes) : Respects (Grows P) (note packet) :=
  fun _ => .of_idle rfl rfl rfl rfl rfl

theorem grows_forget {port : UInt16} (hP : P (.forgotten port)) :
    Respects (Grows P) (forget port) :=
  Respects.bind (fun _ => .of_idle rfl rfl rfl rfl rfl) fun _ => grows_record hP rfl

theorem grows_onTransport {α : Type} {c : Call Fault Transport α}
    (hc : Respects (fun t u => u.sent = t.sent) c) : Respects (Grows P) (onTransport c) :=
  hc.zoom fun _ _ h => .of_idle rfl rfl rfl rfl h

theorem sent_read (most : Nat) : Respects (fun t u => u.sent = t.sent) (Transport.read most) := by
  intro t
  unfold Call.Ends Transport.read
  by_cases h0 : most = 0
  · simp [h0]
  · by_cases hu : t.unread.isEmpty
    · cases t.ending <;> simp [h0, hu]
    · simp [h0, hu, Transport.sent]

theorem sent_shutdown : Respects (fun t u => u.sent = t.sent) Transport.shutdown := by
  intro t
  unfold Call.Ends Transport.shutdown
  cases t.shutFault <;> rfl

/-! ## Sending -/

/-- The stack once a segment went into the tunnel. -/
def Posted (x : Segment) (s t : Stack) : Prop :=
  ∃ transport capture packet, s.packetOf x = .ok packet ∧
    transport.sent = s.transport.sent ++ packet ∧
    t = { s with transport, capture, journal := .sent x :: s.journal }

/-- The stack once a segment did not go into the tunnel. -/
def Missed (x : Segment) (s t : Stack) : Prop :=
  ∃ transport capture, t = { s with transport, capture, journal := .lost x :: s.journal }

theorem Posted.grows {x : Segment} (h : Posted x s t) (hP : P (.sent x)) : Grows P s t := by
  obtain ⟨transport, capture, packet, hp, hsent, rfl⟩ := h
  refine ⟨rfl, rfl, rfl, [.sent x], rfl, fun e he => ?_, fun _ => ⟨[packet], ?_, ?_⟩⟩
  · rwa [List.mem_singleton.1 he]
  · exact .cons hp .nil
  · simpa using hsent

theorem Missed.grows {x : Segment} (h : Missed x s t) (hP : P (.lost x)) : Grows P s t := by
  obtain ⟨transport, capture, rfl⟩ := h
  refine ⟨rfl, rfl, rfl, [.lost x], rfl, fun e he => ?_, fun hl => ?_⟩
  · rwa [List.mem_singleton.1 he]
  · exact absurd (hl _ List.mem_cons_self) (by simp [Event.isLost])

theorem Missed.not_lossless {x : Segment} (h : Missed x s t) : ¬ t.journal.Lossless := by
  obtain ⟨_, _, rfl⟩ := h
  intro hl
  have hlost := hl (.lost x) List.mem_cons_self
  cases hlost

theorem ends_put (x : Segment) (s : Stack) :
    (put x).Ends s
      (fun _ t => ∃ transport capture packet, s.packetOf x = .ok packet ∧
        transport.sent = s.transport.sent ++ packet ∧ t = { s with transport, capture })
      (fun h t => h ≠ .waiting ∧ ∃ transport capture, t = { s with transport, capture }) := by
  unfold put
  rw [ends_bind, ends_get, ends_bind]
  cases hp : s.packetOf x with
  | error e => exact ⟨nofun, _, _, rfl⟩
  | ok packet =>
    rw [ends_ofExcept_ok, ends_bind]
    unfold note
    rw [ends_modify]
    unfold onTransport
    rw [ends_zoom]
    refine (Transport.ends_writeAll_took packet s.transport).mono (fun _ t ht => ?_) ?_
    · exact ⟨t, _, packet, rfl, ht.sent, rfl⟩
    · rintro _ t ⟨fault, rfl, -⟩
      exact ⟨nofun, t, _, rfl⟩

/-- One segment goes into the tunnel or is lost, and the journal says which. -/
theorem ends_transmit {port : UInt16} {link : Link} (h : s.links.get? port = some link)
    (control : Control) (payload : Bytes) :
    (transmit port control payload).Ends s
      (fun _ t => Posted (link.segment port control payload) s t)
      (fun h t => h ≠ .waiting ∧ Missed (link.segment port control payload) s t) := by
  unfold transmit linkAt
  rw [ends_bind, ends_bind, ends_get, h, ends_ofOption_some, ends_bind, ends_attempt]
  refine (ends_put _ s).mono (fun _ t ht => ?_) fun h t ht => ?_
  · obtain ⟨transport, capture, packet, hp, hsent, rfl⟩ := ht
    exact ⟨transport, capture, packet, hp, hsent, rfl⟩
  · obtain ⟨hh, transport, capture, rfl⟩ := ht
    cases h with
    | failed e => exact ⟨nofun, transport, capture, rfl⟩
    | waiting => exact absurd rfl hh

theorem ends_linkAt_none {port : UInt16} (h : s.links.get? port = none) :
    (linkAt port).Ends s (fun _ _ => False)
      (fun h t => h = .failed (.bare .notConnected) ∧ t = s) := by
  unfold linkAt
  rw [ends_bind, ends_get, h]
  exact ⟨rfl, rfl⟩

theorem ends_linkAt {port : UInt16} {link : Link} (h : s.links.get? port = some link) :
    (linkAt port).Ends s (fun l t => l = link ∧ t = s) (fun _ _ => False) := by
  unfold linkAt
  rw [ends_bind, ends_get, h]
  exact ⟨rfl, rfl⟩

/-- The events that sending from a port makes. -/
def PostsOf (port : UInt16) (e : Event) : Prop :=
  e.isPost = true ∧ e.port = port

theorem grows_transmit_of {port : UInt16} {payload : Bytes}
    (hP : ∀ x : Segment, x.source = port → x.payload = payload → P (.sent x) ∧ P (.lost x))
    (control : Control) : Respects (Grows P) (transmit port control payload) := by
  intro s
  cases h : s.links.get? port with
  | none =>
    unfold transmit
    rw [ends_bind]
    refine (ends_linkAt_none h).mono (fun _ _ => False.elim) fun _ t ht => ?_
    rw [ht.2]
    exact .refl s
  | some link =>
    exact (ends_transmit h control payload).mono (fun _ _ ht => ht.grows (hP _ rfl rfl).1)
      fun _ _ ht => ht.2.grows (hP _ rfl rfl).2

theorem grows_transmit (port : UInt16) (control : Control) (payload : Bytes) :
    Respects (Grows (PostsOf port)) (transmit port control payload) :=
  grows_transmit_of (fun _ hx _ => ⟨⟨rfl, hx⟩, ⟨rfl, hx⟩⟩) control

theorem grows_sendPiece (port : UInt16) (piece : Bytes) :
    Respects (Grows (PostsOf port)) (sendPiece port piece) :=
  (grows_transmit port _ _).bind fun _ => (grows_linkAt port).bind fun _ => grows_setLink port _

theorem grows_flushLink (port : UInt16) : Respects (Grows (PostsOf port)) (flushLink port) :=
  (grows_linkAt port).bind fun _ => (grows_setLink port _).bind fun _ =>
    Respects.get.bind fun _ => .forM fun piece _ => grows_sendPiece port piece

theorem grows_flush (s : Stack) :
    flush.Ends s
      (fun _ => Grows (fun e => ∃ l, (e.port, l) ∈ s.links ∧ l.queued ≠ [] ∧ e.isPost = true) s)
      (fun _ => Grows (fun e => ∃ l, (e.port, l) ∈ s.links ∧ l.queued ≠ [] ∧ e.isPost = true) s) := by
  unfold flush
  rw [ends_bind, ends_get]
  refine Respects.forM (fun port hport => ?_) s
  obtain ⟨⟨p, l⟩, hl, rfl⟩ := List.mem_map.1 hport
  rw [List.mem_filter] at hl
  refine respects_of_grows (grows_flushLink p) fun e he => ?_
  obtain ⟨he, rfl⟩ := he
  exact ⟨l, hl.1, by simpa using hl.2, he⟩

/-! ## Receiving -/

/-- Only signals are added to the journal. -/
abbrev Signals : Stack → Stack → Prop :=
  Grows (Event.isSignal ·)

theorem signals_transmit (port : UInt16) (control : Control) :
    Respects Signals (transmit port control []) := by
  refine grows_transmit_of (fun x _ hx => ?_) control
  simp [Event.isSignal, hx]

theorem grows_accept_of {x : Segment} (harrived : P (.arrived x))
    (hanswer : ∀ y : Segment, y.source = x.destination → y.payload = [] → P (.sent y) ∧ P (.lost y)) :
    Respects (Grows P) (accept x) := by
  refine Respects.get.bind fun s => ?_
  cases s.links.get? x.destination with
  | none => exact .pure _
  | some link =>
    dsimp only
    split
    · refine (grows_record harrived rfl).bind fun _ => (grows_setLink _ _).bind fun _ => ?_
      split
      · exact grows_transmit_of hanswer _
      · exact .pure _
    · exact .pure _

theorem signals_accept (x : Segment) : Respects Signals (accept x) :=
  grows_accept_of rfl fun y _ hy => by simp [Event.isSignal, hy]

theorem signals_acceptPacket (p : IpPacket) : Respects Signals (acceptPacket p) := by
  refine Respects.get.bind fun s => ?_
  cases s.segmentOf? p with
  | none => exact .pure _
  | some x => exact signals_accept x

theorem signals_handlePackets (fuel : Nat) : Respects Signals (handlePackets fuel) := by
  induction fuel with
  | zero => exact .pure _
  | succ fuel ih =>
    refine Respects.get.bind fun s => ?_
    dsimp only
    split
    · exact .pure _
    · exact Respects.bind (fun _ => .of_idle rfl rfl rfl rfl rfl) fun _ => .fail _
    · exact Respects.bind (fun _ => .of_idle rfl rfl rfl rfl rfl) fun _ =>
        (grows_note _).bind fun _ => (signals_acceptPacket _).bind fun _ => ih

theorem grows_fill : Respects (Grows P) fill := by
  refine (grows_onTransport (sent_read _)).bind fun bs => ?_
  dsimp only
  split
  · exact (Respects.fail _).bind fun _ => fun _ => .of_idle rfl rfl rfl rfl rfl
  · exact fun _ => .of_idle rfl rfl rfl rfl rfl

theorem signals_handleBuffered : Respects Signals handleBuffered :=
  Respects.get.bind fun _ => signals_handlePackets _

theorem signals_process : Respects Signals process :=
  grows_fill.bind fun _ => signals_handleBuffered

/-! ## Connecting -/

theorem signals_awaitAnswer (port : UInt16) (fuel : Nat) :
    Respects Signals (awaitAnswer port fuel) := by
  induction fuel with
  | zero => exact .throw _
  | succ fuel ih =>
    refine (grows_linkAt port).bind fun link => ?_
    cases link.status with
    | connecting => exact signals_process.bind fun _ => ih
    | connected => exact .pure _
    | ended fault => exact .fail _

theorem signals_greet (port : UInt16) : Respects Signals (greet port) :=
  (signals_transmit port _).bind fun _ =>
    (Respects.get.bind fun _ => signals_awaitAnswer port _).within

/-- What comes of a connection that is asked for: its beginning, signals, and maybe its end. -/
theorem signals_connect (peerPort : UInt16) (draws : List Draw) (first : UInt32) :
    Respects (Grows fun e => e.isSignal = true ∨ ∃ port, e = .opened port peerPort first ∨
      e = .forgotten port) (connect peerPort draws first) := by
  refine Respects.get.bind fun s => ?_
  cases freePort? s.links draws with
  | none => exact .throw _
  | some port =>
    refine Respects.bind (fun _ => .of_idle rfl rfl rfl rfl rfl) fun _ =>
      (grows_record (.inr ⟨port, .inl rfl⟩) rfl).bind fun _ => Respects.bind
        (respects_of_grows (signals_greet port) fun _ he => .inl he).attempt fun answer => ?_
    cases answer with
    | ok _ => exact .pure _
    | error e => exact (grows_forget (.inr ⟨port, .inr rfl⟩)).bind fun _ => .fail _

/-! ### Traffic -/

theorem grows_of_signals {α : Type} {c : Call TunnelError Stack α} (h : Respects Signals c) :
    Respects (Grows (Event.isTraffic ·)) c :=
  respects_of_grows h fun _ => Event.isTraffic_of_isSignal

theorem grows_acceptPacket (p : IpPacket) :
    Respects (Grows (Event.isTraffic ·)) (acceptPacket p) :=
  grows_of_signals (signals_acceptPacket p)

theorem grows_handleBuffered : Respects (Grows (Event.isTraffic ·)) handleBuffered :=
  grows_of_signals signals_handleBuffered

theorem grows_process : Respects (Grows (Event.isTraffic ·)) process :=
  grows_of_signals signals_process

theorem grows_greet (port : UInt16) : Respects (Grows (Event.isTraffic ·)) (greet port) :=
  grows_of_signals (signals_greet port)

theorem grows_connect (peerPort : UInt16) (draws : List Draw) (first : UInt32) :
    Respects (Grows fun e => e.isTraffic = true ∨ ∃ port, e = .opened port peerPort first ∨
      e = .forgotten port) (connect peerPort draws first) :=
  respects_of_grows (signals_connect peerPort draws first) fun _ he =>
    he.imp_left Event.isTraffic_of_isSignal

/-! ## The rest of a connection's life -/

theorem grows_queue (port : UInt16) (bytes : Bytes) :
    Respects (Grows (· = .queued port bytes)) (queue port bytes) := by
  refine (grows_linkAt port).bind fun link => ?_
  cases link.status with
  | connecting => exact .fail _
  | connected => exact (grows_setLink port _).bind fun _ => grows_record rfl rfl
  | ended fault => exact .fail _

theorem grows_take (port : UInt16) :
    Respects (Grows fun e => ∃ bytes, e = .taken port bytes) (take port) :=
  (grows_linkAt port).bind fun link => (grows_setLink port _).bind fun _ =>
    (grows_record ⟨link.received, rfl⟩ rfl).bind fun _ => .pure _

theorem grows_close (port : UInt16) :
    Respects (Grows fun e => PostsOf port e ∨ e = .forgotten port) (close port) := by
  refine (grows_linkAt port).bind fun link => Respects.bind (Respects.attempt ?_) fun _ =>
    (grows_forget (.inr rfl)).bind fun _ => .ofExcept _
  split
  · exact respects_of_grows ((grows_flushLink port).bind fun _ => grows_transmit port _ _)
      fun _ he => .inl he
  · exact .pure _

theorem grows_shutdown : Respects (Grows fun e => ∃ port, e = .forgotten port) shutdown := by
  refine Respects.bind (fun s => ?_) fun _ => grows_onTransport sent_shutdown
  refine ⟨rfl, rfl, rfl, s.links.ports.map Event.forgotten, rfl, fun e he => ?_, fun _ => ?_⟩
  · obtain ⟨port, -, rfl⟩ := List.mem_map.1 he
    exact ⟨port, rfl⟩
  · rw [Journal.posts_forgotten]
    exact ⟨[], .nil, (List.append_nil _).symm⟩

theorem grows_startCapture (file : Except TunnelError Unit) :
    Respects (Grows P) (startCapture file) :=
  (Respects.ofExcept _).bind fun _ => fun _ => .of_idle rfl rfl rfl rfl rfl

end Stack

end Tether.Tunnel
