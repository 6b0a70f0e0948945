import Tether.Proofs.Tunnel.Tales

/-!
# Hearing through a shared tunnel

The bytes of a tunnel are those of all connections. Whichever call reads them, be it one that makes
another connection, a connection hears of them the segments that are for it, in their order, and
nothing else is to be seen of the call.

* `Spares`: calls on other ports tell nothing of a connection;
* `ends_accept_tale`: a segment does to the connection that it is for what it does to a link, and
  nothing to others;
* `Listens`: calls that read tell of a connection what the segments for it do;
* `ends_connect_listens`: so does a call that makes another connection.
-/

namespace Tether.Tunnel

open Net Call

namespace Stack

variable {s t u : Stack} {port peerPort p : UInt16} {rs : List Reply} {α : Type}

/-- What can be seen of the connection of a port, after some replies. -/
def tale (s : Stack) (port : UInt16) (rs : List Reply) : Tale where
  link := s.links.get? port
  replies := rs
  sent := s.journal.posts.filter fun x => x.source = port

/-! ## Other ports -/

/-- Nothing is to be seen of the call in the connection of a port. -/
def Spares (port : UInt16) (s t : Stack) : Prop :=
  ∀ rs, t.tale port rs = s.tale port rs

instance : IsPreorder Stack (Spares port) where
  refl _ _ := rfl
  trans _ _ _ h h' rs := (h' rs).trans (h rs)

theorem Spares.of_eq (hlink : t.links.get? port = s.links.get? port)
    (hposts : (t.journal.posts.filter fun x => x.source = port) =
      s.journal.posts.filter fun x => x.source = port) : Spares port s t := by
  intro rs
  rw [tale, tale, hlink, hposts]

/-- An event that is no segment for the connection. -/
theorem Spares.of_note {e : Event} (hlink : t.links.get? port = s.links.get? port)
    (hj : t.journal = e :: s.journal) (he : ∀ x ∈ e.sent?, x.source ≠ port) : Spares port s t := by
  refine .of_eq hlink ?_
  rw [hj, Journal.posts_cons]
  cases hx : e.sent? with
  | none => simp
  | some x => simp [he x hx]

theorem Apart.spares (h : Apart p s t) (hgrows : Grows (fun e => e.port = p) s t) (hp : p ≠ port) :
    Spares port s t := by
  obtain ⟨es, hj, hes, -⟩ := hgrows.events
  refine .of_eq (h port hp.symm) ?_
  have hposts : ((Journal.posts es).filter fun x => x.source = port) = [] := by
    refine List.filter_eq_nil_iff.2 fun x hx => ?_
    obtain ⟨e, he, hsent⟩ := List.mem_filterMap.1 hx
    have hport := hes e (List.mem_reverse.1 he)
    cases e <;> cases hsent
    have hsource : x.source = p := hport
    simpa [hsource] using hp
  rw [hj, Journal.posts_append, List.filter_append, hposts, List.append_nil]

/-- A call on one port tells nothing of the connections of others. -/
theorem spares_of_apart {P : Event → Prop} {c : Call TunnelError Stack α}
    (hapart : Respects (Apart p) c) (hgrows : Respects (Grows P) c) (hP : ∀ e, P e → e.port = p)
    (hp : p ≠ port) : Respects (Spares port) c :=
  fun s => ((hapart s).and (hgrows s)).mono (fun _ _ ht => ht.1.spares (ht.2.mono hP) hp)
    fun _ _ ht => ht.1.spares (ht.2.mono hP) hp

theorem spares_transmit (hp : p ≠ port) (control : Control) (payload : Bytes) :
    Respects (Spares port) (transmit p control payload) :=
  spares_of_apart (apart_transmit p p control payload) (grows_transmit p control payload)
    (fun _ he => he.2) hp

theorem spares_forget (hp : p ≠ port) : Respects (Spares port) (forget p) :=
  spares_of_apart (apart_forget p) (grows_forget (P := (· = .forgotten p)) rfl)
    (by rintro _ rfl; rfl) hp

theorem spares_queue (hp : p ≠ port) (bytes : Bytes) : Respects (Spares port) (queue p bytes) :=
  spares_of_apart (apart_queue p bytes) (grows_queue p bytes) (by rintro _ rfl; rfl) hp

theorem spares_take (hp : p ≠ port) : Respects (Spares port) (take p) :=
  spares_of_apart (apart_take p) (grows_take p) (by rintro _ ⟨_, rfl⟩; rfl) hp

theorem spares_close (hp : p ≠ port) : Respects (Spares port) (close p) :=
  spares_of_apart (apart_close p) (grows_close p) (by rintro _ (he | rfl); exacts [he.2, rfl]) hp

theorem spares_status (port p : UInt16) : Respects (Spares port) (status p) :=
  (Respects.get.bind fun _ => .ofOption _).bind fun _ => .pure _

/-! ## Packets -/

/-- What some packets are to a connection. -/
def deedsIn (s : Stack) (port peerPort : UInt16) (ps : Packets) : List Deed :=
  (ps.filterMap fun x => s.segmentFor? port peerPort x.2).map .heard

theorem deedsIn_congr (hhost : t.host = s.host) (hdevice : t.device = s.device) :
    t.deedsIn port peerPort = s.deedsIn port peerPort := by
  funext ps
  have hsegment : t.segmentOf? = s.segmentOf? := by
    funext x
    rw [segmentOf?, segmentOf?, hhost, hdevice]
  simp only [deedsIn, segmentFor?, hsegment]

theorem deedsIn_append (s : Stack) (ps qs : Packets) :
    s.deedsIn port peerPort (ps ++ qs) =
      s.deedsIn port peerPort ps ++ s.deedsIn port peerPort qs := by
  rw [deedsIn, List.filterMap_append, List.map_append, deedsIn, deedsIn]

/-- What comes out of the tunnel is to a connection what its packets are. -/
theorem heard_of_stream {ps : Packets} (hps : Packets.Sound ps)
    (hstream : s.stream = Packets.bytes ps ++ t.stream) :
    s.heard t port peerPort = s.deedsIn port peerPort ps := by
  have hlength : s.stream.length - t.stream.length = (Packets.bytes ps).length := by
    rw [hstream, List.length_append]
    omega
  have htake : s.stream.take (s.stream.length - t.stream.length) = Packets.bytes ps := by
    rw [hlength, hstream, List.take_left]
  -- The cuts are the packets, with nothing behind them.
  rw [heard, htake, segmentsFor, Packets.cutAll_bytes hps, List.filterMap_append,
    List.filterMap_map, deedsIn]
  have hlast : cutPacket [] = .incomplete := rfl
  simp only [List.filterMap_cons, List.filterMap_nil, hlast, List.append_nil]
  congr 1
  refine List.filterMap_congr fun x hx => ?_
  have hcut : cutPacket x.1 = .packet x.2 x.1.length := hps x hx
  simp only [Function.comp, hcut]

/-- The tunnel carries packets, of which the last may be cut short. -/
theorem flows_iff :
    s.Flows ↔ ∃ ps rest, Packets.Sound ps ∧ s.stream ++ rest = Packets.bytes ps := by
  constructor
  · rintro ⟨packets, rest, hpackets, hstream⟩
    obtain ⟨ps, hps, rfl⟩ := Packets.exists_of_wellFormed hpackets
    exact ⟨ps, rest, hps, by rw [hstream, Packets.bytes_eq_flatten]⟩
  · rintro ⟨ps, rest, hps, hstream⟩
    refine ⟨ps.map Prod.fst, rest, fun bs hbs => ?_, by rw [hstream, Packets.bytes_eq_flatten]⟩
    obtain ⟨x, hx, rfl⟩ := List.mem_map.1 hbs
    exact wellFormed_iff.2 ⟨x.2, hps x hx⟩

/-- A segment that is sent for a connection. -/
theorem ends_transmit_tale {l : Link} (hl : s.links.get? port = some l) (control : Control)
    (payload : Bytes) :
    (transmit port control payload).Ends s
      (fun _ t => ∀ rs, t.tale port rs =
        { s.tale port rs with sent := (s.tale port rs).sent ++ [l.segment port control payload] })
      (fun e t => e ≠ .waiting ∧ ¬ t.journal.Lossless) := by
  refine (ends_transmit hl control payload).mono (fun _ t ht => ?_) fun _ t ht =>
    ⟨ht.1, ht.2.not_lossless⟩
  obtain ⟨_, _, _, -, -, rfl⟩ := ht
  intro rs
  rw [tale, tale]
  dsimp only
  rw [Journal.posts_cons, List.filter_append]
  simp [Event.sent?, Link.segment]

/-- The connection of a port, if there is one, is to this port of the device. -/
def Faces (port peerPort : UInt16) (s : Stack) : Prop :=
  ∀ l, s.links.get? port = some l → l.peerPort = peerPort

theorem Faces.of_meetAll {size : Nat} {ds : List Deed} {rs' : List Reply}
    (h : s.Faces port peerPort) (ht : t.tale port rs' = (s.tale port rs).meetAll port size ds) :
    t.Faces port peerPort := by
  have hmet := Tale.IsOf.meetAll (t := s.tale port rs) h port size ds
  rwa [← ht] at hmet

/-- A segment tells of a connection what it does to the link, if it is for it, and otherwise
nothing. -/
theorem ends_accept_tale (hpeer : s.Faces port peerPort) (size : Nat) (y : Segment) :
    (accept y).Ends s
      (fun _ t => ∀ rs, t.tale port rs =
        if y.destination = port ∧ y.source = peerPort then
          (s.tale port rs).meet port size (.heard y)
        else s.tale port rs)
      (fun _ t => ¬ t.journal.Lossless) := by
  rw [accept, ends_bind, ends_get]
  cases hl : s.links.get? y.destination with
  | none =>
    rw [ends_pure]
    intro rs
    split
    · next h =>
      refine (Tale.meet_of_none ?_ rfl).symm
      rw [tale, ← h.1, hl]
    · rfl
  | some l =>
    dsimp only
    by_cases hsource : l.peerPort = y.source
    · rw [if_pos hsource, ends_bind, record, ends_modify, ends_bind, setLink, ends_modify]
      let r : Stack := { s with
        links := s.links.update y.destination (l.accept y).1
        journal := .arrived y :: s.journal }
      have hr : r.links.get? y.destination = some (l.accept y).1 :=
        Table.get?_update_self hl
      by_cases hport : y.destination = port
      · subst hport
        simp only [true_and, hpeer l hl ▸ hsource.symm, if_true]
        have htale (rs : List Reply) : r.tale y.destination rs =
            { s.tale y.destination rs with link := some (l.accept y).1 } := by
          rw [tale, hr, tale, show r.journal.posts = s.journal.posts from
            (Journal.posts_cons _ _).trans (List.append_nil _)]
        have hmeet (rs : List Reply) :
            (s.tale y.destination rs).meet y.destination size (.heard y) =
            { r.tale y.destination rs with
              sent := (r.tale y.destination rs).sent ++
                l.sends y.destination size (.heard y) } := by
          have hlink : (s.tale y.destination rs).link = some l := hl
          rw [htale, Tale.meet, hlink]
          simp [Link.after, Link.reply?]
        simp only [hmeet, Link.sends]
        split
        · exact (ends_transmit_tale hr _ _).mono (fun _ _ => id) fun _ _ ht => ht.2
        · rw [ends_pure]
          intro rs
          rw [List.append_nil]
      · -- It is for another connection, and so is the answer.
        have hspares : Spares port s r :=
          .of_note (Table.get?_update_of_ne (Ne.symm hport)) rfl fun x hx => by cases hx
        simp only [hport, false_and, if_false]
        split
        · exact ((spares_transmit hport _ _ r).and (ends_transmit_tale hr _ _)).mono
            (fun _ t ht rs => (ht.1 rs).trans (hspares rs)) fun _ _ ht => ht.2.2
        · exact hspares
    · rw [if_neg hsource, ends_pure]
      intro rs
      rw [if_neg]
      rintro ⟨rfl, rfl⟩
      exact hsource (hpeer l hl)

/-- So does a packet. -/
theorem ends_receive_tale (hpeer : s.Faces port peerPort) (size : Nat) (x : Bytes × IpPacket) :
    (receive x).Ends s
      (fun _ t => ∀ rs, t.tale port rs =
        (s.tale port rs).meetAll port size (s.deedsIn port peerPort [x]))
      (fun _ t => ¬ t.journal.Lossless) := by
  rw [receive, ends_bind, note, ends_modify, acceptPacket, ends_bind, ends_get]
  let r : Stack := { s with capture := s.capture.map (· ++ [⟨s.clock, x.1⟩]) }
  rw [deedsIn]
  -- To note the packet does not matter to the segment in it.
  have hnoted : r.segmentOf? x.2 = s.segmentOf? x.2 := rfl
  rw [hnoted]
  cases hy : s.segmentOf? x.2 with
  | none =>
    have hfor : s.segmentFor? port peerPort x.2 = none := by simp [segmentFor?, hy]
    simp only [List.filterMap_cons, hfor]
    exact fun rs => rfl
  | some y =>
    refine (ends_accept_tale (s := r) hpeer size y).mono (fun _ t ht rs => ?_) fun _ _ => id
    rw [ht]
    split
    · next h =>
      have hfor : s.segmentFor? port peerPort x.2 = some y := by simp [segmentFor?, hy, h]
      simp only [List.filterMap_cons, hfor]
      rfl
    · next h =>
      have hfor : s.segmentFor? port peerPort x.2 = none := by simpa [segmentFor?, hy] using h
      simp only [List.filterMap_cons, hfor]
      rfl

theorem grows_receive (x : Bytes × IpPacket) :
    Respects (Grows (Event.isTraffic ·)) (receive x) :=
  (grows_note _).bind fun _ => grows_acceptPacket _

theorem grows_afterPackets (s : Stack) (ps : Packets) :
    Grows (Event.isTraffic ·) s (s.afterPackets ps) := by
  induction ps generalizing s with
  | nil => exact .refl s
  | cons x ps ih => exact ((grows_receive x).state s).trans (ih _)

/-- So do some packets, as long as all answers are sent. -/
theorem tale_afterPackets {ps : Packets} (hpeer : s.Faces port peerPort) (size : Nat)
    (hless : (s.afterPackets ps).journal.Lossless) (rs : List Reply) :
    (s.afterPackets ps).tale port rs =
      (s.tale port rs).meetAll port size (s.deedsIn port peerPort ps) := by
  induction ps generalizing s with
  | nil => rfl
  | cons x ps ih =>
    rw [afterPackets_cons] at hless ⊢
    have hgrows := (grows_receive x).state s
    -- All answers are sent, so that to the first packet is.
    have hfirst : ∀ rs, ((receive x).state s).tale port rs =
        (s.tale port rs).meetAll port size (s.deedsIn port peerPort [x]) := by
      refine Ends.state (P := fun t => t.journal.Lossless → ∀ rs, t.tale port rs = _)
        ((ends_receive_tale hpeer size x).mono (fun _ _ ht _ => ht) fun _ _ ht hl => absurd hl ht)
        ((grows_afterPackets _ ps).lossless hless)
    rw [ih (hpeer.of_meetAll (hfirst [])) hless, hfirst, deedsIn_congr hgrows.host hgrows.device,
      ← Tale.meetAll_append, ← deedsIn_append]
    rfl

/-! ## Reading -/

/-- Some packets come out of the tunnel, and of a connection nothing else is to be seen than what
they are to it. -/
structure Draws (port peerPort : UInt16) (ps : Packets) (s t : Stack) : Prop where
  sound : Packets.Sound ps
  stream : s.stream = Packets.bytes ps ++ t.stream
  flows : t.Flows
  tale : ∀ rs, t.tale port rs =
    (s.tale port rs).meetAll port s.segmentSize (s.deedsIn port peerPort ps)

/-- What a call that reads is to a connection, unless an answer is lost. -/
structure Listens (port peerPort : UInt16) (s t : Stack) : Prop where
  grows : Grows (fun _ => True) s t
  draws : s.Flows → s.Faces port peerPort → t.journal.Lossless →
    ∃ ps, Draws port peerPort ps s t

theorem Draws.faces {ps : Packets} (h : Draws port peerPort ps s t)
    (hpeer : s.Faces port peerPort) : t.Faces port peerPort :=
  hpeer.of_meetAll (h.tale [])

theorem Listens.of_spares (hgrows : Grows (fun _ => True) s t) (h : Spares port s t)
    (hstream : t.stream = s.stream) : Listens port peerPort s t where
  grows := hgrows
  draws hflows _ _ :=
    ⟨[], fun _ hx => absurd hx List.not_mem_nil, hstream.symm,
      by rw [Flows, hstream]; exact hflows, h⟩

instance : IsPreorder Stack (Listens port peerPort) where
  refl s := .of_spares (.refl s) (refl_of (Spares port) s) rfl
  trans s t u h h' := by
    refine ⟨h.grows.trans h'.grows, fun hflows hpeer hless => ?_⟩
    obtain ⟨ps, hps⟩ := h.draws hflows hpeer (h'.grows.lossless hless)
    obtain ⟨qs, hqs⟩ := h'.draws hps.flows (hps.faces hpeer) hless
    refine ⟨ps ++ qs, fun x hx => ?_, ?_, hqs.flows, fun rs => ?_⟩
    · exact (List.mem_append.1 hx).elim (hps.sound x) (hqs.sound x)
    · rw [hps.stream, hqs.stream, Packets.bytes_append, List.append_assoc]
    · rw [hqs.tale, hps.tale, h.grows.segmentSize, deedsIn_congr h.grows.host h.grows.device,
        deedsIn_append, Tale.meetAll_append]

theorem listens_fill : Respects (Listens port peerPort) fill := by
  intro s
  refine ((ends_fill s).and (grows_fill (P := fun _ => True) s)).mono (fun _ t ht => ?_)
    fun _ t ht => ?_
  · obtain ⟨⟨-, rfl⟩, hgrows⟩ := ht
    refine .of_spares hgrows (.of_eq rfl rfl) ?_
    simp only [stream, Transport.step]
    rw [List.append_assoc, List.take_append_drop]
  · obtain ⟨⟨-, rfl, -⟩, -⟩ := ht
    exact refl_of (Listens port peerPort) _

theorem listens_handleBuffered : Respects (Listens port peerPort) handleBuffered := by
  intro s
  have hdraws : handleBuffered.Ends s
      (fun _ t => s.Flows ∧ s.Faces port peerPort → t.journal.Lossless →
        ∃ ps, Draws port peerPort ps s t)
      (fun _ t => s.Flows ∧ s.Faces port peerPort → t.journal.Lossless →
        ∃ ps, Draws port peerPort ps s t) := by
    refine Ends.imp fun ⟨hflows, hpeer⟩ => ?_
    obtain ⟨ps, rest, hsound, hstream⟩ := flows_iff.1 hflows
    rw [stream, List.append_assoc] at hstream
    refine (ends_handleBuffered_of (I := Faces port peerPort)
      (E := fun _ t => ¬ t.journal.Lossless) (fun _ _ ht => ht)
      (fun x _ t ht => (ends_receive_tale ht 0 x).mono (fun _ _ hu => ht.of_meetAll (hu []))
        fun _ _ => id)
      hpeer hsound hstream).mono (fun _ t ht hless => ?_) fun _ t ht hless => absurd hless ht
    obtain ⟨whole, later, part, rfl, hincoming, -, hrest, -, rfl⟩ := ht
    -- To handle the packets does not touch what is behind them.
    have hinput := input_afterPackets { s with incoming := part } whole
    have hstream' : (afterPackets { s with incoming := part } whole).stream =
        part ++ s.transport.unread :=
      congrArg₂ (· ++ ·) (congrArg Input.incoming hinput) (congrArg Input.unread hinput)
    refine ⟨whole, fun x hx => hsound x (List.mem_append_left _ hx), ?_, ?_, fun rs => ?_⟩
    · rw [hstream', stream, hincoming, List.append_assoc]
    · refine flows_iff.2 ⟨later, rest, fun x hx => hsound x (List.mem_append_right _ hx), ?_⟩
      rw [hstream', List.append_assoc, hrest]
    · exact tale_afterPackets (s := { s with incoming := part }) hpeer _ hless rs
  exact ((grows_handleBuffered s).and hdraws).mono
    (fun _ _ ht => ⟨ht.1.mono fun _ _ => trivial, fun hf hp => ht.2 ⟨hf, hp⟩⟩)
    fun _ _ ht => ⟨ht.1.mono fun _ _ => trivial, fun hf hp => ht.2 ⟨hf, hp⟩⟩

theorem listens_process : Respects (Listens port peerPort) process :=
  listens_fill.bind fun _ => listens_handleBuffered

theorem listens_awaitAnswer (p : UInt16) (fuel : Nat) :
    Respects (Listens port peerPort) (awaitAnswer p fuel) := by
  induction fuel with
  | zero => exact .throw _
  | succ fuel ih =>
    refine (Respects.get.bind fun _ => .ofOption _).bind fun l => ?_
    cases l.status with
    | connecting => exact listens_process.bind fun _ => ih
    | connected => exact .pure _
    | ended fault => exact .fail _

/-! ## Connections that others make -/

/-- What is sent does not matter to what comes. -/
theorem stream_transmit (p : UInt16) (control : Control) (payload : Bytes) :
    Respects (fun s t => t.stream = s.stream) (transmit p control payload) := by
  intro s
  have hinput := (blind_transmit p control payload).input s
  have hstream : ((transmit p control payload).state s).stream = s.stream :=
    congrArg₂ (· ++ ·) (congrArg Input.incoming hinput) (congrArg Input.unread hinput)
  exact (ends_state _ s).mono (fun _ _ ht => ht ▸ hstream) fun _ _ ht => ht ▸ hstream

theorem listens_transmit (hp : p ≠ port) (control : Control) (payload : Bytes) :
    Respects (Listens port peerPort) (transmit p control payload) := by
  intro s
  have hall := ((grows_transmit p control payload s).and (spares_transmit hp control payload s)).and
    (stream_transmit p control payload s)
  exact hall.mono (fun _ _ ht => .of_spares (ht.1.1.mono fun _ _ => trivial) ht.1.2 ht.2)
    fun _ _ ht => .of_spares (ht.1.1.mono fun _ _ => trivial) ht.1.2 ht.2

theorem listens_greet (hp : p ≠ port) : Respects (Listens port peerPort) (greet p) :=
  (listens_transmit hp _ _).bind fun _ =>
    (Respects.get.bind fun _ => listens_awaitAnswer p _).within

theorem listens_forget (hp : p ≠ port) : Respects (Listens port peerPort) (forget p) := by
  intro s
  exact .of_spares ((grows_forget (P := fun _ => True) trivial).state s)
    ((spares_forget hp).state s) rfl

/-- To make a connection at another port is to hear packets. -/
theorem ends_connect_listens {draws : List Draw} (peer : UInt16) (first : UInt32)
    (hdraws : freePort? s.links draws ≠ some port) :
    (connect peer draws first).Ends s (fun _ => Listens port peerPort s)
      (fun _ => Listens port peerPort s) := by
  rw [connect, ends_bind, ends_get]
  cases hp : freePort? s.links draws with
  | none => exact refl_of (Listens port peerPort) s
  | some p =>
    have hport : p ≠ port := fun h => hdraws (h ▸ hp)
    -- The link is put in, the event is noted, and the connection is made or given up.
    refine Respects.bind (R := Listens port peerPort) (fun s => ?_)
      (fun _ => Respects.bind (fun s => ?_) fun _ =>
        Respects.bind (listens_greet hport).attempt fun answer => ?_) s
    · exact .of_spares (.of_idle rfl rfl rfl rfl rfl)
        (.of_eq (Table.get?_insert_of_ne hport.symm) rfl) rfl
    · exact .of_spares ((grows_record (P := fun _ => True) trivial rfl).state s)
        (.of_note rfl rfl fun _ hx => by cases hx) rfl
    · cases answer with
      | ok _ => exact .pure _
      | error e => exact (listens_forget hport).bind fun _ => .fail _

end Stack

end Tether.Tunnel
