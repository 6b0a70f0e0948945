import Tether.Proofs.Tunnel.Listening

/-!
# Connections keep apart

The connections of a stack share the tunnel, the bytes that wait to be cut into packets, and the
flush, and the call that makes a connection processes the packets of all others. Still, what can be
seen of a connection depends on its own deeds only: two plays in which the same concerns it, in the
same order, tell the same of it, whatever happens to other connections in between.

* `tale_act`: an act tells of a connection what its deeds do;
* `ends_connect_tale`: the tale of a connection begins with the call that makes it;
* `Course.Fair.tale_eq`: from then on it is what its deeds make of it;
* `Course.eq_of_events_eq`: two plays in which the same concerns it tell the same of a connection.
-/

namespace Tether.Tunnel

open Net Call

namespace Stack

variable {s t u : Stack} {port peerPort p : UInt16} {rs : List Reply} {α : Type}

/-! ## Calls on the connection -/

/-- A call on a connection tells of it what a deed does, and so does its answer. -/
def Answers (port : UInt16) (d : Deed) (reply : Except (Halt TunnelError) α → Reply) (s : Stack)
    (r : Except (Halt TunnelError) α) (t : Stack) : Prop :=
  t.journal.Lossless → ∀ rs,
    t.tale port (rs ++ [reply r]) = (s.tale port rs).meet port s.segmentSize d

theorem ends_queue_tale (h : s.Kept) (bytes : Bytes) :
    (queue port bytes).Ends s
      (fun a t => Answers port (.queued bytes) .queued s (.ok a) t)
      (fun e t => Answers port (.queued bytes) .queued s (.error e) t) := by
  cases hl : s.links.get? port with
  | none =>
    refine (ends_queue_of_not (fun l hl' => by rw [hl] at hl'; cases hl') bytes).mono
      (fun _ _ => False.elim) fun e t ht _ rs => ?_
    obtain ⟨rfl, rfl⟩ := ht
    simp [tale, Tale.meet, hl, Deed.refusal?, missing]
  | some l =>
    by_cases hconnected : l.status = .connected
    · refine (ends_queue h hl hconnected bytes).mono (fun _ t ht _ rs => ?_) fun _ _ => False.elim
      obtain ⟨-, hj, hlinks⟩ := ht
      have hlink : t.links.get? port = some { l with queued := l.queued ++ bytes } := by
        rw [hlinks, Table.get?_update_self hl]
      rw [tale, hlink, hj, Journal.posts_cons]
      simp [tale, Tale.meet, hl, Link.after, Link.reply?, Link.sends, Link.admits, hconnected,
        Event.sent?]
    · refine (ends_queue_of_not (fun l' hl' => ?_) bytes).mono (fun _ _ => False.elim)
        fun e t ht _ rs => ?_
      · rwa [← Option.some.inj (hl.symm.trans hl')]
      · obtain ⟨rfl, rfl⟩ := ht
        cases hstatus : l.status with
        | connected => exact absurd hstatus hconnected
        | connecting | ended fault =>
          simp [tale, Tale.meet, hl, Link.after, Link.reply?, Link.sends, Link.admits, hstatus,
            missing]

theorem ends_take_tale (h : s.Kept) :
    (take port).Ends s
      (fun a t => Answers port .taken .taken s (.ok a) t)
      (fun e t => Answers port .taken .taken s (.error e) t) := by
  cases hl : s.links.get? port with
  | none =>
    refine (ends_take_none hl).mono (fun _ _ => False.elim) fun e t ht _ rs => ?_
    obtain ⟨rfl, rfl⟩ := ht
    simp [tale, Tale.meet, hl, Deed.refusal?, missing]
  | some l =>
    refine (ends_take h hl).mono (fun a t ht _ rs => ?_) fun _ _ => False.elim
    obtain ⟨rfl, -, hj, hlinks⟩ := ht
    have hlink : t.links.get? port = some { l with received := [] } := by
      rw [hlinks, Table.get?_update_self hl]
    rw [tale, hlink, hj, Journal.posts_cons]
    simp [tale, Tale.meet, hl, Link.after, Link.reply?, Link.sends, Event.sent?]

theorem ends_status_tale (s : Stack) :
    (status port).Ends s
      (fun a t => Answers port .asked .asked s (.ok a) t)
      (fun e t => Answers port .asked .asked s (.error e) t) := by
  rw [status, ends_bind]
  cases hl : s.links.get? port with
  | none =>
    refine (ends_linkAt_none hl).mono (fun _ _ => False.elim) fun e t ht _ rs => ?_
    obtain ⟨rfl, rfl⟩ := ht
    simp [tale, Tale.meet, hl, Deed.refusal?, missing]
  | some l =>
    refine (ends_linkAt hl).mono (fun a t ht _ rs => ?_) fun _ _ => False.elim
    obtain ⟨rfl, rfl⟩ := ht
    simp [tale, Tale.meet, hl, Link.after, Link.reply?, Link.sends]

end Stack

/-! ## Sending -/

/-- The segments of a volley come from its port. -/
theorem Link.source_of_mem_volley {l : Link} {port : UInt16} {ps : List Bytes} {x : Segment}
    (h : x ∈ l.volley port ps) : x.source = port := by
  induction ps generalizing l with
  | nil => cases h
  | cons p ps ih =>
    rcases List.mem_cons.1 h with rfl | h
    · rfl
    · exact ih h

theorem Link.filter_burst (l : Link) (port p : UInt16) (size : Nat) :
    ((l.burst p size).filter fun x => x.source = port) =
      if p = port then l.burst p size else [] := by
  split
  · next h =>
    refine List.filter_eq_self.2 fun x hx => ?_
    simpa [← h] using Link.source_of_mem_volley hx
  · next h =>
    refine List.filter_eq_nil_iff.2 fun x hx => ?_
    simpa [Link.source_of_mem_volley hx] using h

/-- Of what a table sends, only what one link sends comes from its port. -/
theorem Table.filter_bursts {t : Table} (h : t.ports.Nodup) (port : UInt16) (size : Nat) :
    ((t.flatMap fun e => e.2.burst e.1 size).filter fun x => x.source = port) =
      (t.get? port).elim [] fun l => l.burst port size := by
  induction t with
  | nil => rfl
  | cons e t ih =>
    rw [ports_cons, List.nodup_cons] at h
    rw [List.flatMap_cons, List.filter_append, Link.filter_burst, ih h.2]
    by_cases he : e.1 = port
    · -- No other link of the table has the port.
      have hrest : get? t port = none := by
        by_contra hsome
        exact h.1 (he ▸ mem_ports_iff.2 hsome)
      have hfirst : get? (e :: t) port = some e.2 := by simp [get?, he]
      rw [hrest, hfirst, if_pos he, he]
      exact List.append_nil _
    · have hfirst : get? (e :: t) port = get? t port := by simp [get?, he]
      rw [hfirst, if_neg he, List.nil_append]

namespace Stack

variable {s t u : Stack} {port peerPort p : UInt16} {rs : List Reply} {α : Type}

theorem tale_flush (h : s.Kept) (hless : (flush.state s).journal.Lossless) (rs : List Reply) :
    (flush.state s).tale port rs = (s.tale port rs).meet port s.segmentSize .flushed := by
  refine Ends.state (P := fun t => t.journal.Lossless → t.tale port rs = _)
    ((ends_flush h).mono (fun _ t ht _ => ?_) fun _ _ ht hl => absurd hl ht) hless
  obtain ⟨-, hj, hlinks⟩ := ht
  rw [tale, hlinks, hj, Journal.posts_append, Journal.posts_sent, List.filter_append,
    Table.filter_bursts h.nodup]
  cases hl : s.links.get? port with
  | none => simp [tale, Tale.meet, hl, Deed.refusal?]
  | some l => simp [tale, Tale.meet, hl, Link.after, Link.reply?, Link.sends]

theorem ends_close_tale (h : s.Kept) :
    (close port).Ends s
      (fun a t => Answers port .closed .closed s (.ok a) t)
      (fun e t => Answers port .closed .closed s (.error e) t) := by
  cases hl : s.links.get? port with
  | none =>
    refine (ends_close_none hl).mono (fun _ _ => False.elim) fun e t ht _ rs => ?_
    obtain ⟨rfl, rfl⟩ := ht
    simp [tale, Tale.meet, hl, Deed.refusal?, missing]
  | some l =>
    refine (ends_close h hl).mono (fun _ t ht _ rs => ?_) fun _ _ ht hl => absurd hl ht.2.2.1
    obtain ⟨hk, hj⟩ := ht
    have hlink : t.links.get? port = none := by
      rw [hk.get?_eq_none_iff, ledger, hj]
      exact Ledger.at?_note_forgotten _ _
    have hparting : ((l.parting port s.segmentSize).filter fun x => x.source = port) =
        l.parting port s.segmentSize := by
      rw [Link.parting]
      split
      · rw [List.filter_append, Link.filter_burst, if_pos rfl]
        simp [Link.segment]
      · rfl
    rw [tale, hlink, hj, Journal.posts_cons, Journal.posts_append, Journal.posts_sent]
    simp [tale, Tale.meet, hl, Link.after, Link.reply?, Link.sends, Event.sent?, hparting]

theorem tale_shutdown (s : Stack) (rs : List Reply) :
    (shutdown.state s).tale port rs = (s.tale port rs).meet port s.segmentSize .dropped := by
  let r : Stack :=
    { s with links := [], journal := s.links.ports.map Event.forgotten ++ s.journal }
  have hspares : Respects (Spares port) (onTransport Transport.shutdown) :=
    (Respects.top Transport.shutdown).zoom fun _ _ _ => .of_eq rfl rfl
  have hends : shutdown.Ends s (fun _ => Spares port r) (fun _ => Spares port r) := by
    rw [shutdown, ends_bind, ends_modify]
    exact hspares r
  have hr : r.links.get? port = none := rfl
  -- The connections are forgotten, which sends nothing.
  rw [hends.state rs, tale, hr, Journal.posts_append, Journal.posts_forgotten]
  cases hl : s.links.get? port <;>
    simp [tale, Tale.meet, hl, Link.after, Deed.refusal?, Link.reply?, Link.sends]

/-! ## Acts -/

/-- What a connection hears on the way between two stacks. -/
theorem Listens.tale_eq (h : Listens port peerPort s t) (hflows : s.Flows)
    (hpeer : s.Faces port peerPort) (hless : t.journal.Lossless) (rs : List Reply) :
    t.tale port rs = (s.tale port rs).meetAll port s.segmentSize (s.heard t port peerPort) := by
  obtain ⟨ps, hps⟩ := h.draws hflows hpeer hless
  rw [hps.tale, heard_of_stream hps.sound hps.stream]

/-- What happens by an act is no call. -/
theorem refusal?_happenings (port peerPort : UInt16) (s : Stack) (act : Act) :
    ∀ d ∈ act.happenings port peerPort s, d.refusal? = none := by
  intro d hd
  have hheard {t : Stack} (h : d ∈ s.heard t port peerPort) : d.refusal? = none := by
    obtain ⟨x, -, rfl⟩ := List.mem_map.1 h
    rfl
  cases act with
  | connect | fill | handleBuffered | process => exact hheard hd
  | flush | shutdown =>
    obtain rfl := List.mem_singleton.1 hd
    rfl
  | queue | take | status | close | startCapture | world | tick => cases hd

/-- A call on a port tells of its connection what a deed does, and of others nothing. -/
theorem tale_call {c : Call TunnelError Stack α} {d : Deed}
    {reply : Except (Halt TunnelError) α → Reply} (hspares : p ≠ port → Respects (Spares port) c)
    (htale : p = port → c.Ends s (fun a t => Answers port d reply s (.ok a) t)
      (fun e t => Answers port d reply s (.error e) t))
    (hless : (c.state s).journal.Lossless) (rs : List Reply) :
    (c.state s).tale port (rs ++ if p = port then [reply (c.result s)] else []) =
      (s.tale port rs).meetAll port s.segmentSize ((if p = port then [d] else []) ++ []) := by
  rw [List.append_nil]
  by_cases hp : p = port
  · rw [if_pos hp, if_pos hp, Tale.meetAll_singleton]
    exact (htale hp).of_result (P := Answers port d reply s) hless rs
  · rw [if_neg hp, if_neg hp, List.append_nil]
    exact (hspares hp).state s rs

/-- An act tells of a connection what its owner does by it, and what happens by it. -/
theorem tale_act_of_all {act : Act} (h : s.Kept) (hflows : s.Flows) (hpeer : s.Faces port peerPort)
    (hopens : act.opens port s = false) (hless : (act.call.state s).journal.Lossless)
    (rs : List Reply) :
    (act.call.state s).tale port (rs ++ act.replies port s) =
      (s.tale port rs).meetAll port s.segmentSize
        (act.calls port ++ act.happenings port peerPort s) := by
  -- An act on another port tells nothing, and one that reads tells what is heard.
  have hspares {c : Call TunnelError Stack Unit} (hc : Respects (Spares port) c) :
      (c.state s).tale port (rs ++ []) =
        (s.tale port rs).meetAll port s.segmentSize ([] ++ []) := by
    rw [List.append_nil]
    exact hc.state s rs
  have hlistens {c : Call TunnelError Stack Unit} (hc : Listens port peerPort s (c.state s))
      (hless : (c.state s).journal.Lossless) : (c.state s).tale port (rs ++ []) =
        (s.tale port rs).meetAll port s.segmentSize ([] ++ s.heard (c.state s) port peerPort) := by
    rw [List.append_nil]
    exact hc.tale_eq hflows hpeer hless rs
  cases act with
  | connect peer draws first =>
    -- The call makes another connection: its port was free, and this one is taken.
    refine hlistens ?_ hless
    refine Ends.state (P := Listens port peerPort s) ?_
    refine ends_bind.2 ((ends_connect_listens peer first ?_).mono (fun _ _ => id) fun _ _ => id)
    simpa [Act.opens] using hopens
  | fill => exact hlistens (listens_fill.state s) hless
  | handleBuffered => exact hlistens (listens_handleBuffered.state s) hless
  | process => exact hlistens (listens_process.state s) hless
  | queue p bytes =>
    exact tale_call (fun hp => spares_queue hp bytes) (fun hp => hp ▸ ends_queue_tale h bytes)
      hless rs
  | take p =>
    rw [Act.call, state_drop] at hless ⊢
    exact tale_call spares_take (fun hp => hp ▸ ends_take_tale h) hless rs
  | status p =>
    rw [Act.call, state_drop] at hless ⊢
    exact tale_call (fun _ => spares_status port p) (fun hp => hp ▸ ends_status_tale s) hless rs
  | close p =>
    exact tale_call spares_close (fun hp => hp ▸ ends_close_tale h) hless rs
  | flush =>
    simp only [Act.replies, List.append_nil]
    exact tale_flush h hless rs
  | shutdown =>
    simp only [Act.replies, List.append_nil]
    exact tale_shutdown s rs
  | startCapture file =>
    exact hspares ((Respects.ofExcept _).bind fun _ => fun _ => .of_eq rfl rfl)
  | world unread ending allowance => exact hspares fun _ => .of_eq rfl rfl
  | tick clock => exact hspares fun _ => .of_eq rfl rfl

/-- An act tells of a connection what its deeds do. -/
theorem tale_act {act : Act} (h : s.Kept) (hflows : s.Flows) (hpeer : s.Faces port peerPort)
    (hopens : act.opens port s = false) (hless : (act.call.state s).journal.Lossless)
    (rs : List Reply) :
    (act.call.state s).tale port (rs ++ act.replies port s) =
      (s.tale port rs).meetAll port s.segmentSize (act.deeds port peerPort s) := by
  rw [tale_act_of_all h hflows hpeer hopens hless, Act.deeds]
  cases hl : s.links.get? port with
  | some l => rfl
  | none =>
    -- A connection that is not there stays so, whatever is asked of it.
    have hlink : ((s.tale port rs).meetAll port s.segmentSize (act.calls port)).link = none :=
      Tale.link_meetAll_of_none hl
    rw [Tale.meetAll_append, Tale.meetAll_of_none hlink (refusal?_happenings port peerPort s act),
      if_neg (by simp), List.append_nil]

/-! ## Beginnings -/

/-- The stack once a connection has been begun. -/
def dialing (s : Stack) (port peerPort : UInt16) (first : UInt32) : Stack :=
  { s with
    links := s.links.insert port { peerPort, sequence := first }
    journal := .opened port peerPort first :: s.journal }

/-- What is to be seen of a connection that was asked for, once packets have come, behind what was
sent from its port for others. -/
def Asks (port peerPort : UInt16) (first : UInt32) (s t : Stack) : Prop :=
  t.journal.Lossless → t.tale port [] =
    ((Tale.begin port peerPort first).behind (s.tale port []).sent).meetAll port s.segmentSize
      (s.heard t port peerPort)

/-- How making a connection ends, and what is to be seen of it then. -/
def Begins (port peerPort : UInt16) (first : UInt32) (s : Stack)
    (r : Except (Halt TunnelError) UInt16) (t : Stack) : Prop :=
  t.journal.Lossless → ∃ e : Option TunnelError,
    r = e.elim (.ok port) (fun e => .error (.failed e)) ∧
    t.tale port [] =
      ((Tale.begin port peerPort first).behind (s.tale port []).sent).meetAll port s.segmentSize
        (s.heard t port peerPort ++ (e.map Deed.givenUp).toList)

/-- A connection that was asked for is one to the port that was asked. -/
theorem isOf_begin (port peerPort : UInt16) (first : UInt32) (before : List Segment) :
    ((Tale.begin port peerPort first).behind before).IsOf peerPort := by
  intro l hl
  cases hl
  rfl

/-- Packets that come once a connection has been asked for. -/
theorem Listens.asks {first : UInt32} (h : Listens port peerPort t u)
    (ht : t.tale port [] = (Tale.begin port peerPort first).behind (s.tale port []).sent)
    (hgrows : Grows (PostsOf port) (s.dialing port peerPort first) t)
    (hstream : t.stream = s.stream) (hflows : s.Flows) : Asks port peerPort first s u := by
  intro hless
  have hpeer : t.Faces port peerPort := by
    have hbegin := isOf_begin port peerPort first (s.tale port []).sent
    rwa [← ht] at hbegin
  obtain ⟨ps, hps⟩ := h.draws (by rw [Flows, hstream]; exact hflows) hpeer hless
  have hheard : s.heard u port peerPort = s.deedsIn port peerPort ps :=
    heard_of_stream hps.sound (hstream.symm.trans hps.stream)
  have hdeeds : t.deedsIn port peerPort = s.deedsIn port peerPort :=
    deedsIn_congr hgrows.host hgrows.device
  have hsize : t.segmentSize = s.segmentSize := hgrows.segmentSize
  rw [hps.tale, ht, hsize, hheard, hdeeds]

theorem ends_greet_tale (hfree : s.links.get? port = none) (hflows : s.Flows) (first : UInt32) :
    (greet port).Ends (s.dialing port peerPort first)
      (fun _ t => Asks port peerPort first s t)
      (fun e t => e ≠ .waiting ∧ Asks port peerPort first s t) := by
  have hlink : (s.dialing port peerPort first).links.get? port =
      some { peerPort, sequence := first } := by
    rw [dialing, Table.get?_insert _ _ _ _ hfree, if_pos rfl]
  have hposts : (s.dialing port peerPort first).journal.posts = s.journal.posts :=
    (Journal.posts_cons _ _).trans (List.append_nil _)
  rw [greet, ends_bind]
  refine (((ends_transmit_tale hlink Link.greeting []).and (grows_transmit port _ _ _)).and
    (stream_transmit port _ _ _)).mono (fun _ t ht => ?_) fun e t ht =>
      ⟨ht.1.1.1, fun hless => absurd hless ht.1.1.2⟩
  obtain ⟨⟨htale, hgrows⟩, hstream⟩ := ht
  have hbegin : t.tale port [] = (Tale.begin port peerPort first).behind (s.tale port []).sent := by
    rw [htale, tale, hlink, hposts]
    rfl
  -- Whether the answer comes in time or not, the packets that came up to then were heard.
  rw [ends_within, ends_bind, ends_get]
  have hlistens (fuel : Nat) : Respects (Listens port peerPort) (awaitAnswer port fuel) :=
    listens_awaitAnswer port fuel
  refine (hlistens _ t).mono (fun _ u hu => ?_) fun e u hu => ?_
  · exact hu.asks hbegin hgrows hstream hflows
  · have hasks := hu.asks hbegin hgrows hstream hflows
    cases e with
    | waiting | failed e =>
      refine ⟨fun h => ?_, hasks⟩
      cases h

/-- A connection that is given up is forgotten. -/
theorem ends_forget_tale (s : Stack) (size : Nat) (e : TunnelError) :
    (forget port).Ends s
      (fun _ t => (t.journal.Lossless → s.journal.Lossless) ∧ t.stream = s.stream ∧
        t.tale port [] = (s.tale port []).meet port size (.givenUp e))
      (fun _ _ => False) := by
  rw [forget, ends_bind, ends_modify, record, ends_modify]
  refine ⟨fun hless e he => hless e (List.mem_cons_of_mem _ he), rfl, ?_⟩
  have hlink : (s.links.erase port).get? port = none := by rw [Table.get?_erase, if_pos rfl]
  simp only [tale, hlink, Journal.posts_cons]
  cases hl : s.links.get? port <;>
    simp [Tale.meet, Link.after, Deed.refusal?, Link.reply?, Link.sends, Event.sent?]

theorem ends_connect_tale {draws : List Draw} (hdraws : freePort? s.links draws = some port)
    (hflows : s.Flows) (first : UInt32) :
    (connect peerPort draws first).Ends s
      (fun a t => Begins port peerPort first s (.ok a) t)
      (fun e t => Begins port peerPort first s (.error e) t) := by
  rw [connect, ends_bind, ends_get, hdraws]
  dsimp only
  rw [ends_bind, ends_modify, record, ends_bind, ends_modify, ends_bind, ends_attempt]
  refine (ends_greet_tale (s := s) (get?_freePort? hdraws).1 hflows first).mono
    (fun _ t ht hless => ?_) fun e t ht => ?_
  · refine ⟨none, rfl, ?_⟩
    rw [ht hless, Option.map_none, Option.toList_none, List.append_nil]
  · cases e with
    | waiting => exact absurd rfl ht.1
    | failed e =>
      dsimp only
      rw [ends_bind]
      refine (ends_forget_tale t s.segmentSize e).mono (fun _ u hu hless => ?_)
        fun _ _ => False.elim
      obtain ⟨hkeeps, hstream, htale⟩ := hu
      refine ⟨some e, rfl, ?_⟩
      have hheard : s.heard u port peerPort = s.heard t port peerPort := by
        rw [heard, heard, hstream]
      rw [htale, ht.2 (hkeeps hless), hheard, Option.map_some, Option.toList_some,
        Tale.meetAll_append, Tale.meetAll_singleton]

/-! ## Eras -/

theorem FlowsAlong.of_append {acts acts' : List Act} (h : FlowsAlong (acts ++ acts') s) :
    FlowsAlong acts' (play acts s) := by
  induction acts generalizing s with
  | nil => exact h
  | cons act acts ih => exact ih h.2

/-- Acts tell of a connection what their deeds do, up to the one that gives its port away. -/
theorem tale_era {acts : List Act} (h : s.Kept) (hflows : FlowsAlong acts s)
    (hpeer : s.Faces port peerPort) (hless : (play acts s).journal.Lossless) (rs : List Reply) :
    (play (era port acts s) s).tale port (rs ++ along (Act.replies port) (era port acts s) s) =
      (s.tale port rs).meetAll port s.segmentSize
        (along (Act.deeds port peerPort) (era port acts s) s) := by
  induction acts generalizing s rs with
  | nil =>
    rw [era, along, List.append_nil]
    rfl
  | cons act acts ih =>
    rw [era]
    cases hopens : act.opens port s with
    | true =>
      -- From here on, the port is that of another connection.
      rw [if_pos rfl, along, List.append_nil]
      rfl
    | false =>
      rw [if_neg Bool.false_ne_true, along, along]
      -- The answers of this act were sent, because none was lost later.
      let t := act.call.state s
      have hgrows : Grows (fun _ => True) s t := (grows_act act).state s
      have hact : ∀ rs, t.tale port (rs ++ act.replies port s) =
          (s.tale port rs).meetAll port s.segmentSize (act.deeds port peerPort s) :=
        tale_act h hflows.1 hpeer hopens ((grows_play acts t).lossless hless)
      have hrest := ih ((keeps_act act).state s h) hflows.2 (hpeer.of_meetAll (hact [])) hless
        (rs ++ act.replies port s)
      rw [hact, hgrows.segmentSize, ← Tale.meetAll_append, List.append_assoc] at hrest
      exact hrest

/-! ## Courses -/

namespace Course

variable {c d : Course}

/-- The most bytes of a stream that one segment carries. -/
def size (c : Course) : Nat :=
  max 64 (c.ends.mtu - headersLength c.ends.host)

/-- What can be seen of the connection. -/
def tale (c : Course) : Tale where
  link := c.link?
  replies := c.replies
  sent := c.sent

theorem segmentSize_start (c : Course) : c.start.segmentSize = c.size :=
  segmentSize_play c.ends c.before

theorem play_acts (c : Course) : play c.acts (ofEnds c.ends) = play c.after c.begun := by
  rw [acts, play_append]
  rfl

theorem grows_begun (c : Course) : Grows (fun _ => True) c.start c.begun :=
  (grows_act c.opening).state c.start

theorem begun_eq (c : Course) :
    c.begun = (connect c.peerPort c.draws c.first).state c.start :=
  state_drop _ _ _

theorem Fair.lossless_begun (h : c.Fair) : c.begun.journal.Lossless :=
  (grows_play c.after c.begun).lossless (c.play_acts ▸ h.lossless)

theorem Fair.flows_start (h : c.Fair) : FlowsAlong (c.opening :: c.after) c.start :=
  h.flows.of_append

/-- How the call ends that begins the connection. -/
theorem Fair.begins (h : c.Fair) : Begins c.port c.peerPort c.first c.start c.answer c.begun := by
  rw [begun_eq]
  exact (ends_connect_tale c.drawn h.flows_start.1 c.first).of_result
    (P := Begins c.port c.peerPort c.first c.start)

/-- It gives the connection up, or returns its port. -/
theorem Fair.answer_eq (h : c.Fair) :
    c.answer = c.surrender?.elim (.ok c.port) fun e => .error (.failed e) := by
  obtain ⟨e, he, -⟩ := h.begins h.lossless_begun
  rw [surrender?, he]
  cases e <;> rfl

/-- The connection begins with what comes for it while it is made. -/
theorem Fair.tale_begun (h : c.Fair) :
    c.begun.tale c.port [] =
      ((Tale.begin c.port c.peerPort c.first).behind (c.start.tale c.port []).sent).meetAll c.port
        c.size (c.opening.happenings c.port c.peerPort c.start ++
          (c.surrender?.map Deed.givenUp).toList) := by
  obtain ⟨e, he, htale⟩ := h.begins h.lossless_begun
  have hsurrender : c.surrender? = e := by
    rw [surrender?, he]
    cases e <;> rfl
  rw [htale, hsurrender, segmentSize_start]
  rfl

/-- What can be seen of the connection in the end is what its deeds make of it, behind what was
sent from its port for others. -/
theorem Fair.tale_last (h : c.Fair) :
    c.last.tale c.port c.replies =
      ((Tale.begin c.port c.peerPort c.first).behind (c.start.tale c.port []).sent).meetAll c.port
        c.size c.deeds := by
  have hpeer : c.begun.Faces c.port c.peerPort := by
    have hmet := (isOf_begin c.port c.peerPort c.first (c.start.tale c.port []).sent).meetAll c.port
      c.size (c.opening.happenings c.port c.peerPort c.start ++
        (c.surrender?.map Deed.givenUp).toList)
    rwa [← h.tale_begun] at hmet
  have hkept : c.begun.Kept := (keeps_act c.opening).state c.start (kept_play c.ends c.before)
  have hera := tale_era hkept h.flows_start.2 hpeer (c.play_acts ▸ h.lossless) []
  rw [h.tale_begun, c.grows_begun.segmentSize, segmentSize_start, ← Tale.meetAll_append] at hera
  exact hera

theorem grows_last (c : Course) : Grows (fun _ => True) (ofEnds c.ends) c.last :=
  (grows_play c.before _).trans (c.grows_begun.trans (grows_play c.era _))

theorem host_last (c : Course) : c.last.host = c.ends.host :=
  c.grows_last.host

theorem device_last (c : Course) : c.last.device = c.ends.device :=
  c.grows_last.device

theorem sent_last (c : Course) (rs : List Reply) :
    (c.last.tale c.port rs).sent = (c.start.tale c.port rs).sent ++ c.sent := by
  obtain ⟨es, hj, -, -⟩ := (c.grows_begun.trans (grows_play c.era c.begun)).events
  have hposts : c.last.journal.posts = c.start.journal.posts ++ Journal.posts es := by
    rw [last, hj, Journal.posts_append]
  rw [Stack.tale, Stack.tale, sent, hposts, List.drop_left, List.filter_append]

/-- What can be seen of a connection is what its deeds make of it. -/
theorem Fair.tale_eq (h : c.Fair) :
    c.tale = (Tale.begin c.port c.peerPort c.first).meetAll c.port c.size c.deeds := by
  -- What was sent from the port before the connection stands in front on both sides.
  have hlast : c.tale.behind (c.start.tale c.port []).sent = c.last.tale c.port c.replies :=
    Tale.ext rfl rfl (c.sent_last c.replies).symm
  rw [h.tale_last, Tale.meetAll_behind] at hlast
  exact Tale.behind_injective _ hlast

theorem surrender?_happenings (port peerPort : UInt16) (s : Stack) (act : Act) :
    (act.happenings port peerPort s).findSome? Deed.surrender? = none := by
  have hheard (t : Stack) : (s.heard t port peerPort).findSome? Deed.surrender? = none := by
    refine List.findSome?_eq_none_iff.2 fun d hd => ?_
    obtain ⟨x, -, rfl⟩ := List.mem_map.1 hd
    rfl
  cases act with
  | connect | fill | handleBuffered | process => exact hheard _
  | _ => rfl

theorem surrender?_act (port peerPort : UInt16) (s : Stack) (act : Act) :
    (act.deeds port peerPort s).findSome? Deed.surrender? = none := by
  have hcalls : (act.calls port).findSome? Deed.surrender? = none := by
    cases act with
    | queue p _ | take p | status p | close p =>
      by_cases hp : p = port <;> simp [Act.calls, hp, Deed.surrender?]
    | _ => rfl
  rw [Act.deeds, List.findSome?_append, hcalls, Option.none_or]
  split
  · exact surrender?_happenings port peerPort s act
  · rfl

/-- The deeds tell whether the connection was given up, and why. -/
theorem findSome?_deeds (c : Course) : c.deeds.findSome? Deed.surrender? = c.surrender? := by
  have hera (acts : List Act) (s : Stack) :
      (along (Act.deeds c.port c.peerPort) acts s).findSome? Deed.surrender? = none := by
    induction acts generalizing s with
    | nil => rfl
    | cons act acts ih => rw [along, List.findSome?_append, surrender?_act, ih, Option.none_or]
  rw [deeds, List.findSome?_append, List.findSome?_append, surrender?_happenings, hera,
    Option.none_or, Option.or_none]
  cases c.surrender? <;> rfl

theorem findSome?_events (c : Course) : c.events.findSome? Deed.surrender? = c.surrender? := by
  rw [← findSome?_deeds, events]
  induction c.deeds with
  | nil => rfl
  | cons d ds ih =>
    cases d with
    | asked => exact ih
    | givenUp e => rfl
    | _ => exact ih

/-- Connections keep apart. In two plays in which every segment is sent and the tunnel carries
nothing but packets, a connection is begun with the same ports and the same number. If the same
concerns it in both, in the same order, then the call that begins it ends the same way, its link
ends up the same, its owner is told the same, and the same is sent for it, whatever happens to
other connections, and whenever. -/
theorem eq_of_events_eq (hc : c.Fair) (hd : d.Fair) (hhost : c.ends.host = d.ends.host)
    (hdevice : c.ends.device = d.ends.device) (hmtu : c.ends.mtu = d.ends.mtu)
    (hport : c.port = d.port) (hpeer : c.peerPort = d.peerPort) (hfirst : c.first = d.first)
    (hevents : c.events = d.events) :
    c.answer = d.answer ∧ c.link? = d.link? ∧ c.results = d.results ∧ c.sent = d.sent ∧
      c.packets = d.packets ∧ (c.deeds = d.deeds → c.replies = d.replies) := by
  have hanswer : c.answer = d.answer := by
    rw [hc.answer_eq, hd.answer_eq, ← findSome?_events, ← findSome?_events, hevents, hport]
  have hsize : c.size = d.size := by rw [size, size, hhost, hmtu]
  -- Events leave out what the owner asks, which changes nothing but what it is told.
  have hplain : c.tale.plain = d.tale.plain := by
    rw [hc.tale_eq, hd.tale_eq, Tale.plain_meetAll, Tale.plain_meetAll, hsize, hport, hpeer, hfirst]
    exact congrArg _ hevents
  have hsent : c.sent = d.sent := congrArg Tale.sent hplain
  -- The segments go into packets by the addresses, which no act changes.
  have hpacket : c.last.packetOf = d.last.packetOf := by
    refine packetOf_congr ?_ ?_
    · exact c.host_last.trans (hhost.trans d.host_last.symm)
    · exact c.device_last.trans (hdevice.trans d.device_last.symm)
  refine ⟨hanswer, congrArg Tale.link hplain, congrArg Tale.replies hplain, hsent, ?_,
    fun hdeeds => ?_⟩
  · rw [packets, packets, hsent, hpacket]
  · have htale : c.tale = d.tale := by
      rw [hc.tale_eq, hd.tale_eq, hsize, hport, hpeer, hfirst, hdeeds]
    exact congrArg Tale.replies htale

end Course

/-! ### The same connection beside others -/

/-- What the tunnel holds before each act of a play, and at its end. -/
def streams : List Act → Stack → List Bytes
  | [], s => [s.stream]
  | act :: acts, s => s.stream :: streams acts (act.call.state s)

theorem flowsAlong_of_streams {acts : List Act} {pss : List (List Bytes)}
    (hpackets : ∀ ps ∈ pss, ∀ bs ∈ ps, WellFormed bs) (hs : streams acts s = pss.map List.flatten) :
    FlowsAlong acts s := by
  have hflows {s : Stack} {ps : List Bytes} (h : ∀ bs ∈ ps, WellFormed bs)
      (hs : s.stream = ps.flatten) : s.Flows :=
    ⟨ps, [], h, by rw [hs, List.append_nil]⟩
  induction acts generalizing s pss with
  | nil =>
    obtain ⟨ps, rfl, hps⟩ := List.map_eq_singleton_iff.1 hs.symm
    exact hflows (hpackets ps (List.mem_singleton_self ps)) hps.symm
  | cons act acts ih =>
    obtain ⟨ps, qss, rfl, hps, hqss⟩ := List.map_eq_cons_iff.1 hs.symm
    exact ⟨hflows (hpackets ps List.mem_cons_self) hps.symm,
      ih (fun qs hqs => hpackets qs (List.mem_cons_of_mem _ hqs)) hqss.symm⟩

/-- The device accepts the connection of a host port, sends two bytes, and leaves a gap. -/
def answers (port : UInt16) : List Bytes :=
  (replies.take 3).map fun x => Ends.sample.packet { x with destination := port }

/-- The tunnel brings some packets. -/
def bring (packets : List Bytes) : Act :=
  .world packets.flatten .silent none

namespace Course

theorem Fair.of_streams {c : Course} (pss : List (List Bytes))
    (hlossless : (play c.acts (ofEnds c.ends)).journal.any Event.isLost = false)
    (hpackets : ∀ ps ∈ pss, ∀ bs ∈ ps, WellFormed bs)
    (hs : streams c.acts (ofEnds c.ends) = pss.map List.flatten) : c.Fair where
  lossless := by simpa [Journal.Lossless] using hlossless
  flows := flowsAlong_of_streams hpackets hs

/-- A connection with no other beside it. -/
def alone : Course where
  ends := Ends.sample
  before := [bring ((answers 49152).take 1)]
  peerPort := 80
  draws := [0]
  first := 7
  after := [.queue 49152 [9], bring ((answers 49152).drop 1), .flush, .process, .take 49152,
    .queue 49152 [8], .status 49152]
  port := 49152
  drawn := rfl

/-- The same connection beside one that hears, sends and is closed, and one that does not come
about, with reads that end inside of packets. -/
def beside : Course where
  ends := { Ends.sample with transport := { Ends.sample.transport with pace := fun _ => some 50 } }
  before := [bring ((answers 49153).take 1), .connect 80 [1] 100, .queue 49153 [5, 6],
    bring ((answers 49153).drop 1 ++ (answers 49152).take 1)]
  peerPort := 80
  draws := [1, 0]
  first := 7
  after := [.queue 49152 [9], .connect 81 [2] 3,
    bring ((answers 49153).take 1 ++ (answers 49152).drop 1), .take 49153, .flush, .process,
    .process, .process, .take 49152, .queue 49152 [8], .close 49153, .status 49152]
  port := 49152
  drawn := by cbv

theorem fair_alone : alone.Fair :=
  .of_streams [[], (answers 49152).take 1, [], [], (answers 49152).drop 1,
    (answers 49152).drop 1, [], [], [], []] (by cbv) (by decide +kernel) (by cbv)

theorem fair_beside : beside.Fair :=
  .of_streams [[], (answers 49153).take 1, [], [],
    (answers 49153).drop 1 ++ (answers 49152).take 1, [], [], [],
    (answers 49153).take 1 ++ (answers 49152).drop 1,
    (answers 49153).take 1 ++ (answers 49152).drop 1,
    (answers 49153).take 1 ++ (answers 49152).drop 1, (answers 49152).drop 1,
    (answers 49152).drop 2, [], [], [], [], []] (by cbv) (by decide +kernel) (by cbv)

theorem alone_eq_beside :
    alone.Fair ∧ beside.Fair ∧ alone.events = beside.events ∧ alone.answer = beside.answer ∧
      alone.link? = beside.link? ∧ alone.results = beside.results ∧ alone.sent = beside.sent ∧
      alone.packets = beside.packets := by
  have hevents : alone.events = beside.events := by cbv
  obtain ⟨hanswer, hlink, hresults, hsent, hpackets, -⟩ :=
    eq_of_events_eq fair_alone fair_beside rfl rfl rfl rfl rfl rfl hevents
  exact ⟨fair_alone, fair_beside, hevents, hanswer, hlink, hresults, hsent, hpackets⟩

/-! ### The time limit -/

/-- A connection that the device accepts in time. -/
def prompt : Course where
  ends := Ends.sample
  before := [bring ((answers 49152).take 1)]
  peerPort := 80
  draws := [0]
  first := 7
  after := [.status 49152]
  port := 49152
  drawn := rfl

/-- One that it accepts once the connection has been given up. -/
def late : Course where
  ends := Ends.sample
  before := []
  peerPort := 80
  draws := [0]
  first := 7
  after := [bring ((answers 49152).take 1), .process, .status 49152]
  port := 49152
  drawn := rfl

theorem fair_prompt : prompt.Fair :=
  .of_streams [[], (answers 49152).take 1, [], []] (by cbv) (by decide +kernel) (by cbv)

theorem fair_late : late.Fair :=
  .of_streams [[], [], (answers 49152).take 1, [], []] (by cbv) (by decide +kernel) (by cbv)

/-- What happens to all connections or comes for the ports of this one, and what is asked of its
port, whether the connection is there or not. -/
def mentions (c : Course) : List Deed :=
  c.opening.happenings c.port c.peerPort c.start ++
    along (fun s act => act.calls c.port ++ act.happenings c.port c.peerPort s) c.era c.begun

/-- The moment at which a connection is given up matters: what is mentioned of it does not tell what
comes of it. -/
theorem not_eq_of_mentions_eq :
    ¬ ∀ c d : Course, c.Fair → d.Fair → c.ends.host = d.ends.host →
      c.ends.device = d.ends.device → c.ends.mtu = d.ends.mtu → c.port = d.port →
      c.peerPort = d.peerPort → c.first = d.first →
      c.mentions = d.mentions → c.link? = d.link? := by
  intro h
  have hlink : prompt.link? = late.link? :=
    h prompt late fair_prompt fair_late rfl rfl rfl rfl rfl rfl (by cbv)
  have hprompt : prompt.link?.isSome = true := by cbv
  have hlate : late.link?.isSome = false := by cbv
  rw [hlink, hlate] at hprompt
  cases hprompt

end Course

end Stack

end Tether.Tunnel
