import Tether.Proofs.Tunnel.Sending
import Tether.Proofs.Tunnel.Writing

/-!
# What is sent for a stream

On the connection of a stream goes what was written to the stream, as far as it was served while
the connection was open, and nothing else. When the request to close an open connection is served,
all that was written before is on the connection, and its farewell follows.

* `Later`: requests are served in the order in which they were posted;
* `Accurate.step_close`: what becomes of a connection that is closed;
* `Chronicle.carried_of_lossless`: what is sent for each stream of a session;
* `write_oversized`: bytes that fit into no packet.
-/

namespace Tether.Tunnel

open Net Call

theorem Journal.lossless_iff {j : Journal} : j.Lossless ↔ j.any Event.isLost = false := by
  simp [Lossless]

namespace Switchboard

/-! ## Requests as time goes on -/

/-- A switchboard at some moment, and at a later one: what waits then waited before, or was posted
since and has a newer ticket. -/
structure Later (b c : Switchboard) : Prop where
  nextTicket : b.nextTicket ≤ c.nextTicket
  requests : ∀ r ∈ c.requests, r ∈ b.requests ∨ b.nextTicket ≤ r.1
  isRunning : c.isRunning = true → b.isRunning = true

variable {b c : Switchboard} {ticket next : Option Nat} {P : Event → Prop}

theorem Later.of_eq (hn : c.nextTicket = b.nextTicket) (hr : ∀ r ∈ c.requests, r ∈ b.requests)
    (hi : c.isRunning = true → b.isRunning = true) : Later b c :=
  ⟨Nat.le_of_eq hn.symm, fun r hm => .inl (hr r hm), hi⟩

instance : IsPreorder Switchboard Later where
  refl _ := .of_eq rfl (fun _ => id) id
  trans _ _ _ h h' := by
    refine ⟨Nat.le_trans h.nextTicket h'.nextTicket, fun r hm => ?_, h.isRunning ∘ h'.isRunning⟩
    rcases h'.requests r hm with hm | hle
    · exact h.requests r hm
    · exact .inr (Nat.le_trans h.nextTicket hle)

theorem Proceeds.later (h : Proceeds ticket next P b c) : Later b c := by
  refine .of_eq h.nextTicket (fun r hm => ?_) h.isRunning
  rcases h.requests with hr | ⟨hr, -⟩
  · exact hr ▸ hm
  · rw [hr] at hm
    cases hm

theorem Turned.later {turn : Turn} (h : Turned b turn c) : Later b c := by
  have hserved {t : Nat} {request : Request} {later : List (Nat × Request)}
      (hr : b.requests = (t, request) :: later) (s : Stack)
      (outcomes : List (Nat × Except TunnelError Nat)) :
      Later b { b with requests := later, stack := s, outcomes := outcomes } :=
    .of_eq rfl (fun r hm => hr ▸ List.mem_cons_of_mem _ hm) id
  cases h with
  | serves hr _ hc => exact trans_of Later (hserved hr _ _) hc.later
  | admits hr _ _ hc => exact trans_of Later (hserved hr _ _) hc.later
  | refuses hr _ hc => exact trans_of Later (hserved hr _ _) hc.later
  | passes _ hc => exact hc.later

theorem later_posted (b : Switchboard) (request : Request) : Later b (b.posted request) := by
  unfold posted
  split
  · refine ⟨Nat.le_succ _, fun r hm => (List.mem_append.1 hm).imp_right fun hm => ?_, id⟩
    exact Nat.le_of_eq (congrArg Prod.fst (List.mem_singleton.1 hm)).symm
  · exact refl_of Later b

theorem later_post (request : Request) : Respects Later (post request) :=
  fun b => (ends_post b request).mono (fun _ _ hc => hc.2.2 ▸ later_posted b request)
    fun _ _ hc => hc.2.2 ▸ refl_of Later b

/-- What users do, and what the world does. -/
theorem later_call {act : Act} (h : ∀ t, act ≠ .turn t) : Respects Later act.call := by
  refine respects_call later_post (fun b c hq => ?_) (fun b _ _ => .of_eq rfl (fun _ => id) id) h
  obtain ⟨_, _, _, rfl⟩ := hq
  exact .of_eq rfl (fun _ => id) id

end Switchboard

open Switchboard

theorem Session.Sound.later_step {w : Session} (hw : w.Sound) (act : Act) :
    Later w.board (w.step act).board := by
  by_cases hturn : ∃ t, act = .turn t
  · obtain ⟨t, rfl⟩ := hturn
    cases hr : w.board.isRunning with
    | true => exact (hw.turned t hr).later
    | false =>
      rw [Session.board_step_of_stopped hr]
      exact refl_of Later _
  · exact (later_call fun t ht => hturn ⟨t, ht⟩).state w.board

namespace Chronicle

/-- What is written later has a newer ticket. -/
theorem later_play {c : Chronicle} (hc : c.Sound) (acts : List Act) :
    Later c.board (c.play acts).board ∧ ∃ new, (c.play acts).writes = c.writes ++ new ∧
      ∀ x ∈ new, c.board.nextTicket ≤ x.ticket := by
  induction acts generalizing c with
  | nil => exact ⟨refl_of Later _, [], (List.append_nil _).symm, nofun⟩
  | cons act acts ih =>
    have hstep : Later c.board (c.step act).board := hc.later_step act
    obtain ⟨hlater, new, hnew, hticket⟩ := ih (c := c.step act) (hc.step act)
    refine ⟨trans_of Later hstep hlater, act.writes c.board ++ new, ?_, fun x hx => ?_⟩
    · exact hnew.trans (List.append_assoc ..)
    · rcases List.mem_append.1 hx with hx | hx
      · exact Nat.le_of_eq (Act.of_mem_writes hx).symm
      · exact Nat.le_trans hstep.nextTicket (hticket x hx)

/-- The writes of a stream that came before some moment are those with older tickets. -/
theorem writesOf_play {c : Chronicle} (hc : c.Sound) (hb : Booked c.toRecords c.board)
    (acts : List Act) (i : Nat) :
    ((c.play acts).writesOf i).filter (fun x => x.ticket < c.board.nextTicket) = c.writesOf i := by
  obtain ⟨-, new, hnew, hticket⟩ := later_play hc acts
  have hold : (c.writesOf i).filter (fun x => x.ticket < c.board.nextTicket) = c.writesOf i := by
    refine List.filter_eq_self.2 fun x hx => ?_
    simpa using (hb.known x (Records.mem_writesOf.1 hx).1).1
  have hlate : (new.filter fun x => x.stream = i).filter
      (fun x => x.ticket < c.board.nextTicket) = [] := by
    refine List.filter_eq_nil_iff.2 fun x hx => ?_
    simpa using hticket x (List.mem_of_mem_filter hx)
  rw [Records.writesOf, hnew, List.filter_append, List.filter_append, hlate, List.append_nil]
  exact hold

end Chronicle

/-! ## Closing an open connection -/

/-- What is sent on a connection when the request to close it is served. -/
theorem Switchboard.ends_serve_close {b : Switchboard} {port : UInt16} {l : Link} {n : Nat}
    {a : Account} (hk : b.stack.Kept) (hp : port ∈ b.routedPorts)
    (hl : b.stack.links.get? port = some l) (hn : b.stack.ledger.holder port = some n)
    (ha : b.stack.ledger.accounts[n]? = some a) (ticket : Nat) :
    (serve ticket (.close port)).Ends b
      (fun _ c => c.stack.journal.Lossless → ∃ a', c.stack.ledger.accounts[n]? = some a' ∧
        a.Utters (l.parting port b.stack.segmentSize) a')
      (fun _ c => c.stack.journal.Lossless → ∃ a', c.stack.ledger.accounts[n]? = some a' ∧
        a.Utters (l.parting port b.stack.segmentSize) a') := by
  have hroute : (b.routes.any fun route => route.1 = port) = true := by
    obtain ⟨r, hr, rfl⟩ := List.mem_map.1 hp
    exact List.any_eq_true.2 ⟨r, hr, by simp⟩
  -- Once the connection is closed, nothing happens to it any more.
  have hrest {c : Switchboard} (hc : c.stack.journal.Lossless →
      (∀ q, c.stack.ledger.holder q ≠ some n) ∧ ∃ a', c.stack.ledger.accounts[n]? = some a' ∧
        a.Utters (l.parting port b.stack.segmentSize) a') :
      dispatch.Ends c
        (fun _ d => d.stack.journal.Lossless → ∃ a', d.stack.ledger.accounts[n]? = some a' ∧
          a.Utters (l.parting port b.stack.segmentSize) a')
        (fun _ d => d.stack.journal.Lossless → ∃ a', d.stack.ledger.accounts[n]? = some a' ∧
          a.Utters (l.parting port b.stack.segmentSize) a') := by
    have hproceeds : dispatch.Ends c (fun _ => Proceeds none none Unqueued c)
        (fun _ => Proceeds none none Unqueued c) := proceeds_dispatch c
    refine hproceeds.mono (fun _ d hd hless => ?_) fun _ d hd hless => ?_
    all_goals
      obtain ⟨hfree, a', hacc, hutters⟩ := hc (hd.grows.lossless hless)
      obtain ⟨es, hj, -⟩ := hd.grows.events
      refine ⟨a', ?_, hutters⟩
      rw [Stack.ledger, hj]
      exact (Ledger.getElem?_append_of_not_held (List.getElem?_eq_some_iff.1 hacc).1 hfree
        es).trans hacc
  rw [serve, ends_bind, ends_get, if_pos hroute, ends_bind, hangUp, ends_bind, unroute,
    ends_modify, tryOnStack, onStack, ends_bind, ends_attempt, ends_zoom]
  refine (Stack.ends_close_utters hk hl hn ha).mono (fun _ t ht => ?_) fun h t ht => ?_
  · exact hrest fun _ => ht
  · cases h with
    | waiting => exact absurd rfl ht.1
    | failed e => exact hrest fun hless => absurd hless ht.2

namespace Chronicle

namespace Accurate

variable {s : Stack} {c : Chronicle} {i n ticket : Nat} {a : Account} {request : Request}
  {later : List (Nat × Request)} {u : Stream}

/-- What was sent for a stream, if nothing was lost. -/
theorem carried_eq (h : Accurate s c) (hless : c.board.stack.journal.Lossless)
    (hn : c.owners[i]? = some n) (ha : c.board.stack.ledger.accounts[n]? = some a) :
    a.pending = [] ∧ a.queued = a.carried ∧
      a.carried = (c.admittedOf i).flatMap Write.bytes := by
  have hmem := List.mem_iff_getElem?.2 ⟨n, ha⟩
  have hspent := h.credits.spent hless n (List.mem_of_getElem? hn) a ha
  have hcomplete := (h.kept.valid.sequenced a hmem).complete (h.kept.valid.lost_eq_nil hless a hmem)
  rw [hspent, List.append_nil] at hcomplete
  exact ⟨hspent, hcomplete.symm, hcomplete.trans (h.credits.queued i n a hn ha)⟩

/-- The link of an open connection of a stream. -/
theorem exists_link (h : Accurate s c) (hless : c.board.stack.journal.Lossless)
    (hu : c.board.streams[i]? = some u) (hn : c.owners[i]? = some n)
    (hopen : c.board.stack.ledger.IsOpen n) :
    ∃ a l, c.board.stack.ledger.accounts[n]? = some a ∧ a.port = u.port ∧
      c.board.stack.ledger.holder u.port = some n ∧ c.board.stack.links.get? u.port = some l ∧
      l.status = .connected ∧ l.queued = [] := by
  obtain ⟨p, l, a, hp, ha, hport, hl, hs⟩ := h.kept.exists_link_of_isOpen hopen
  obtain ⟨b, hb, hp'⟩ := h.sound.exists_account hu hn
  obtain rfl := Option.some.inj (ha.symm.trans hb)
  obtain rfl : p = u.port := hport.symm.trans hp'
  obtain ⟨b, hat, htells⟩ := h.kept.exists_account hl
  obtain rfl := Option.some.inj (hat.symm.trans (Ledger.at?_eq_some_iff.2 ⟨n, hp, ha⟩))
  exact ⟨b, l, ha, hport, hp, hl, hs, htells.queued.trans (h.carried_eq hless hn ha).1⟩

/-- An open connection of a stream is on a route. -/
theorem mem_routedPorts (h : Accurate s c) (hr : c.board.isRunning = true)
    (hn : c.owners[i]? = some n) (hport : c.board.stack.ledger.holder u.port = some n) :
    u.port ∈ c.board.routedPorts := by
  refine (h.routes hr u.port n hport).resolve_left fun hold => ?_
  obtain ⟨b, -, hb, -⟩ := (Ledger.sound_ofJournal s.journal).exists_at? hold
  have hnew := h.credits.newer n (List.mem_of_getElem? hn)
  exact absurd (List.getElem?_eq_some_iff.1 hb).1 (Nat.not_lt.2 hnew)

/-- When the request to close an open connection is served, its farewell is sent, and nothing
else. -/
theorem step_close (h : Accurate s c) (hr : c.board.isRunning = true)
    (hu : c.board.streams[i]? = some u) (hn : c.owners[i]? = some n)
    (hrequests : c.board.requests = (ticket, .close u.port) :: later)
    (hopen : c.board.stack.ledger.IsOpen n)
    (ha : c.board.stack.ledger.accounts[n]? = some a)
    (hless : (c.step (.turn .atRequests)).board.stack.journal.Lossless) :
    ∃ a' x, (c.step (.turn .atRequests)).board.stack.ledger.accounts[n]? = some a' ∧
      a'.sent = a.sent ++ [x] ∧ x.control.fin = true := by
  have hgrows : Stack.Grows (fun _ => True) c.board.stack (c.step (.turn .atRequests)).board.stack :=
    h.sound.grows_step (.turn .atRequests)
  obtain ⟨b, l, hb, -, hport, hl, hs, hq⟩ := h.exists_link (hgrows.lossless hless) hu hn hopen
  obtain rfl := Option.some.inj (ha.symm.trans hb)
  have hserve := ends_serve_close (b := { c.board with requests := later }) h.kept
    (h.mem_routedPorts hr hn hport) hl hport ha ticket
  rw [Link.parting_eq_farewell hs hq] at hserve
  have hstep : (c.step (.turn .atRequests)).board.stack.journal.Lossless →
      ∃ a', (c.step (.turn .atRequests)).board.stack.ledger.accounts[n]? = some a' ∧
        a.Utters [l.segment u.port Link.farewell []] a' := by
    refine h.sound.step_turn (P := fun d => d.stack.journal.Lossless → ∃ a',
      d.stack.ledger.accounts[n]? = some a' ∧ a.Utters [l.segment u.port Link.farewell []] a')
      .atRequests (fun hstopped => absurd (hr.symm.trans hstopped) Bool.noConfusion) fun _ _ => ?_
    rw [take, serveNext, ends_bind, ends_get, hrequests]
    dsimp only
    rw [ends_bind, ends_modify]
    exact hserve
  obtain ⟨a', ha', hutters⟩ := hstep hless
  exact ⟨a', _, ha', hutters.sent, rfl⟩

/-- A flush without an error, when none before it had one, is about all that was written. -/
theorem ends_flush (h : Accurate s c) (hless : c.board.stack.journal.Lossless)
    (hu : c.board.streams[i]? = some u) (hn : c.owners[i]? = some n)
    (ha : c.board.stack.ledger.accounts[n]? = some a) (hf : i ∉ c.failing) :
    (Stream.flush i).Ends c.board (fun _ _ => a.carried = (c.writesOf i).flatMap Write.bytes)
      (fun _ _ => True) := by
  refine (Switchboard.ends_flush hu).mono (fun _ _ hc => ?_) fun _ _ _ => trivial
  obtain ⟨-, -, hcarried⟩ := h.carried_eq hless hn ha
  suffices hall : c.admittedOf i = c.writesOf i by rw [hcarried, hall]
  refine List.filter_eq_self.2 fun x hx => ?_
  obtain ⟨hw, rfl⟩ := Records.mem_writesOf.1 hx
  have hok : ∃ k, (x.ticket, .ok k) ∈ c.board.outcomes := by
    rcases h.booked.flushed x hw hf with ⟨v, hv, hm⟩ | hk
    · obtain rfl := Option.some.inj (hu.symm.trans hv)
      exact (hc.1 _ hm).mem
    · exact hk
  obtain ⟨k, hk⟩ := hok
  simpa using h.booked.granted x hw k hk

/-- The request that a stream posts to be closed, as long as it waits. -/
theorem eq_close (h : Accurate s c) (hu : c.board.streams[i]? = some u) {act : Act}
    (hact : act = .close i ∨ act = .drop i) {acts : List Act}
    (hr : ((c.step act).play acts).board.isRunning = true)
    (hm : (c.board.nextTicket, request) ∈ ((c.step act).play acts).board.requests) :
    request = .close u.port := by
  obtain ⟨hlater, -⟩ := later_play (c := c.step act) (h.sound.step act) acts
  have hrun : c.board.isRunning = true := (h.sound.later_step act).isRunning (hlater.isRunning hr)
  have hposted : (c.step act).board.requests = (c.board.posted (.close u.port)).requests ∧
      (c.step act).board.nextTicket = (c.board.posted (.close u.port)).nextTicket := by
    refine Call.Ends.state (P := fun d : Switchboard =>
      d.requests = (c.board.posted (.close u.port)).requests ∧
        d.nextTicket = (c.board.posted (.close u.port)).nextTicket) ?_
    rcases hact with rfl | rfl
    · exact (ends_close hu).mono (fun _ _ hc => hc ▸ ⟨rfl, rfl⟩) fun _ _ => False.elim
    · exact (ends_release hu).mono (fun _ _ hc => hc ▸ ⟨rfl, rfl⟩) fun _ _ => False.elim
  obtain ⟨hrequests, hnext⟩ := hposted
  rw [posted, if_pos hrun] at hrequests hnext
  rcases hlater.requests _ hm with hm | hle
  · rw [hrequests] at hm
    rcases List.mem_append.1 hm with hm | hm
    · exact absurd (h.booked.issued _ hm) (Nat.lt_irrefl _)
    · exact congrArg Prod.snd (List.mem_singleton.1 hm)
  · rw [hnext] at hle
    exact absurd hle (Nat.not_succ_le_self _)

end Accurate

/-- What is sent for the streams of a session, under any schedule, as long as each segment goes
whole into the tunnel and no two streams get one port:

* what the tunnel took are the packets with the segments that were sent;
* for each stream, on its own connection, these carry what was written to it, of what was served
  while the connection was open, in the order of the writes;
* a farewell is the last segment of its connection, and all these bytes stand before it;
* if a flush of a stream ends without an error, and none before it had one, the tunnel has got all
  that was written to the stream;
* when the request is served that a stream posted to be closed or given up, and the connection is
  open then, its farewell is sent behind all that was written before the request. -/
theorem carried_of_lossless {e : Tunnel.Ends} {before : List Stack.Act} {acts : List Act}
    {c : Chronicle} (hc : c = run e before acts) (hless : c.board.stack.journal.Lossless)
    (hnodup : c.ports.Nodup) :
    (∃ packets, List.Forall₂ (fun x p => c.board.stack.packetOf x = .ok p)
        c.board.stack.journal.posts packets ∧
      c.board.stack.transport.sent = e.transport.sent ++ packets.flatten) ∧
    ∀ i s, c.board.streams[i]? = some s → ∃ n a, c.owners[i]? = some n ∧
      c.board.stack.ledger.accounts[n]? = some a ∧ a.port = s.port ∧
      a.sent.Sublist c.board.stack.journal.posts ∧
      a.carried = (c.admittedOf i).flatMap Write.bytes ∧
      (∀ k x, a.sent[k]? = some x → x.control.fin = true →
        k + 1 = a.sent.length ∧ a.carriedBefore k = a.carried) ∧
      (i ∉ c.failing → (Stream.flush i).Ends c.board
        (fun _ _ => a.carried = (c.writesOf i).flatMap Write.bytes) (fun _ _ => True)) ∧
      ∀ earlier act later request waiting, acts = earlier ++ act :: later →
        act = .close i ∨ act = .drop i → i < (run e before earlier).board.streams.length →
        c.board.isRunning = true →
        c.board.requests = ((run e before earlier).board.nextTicket, request) :: waiting →
        c.board.stack.ledger.IsOpen n →
        (c.step (.turn .atRequests)).board.stack.journal.Lossless →
        request = .close s.port ∧ ∃ a' x,
          (c.step (.turn .atRequests)).board.stack.ledger.accounts[n]? = some a' ∧
          a'.sent = a.sent ++ [x] ∧ x.control.fin = true ∧
          a'.carriedBefore a.sent.length = ((run e before earlier).writesOf i).flatMap Write.bytes := by
  subst hc
  have h := accurate_run hnodup
  refine ⟨?_, fun i s hs => ?_⟩
  · have hg := Session.grows_run e before acts
    rw [← toSession_run] at hg
    obtain ⟨es, hj, -, hw⟩ := hg.events
    have hes : (run e before acts).board.stack.journal = es := hj.trans (List.append_nil es)
    rw [hes] at hless ⊢
    rw [Stack.packetOf_congr hg.host hg.device]
    exact hw hless
  · have hi : i < (run e before acts).owners.length :=
      h.sound.owners ▸ (List.getElem?_eq_some_iff.1 hs).1
    have hn := List.getElem?_eq_getElem hi
    obtain ⟨a, ha, hport⟩ := h.sound.exists_account hs hn
    have hmem := List.mem_iff_getElem?.2 ⟨_, ha⟩
    obtain ⟨-, hqueued, hcarried⟩ := h.carried_eq hless hn ha
    refine ⟨_, a, hn, ha, hport, Ledger.sent_sublist ha, hcarried, fun k x hx hfin => ?_,
      h.ends_flush hless hs hn ha, ?_⟩
    · have hfarewell := (h.kept.valid.sequenced a hmem).farewell
        (h.kept.valid.lost_eq_nil hless a hmem) k x hx hfin
      rwa [hqueued] at hfarewell
    · rintro earlier act later request waiting rfl hact hlt hr hrequests hopen hless'
      have hplay : run e before (earlier ++ act :: later) =
          ((run e before earlier).step act).play later := run_append ..
      have hsound : (run e before earlier).Sound := by
        rw [toSession_run]
        exact Session.sound_run e before earlier
      have hprefix : (run e before earlier).ports <+:
          (run e before (earlier ++ act :: later)).ports := by
        rw [hplay, toSession_play]
        exact hsound.ports_prefix_play (act :: later)
      have hearlier := accurate_run (hnodup.sublist hprefix.sublist)
      -- The stream had its port when it asked to be closed.
      obtain ⟨u, hu⟩ : ∃ u, (run e before earlier).board.streams[i]? = some u :=
        ⟨_, List.getElem?_eq_getElem hlt⟩
      have hp : u.port = s.port := by
        obtain ⟨rest, hrest⟩ := hprefix
        have hports := congrArg (fun ports => ports[i]?) hrest
        dsimp only [Session.ports] at hports
        rw [List.getElem?_append_left (by rwa [List.length_map]), List.getElem?_map,
          List.getElem?_map, hu, hs] at hports
        exact Option.some.inj hports
      have hclose : request = .close s.port := by
        rw [hplay] at hr hrequests
        exact hp ▸ hearlier.eq_close hu hact hr (hrequests ▸ List.mem_cons_self)
      subst hclose
      obtain ⟨a', x, ha', hsent, hfin⟩ := h.step_close hr hs hn hrequests hopen ha hless'
      refine ⟨rfl, a', x, ha', hsent, hfin, ?_⟩
      have hbefore : a'.carriedBefore a.sent.length = a.carried := by
        rw [Account.carriedBefore, hsent, List.take_left, Account.carried]
      rw [hbefore, hcarried, h.tallies.admittedOf_eq h.booked hrequests hn hopen, hplay]
      exact congrArg _ (writesOf_play hearlier.sound hearlier.booked (act :: later) i)

/-! ### A stream that is closed, and one that is given up -/

/-- A stream is opened and written to, twice, and then its user asks to close it. The writes are
served, and the request to close the stream is next. -/
def closing : List Act :=
  Session.feeding.take 3 ++
    [.write 0 [9], .write 0 [8, 7], .close 0, .turn .atRequests, .turn .atRequests]

/-- A stream is opened, written to and given up. Before any of this is served, two bytes arrive for
it. -/
def leaving : List Act :=
  Session.feeding.take 3 ++ [.write 0 [9], .drop 0,
    .world (((Stack.replies.drop 1).take 1).flatMap Ends.sample.packet) .silent none]

/-- The session of the closed stream, before its request to close is served. -/
theorem run_closing :
    ((run Ends.sample [] closing).board.isRunning, (run Ends.sample [] closing).ports,
      (run Ends.sample [] closing).owners, (run Ends.sample [] closing).board.requests) =
        (true, [49152], [0], [(3, .close 49152)]) ∧
      (run Ends.sample [] closing).board.stack.ledger.holder 49152 = some 0 ∧
      ((run Ends.sample [] closing).board.stack.ledger.accounts.map fun a => a.heard.status) =
        [.connected] ∧
      (run Ends.sample [] closing).board.stack.journal.any Event.isLost = false ∧
      ((run Ends.sample [] closing).step
        (.turn .atRequests)).board.stack.journal.any Event.isLost = false := by
  refine ⟨?_, ?_, ?_, ?_, ?_⟩
  all_goals cbv

/-- What was written before the request to close the stream. -/
theorem run_closing_take :
    ((run Ends.sample [] (closing.take 5)).board.nextTicket,
      (run Ends.sample [] (closing.take 5)).board.streams.length,
      ((run Ends.sample [] (closing.take 5)).writesOf 0).flatMap Write.bytes) =
        (3, 1, [9, 8, 7]) := by
  cbv

theorem carriedBefore_closing :
    (run Ends.sample [] closing).board.stack.journal.Lossless ∧
      (run Ends.sample [] closing).ports.Nodup ∧
      ((run Ends.sample [] closing).step (.turn .atRequests)).board.stack.journal.Lossless ∧
      ∃ a a' x, (run Ends.sample [] closing).board.stack.ledger.accounts[0]? = some a ∧
        ((run Ends.sample [] closing).step
          (.turn .atRequests)).board.stack.ledger.accounts[0]? = some a' ∧
        a'.sent = a.sent ++ [x] ∧ x.control.fin = true ∧
        a'.carriedBefore a.sent.length = [9, 8, 7] := by
  obtain ⟨hboard, hheld, hstatus, hless, hless'⟩ := run_closing
  simp only [Prod.mk.injEq] at hboard
  obtain ⟨hr, hports, howners, hrequests⟩ := hboard
  have hearlier := run_closing_take
  simp only [Prod.mk.injEq] at hearlier
  obtain ⟨hnext, hlength, hwrites⟩ := hearlier
  rw [← Journal.lossless_iff] at hless hless'
  have hnodup : (run Ends.sample [] closing).ports.Nodup := hports ▸ List.nodup_singleton _
  obtain ⟨s, hs, -⟩ : ∃ s, (run Ends.sample [] closing).board.streams[0]? = some s ∧
      s.port = 49152 := by
    have hport := congrArg (fun ports => ports[0]?) hports
    dsimp only [Session.ports] at hport
    rw [List.getElem?_map] at hport
    exact Option.map_eq_some_iff.1 hport
  obtain ⟨-, hall⟩ := carried_of_lossless rfl hless hnodup
  obtain ⟨n, a, hn, ha, -, -, -, -, -, hclose⟩ := hall 0 s hs
  obtain rfl : n = 0 := by simpa [howners] using hn.symm
  have hopen : (run Ends.sample [] closing).board.stack.ledger.IsOpen 0 := by
    have hconnected := congrArg (fun statuses => statuses[0]?) hstatus
    rw [List.getElem?_map, ha] at hconnected
    exact ⟨49152, a, hheld, ha, Option.some.inj hconnected⟩
  obtain ⟨-, a', x, ha', hsent, hfin, hcarried⟩ := hclose (closing.take 5) (.close 0)
    [.turn .atRequests, .turn .atRequests] _ [] rfl (.inl rfl) (hlength ▸ Nat.one_pos) hr
    (hnext ▸ hrequests) hopen hless'
  exact ⟨hless, hnodup, hless', a, a', x, ha, ha', hsent, hfin, hcarried.trans hwrites⟩

end Chronicle

/-! ## Bytes that no packet takes -/

namespace Ledger

variable {l : Ledger} {port : UInt16} {n : Nat} {a : Account} {bytes : Bytes} {x : Segment}

theorem holder_note_lost (l : Ledger) (port : UInt16) (bytes : Bytes) (x : Segment) :
    ((l.note (.queued port bytes)).note (.lost x)).holder = l.holder :=
  (holder_change ..).trans (holder_change ..)

/-- What the account of a port comes to when bytes are queued and lost. -/
theorem getElem?_note_lost (hp : l.holder port = some n) (ha : l.accounts[n]? = some a)
    (hb : bytes ≠ []) (hsource : x.source = port) (hx : x.payload = bytes) :
    ((l.note (.queued port bytes)).note (.lost x)).accounts[n]? = some { a with
      queued := a.queued ++ bytes
      pending := []
      lost := a.lost ++ [x] } := by
  have hqueued := getElem?_note ha (.queued port bytes)
  rw [Event.port, if_pos hp] at hqueued
  have hlost := getElem?_note hqueued (.lost x)
  have hholder : (l.note (.queued port bytes)).holder = l.holder := holder_change ..
  rw [Event.port, hsource, hholder, if_pos hp] at hlost
  rw [hlost, Account.note, Account.note, if_neg (by simp [hx, hb])]

end Ledger

namespace Stack

variable {s : Stack} {port : UInt16} {l : Link} {bytes : Bytes}

/-- What is not longer than a piece is one piece. -/
theorem pieces_of_length_le {size : Nat} (hb : bytes ≠ []) (h : bytes.length ≤ size) :
    pieces size bytes = [bytes] := by
  cases bytes with
  | nil => exact absurd rfl hb
  | cons x xs =>
    rw [List.length_cons] at h
    have hle : xs.length ≤ size - 1 := Nat.le_sub_one_of_lt h
    rw [pieces, List.take_of_length_le hle, List.drop_of_length_le hle, pieces]

/-- The length of a packet of version 4 is less than 65536. -/
theorem packetOf_ne_ok {x : Segment} {a d : Ipv4Address} (hh : s.host = .v4 a)
    (hd : s.device = .v4 d) (hx : 65496 ≤ x.payload.length) (packet : Bytes) :
    s.packetOf x ≠ .ok packet := by
  have hlength (sum : Nat) : (x.assemble sum).length = 20 + x.payload.length := by
    simp [Segment.assemble]
    omega
  rw [packetOf, hh, hd]
  have hlarge : ¬ 20 + (20 + x.payload.length) < 65536 := by omega
  simp [Segment.toBytes, Segment.pseudoHeader?, bind, Except.bind, wrap, Ipv4Packet.create,
    Ipv4Packet.headerLength, hlength, hlarge]

/-- Bytes that are one piece, and whose segment fits into no packet, are queued and lost. -/
theorem ends_send_oversized (h : s.Kept) (hidle : ∀ p, s.IsIdle p)
    (hl : s.links.get? port = some l) (hs : l.status = .connected) (hb : bytes ≠ [])
    (hsize : bytes.length ≤ s.segmentSize)
    (hp : ∀ packet, s.packetOf (l.segment port Link.carrying bytes) ≠ .ok packet) :
    (do queue port bytes; flush : Call TunnelError Stack Unit).Ends s (fun _ _ => False)
      (fun _ t => t.journal = .lost (l.segment port Link.carrying bytes) :: .queued port bytes ::
        s.journal) := by
  have hq : l.queued = [] := hidle port l hl
  rw [ends_bind]
  refine ((ends_queue h hl hs bytes).and (grows_queue port bytes s)).mono (fun _ t ht => ?_)
    fun _ _ ht => ht.1.elim
  obtain ⟨⟨hk, hj, hlinks⟩, hg⟩ := ht
  rw [hq, List.nil_append] at hlinks
  have hl' : t.links.get? port = some { l with queued := bytes } := by
    rw [hlinks, Table.get?_update_self hl]
  have hidle' : ∀ p, p ≠ port → t.IsIdle p := by
    intro p hne l' hl'
    rw [hlinks, Table.get?_update_of_ne hne] at hl'
    exact hidle p l' hl'
  rw [flush, ends_bind, ends_get]
  dsimp only
  rcases ports_busy hk hidle' with hports | ⟨-, hnone⟩
  · rw [hports, List.forM, ends_bind, flushLink, ends_bind]
    refine (ends_linkAt hl').mono (fun l' u hu => ?_) fun _ _ => False.elim
    obtain ⟨rfl, rfl⟩ := hu
    rw [setLink, ends_bind, ends_modify, ends_bind, ends_get]
    dsimp only
    rw [pieces_of_length_le hb (hg.segmentSize ▸ hsize), List.forM, List.forM, ends_bind, sendPiece,
      ends_bind]
    refine (ends_transmit (Table.get?_update_self hl') _ _).mono (fun _ v hv => ?_)
      fun _ v hv => ?_
    · obtain ⟨_, _, packet, hpacket, -⟩ := hv
      exact absurd ((congrFun (packetOf_congr hg.host hg.device) _).symm.trans hpacket) (hp packet)
    · obtain ⟨-, _, _, rfl⟩ := hv
      exact congrArg _ hj
  · exact absurd (hnone _ hl') hb

end Stack

namespace Switchboard.Ready

variable {b : Switchboard} {port : UInt16} {l : Link} {n : Nat} {a : Account} {bytes : Bytes}

/-- So the bytes are queued and lost, and nothing else happens to any connection. -/
theorem serve_send_oversized (h : Calm b) (hl : b.stack.links.get? port = some l)
    (hs : l.status = .connected) (hb : bytes ≠ []) (hsize : bytes.length ≤ b.stack.segmentSize)
    (hp : ∀ packet, b.stack.packetOf (l.segment port Link.carrying bytes) ≠ .ok packet)
    (ticket : Nat) :
    (Switchboard.serve ticket (.send port bytes)).Ends b
      (fun _ c => ∃ t outcomes, c = { b with stack := t, outcomes := outcomes } ∧
        t.ledger = (b.stack.ledger.note (.queued port bytes)).note
          (.lost (l.segment port Link.carrying bytes)))
      (fun _ _ => False) := by
  unfold Switchboard.serve Switchboard.onStack
  rw [ends_bind, ends_attempt, ends_zoom]
  refine ((Stack.ends_send h.kept h.isIdle port bytes).and
    (Stack.ends_send_oversized h.kept h.isIdle hl hs hb hsize hp)).mono
      (fun _ _ ht => ht.2.elim) fun h' t ht => ?_
  obtain ⟨⟨hwaiting, hk, hidle, hg⟩, hj⟩ := ht
  cases h' with
  | waiting => exact absurd rfl hwaiting
  | failed e =>
    -- Passing on finds nothing to do.
    have hrest (outcomes : List (Nat × Except TunnelError Nat)) :
        Switchboard.dispatch.Ends { b with stack := t, outcomes := outcomes }
          (fun _ d => ∃ v outcomes, d = { b with stack := v, outcomes := outcomes } ∧
            v.ledger = t.ledger) (fun _ _ => False) := by
      have hcalm : Calm { b with stack := t, outcomes := outcomes } :=
        (h.sent hk hidle hg).of_eq rfl rfl
      refine hcalm.dispatch_calm.mono (fun _ d hd => ?_) fun _ _ => id
      obtain ⟨v, rfl, -, hv⟩ := hd
      obtain ⟨es, hes, hvoid, -⟩ := hv.events
      refine ⟨v, outcomes, rfl, ?_⟩
      rw [Stack.ledger, hes, Ledger.ofJournal_append_of_isVoid hvoid, Stack.ledger]
    refine (hrest _).mono (fun _ d hd => ?_) fun _ _ => id
    obtain ⟨v, outcomes, rfl, hv⟩ := hd
    refine ⟨v, outcomes, rfl, ?_⟩
    rw [hv, Stack.ledger, hj]
    rfl

end Switchboard.Ready

namespace Chronicle

variable {c : Chronicle} {i n : Nat} {u : Stream} {l : Link} {a : Account} {bytes : Bytes}

/-- Such bytes are written to a stream whose connection is open, and the request to send them is
served. They are queued and lost. -/
theorem write_oversized (hc : c.Sound) (hrests : Rests c.board) (hr : c.board.isRunning = true)
    (hrequests : c.board.requests = []) (hu : c.board.streams[i]? = some u)
    (hl : c.board.stack.links.get? u.port = some l) (hs : l.status = .connected) (hb : bytes ≠ [])
    (hsize : bytes.length ≤ c.board.stack.segmentSize)
    (hp : ∀ packet, c.board.stack.packetOf (l.segment u.port Link.carrying bytes) ≠ .ok packet) :
    (c.play [.write i bytes, .turn .atRequests]).writes =
        c.writes ++ [⟨i, c.board.nextTicket, bytes⟩] ∧
      (c.play [.write i bytes, .turn .atRequests]).admitted = c.admitted ++ [c.board.nextTicket] ∧
      ∃ t outcomes, (c.play [.write i bytes, .turn .atRequests]).board = { c.board with
          requests := []
          nextTicket := c.board.nextTicket + 1
          streams := c.board.streams.set i { u with writes := u.writes ++ [c.board.nextTicket] }
          stack := t
          outcomes := outcomes } ∧
        t.ledger = (c.board.stack.ledger.note (.queued u.port bytes)).note
          (.lost (l.segment u.port Link.carrying bytes)) := by
  have hwrite : (c.step (.write i bytes)).board = { c.board.posted (.send u.port bytes) with
      streams := c.board.streams.set i { u with writes := u.writes ++ [c.board.nextTicket] } } := by
    refine Call.Ends.state (P := fun d => d = _) ?_
    rw [Act.call, ends_bind]
    refine (ends_write hu bytes).mono (fun _ d hd => hd.2.2) fun _ d hd => ?_
    exact absurd (hr.symm.trans hd.1) Bool.noConfusion
  have hrests' : Rests (c.step (.write i bytes)).board := hc.rests_step hrests _
  have hsound : (c.step (.write i bytes)).Sound := hc.step _
  have hwrites : (c.step (.write i bytes)).writes =
      c.writes ++ [⟨i, c.board.nextTicket, bytes⟩] := by
    rw [step, Act.writes, if_pos ⟨(List.getElem?_eq_some_iff.1 hu).1, hr⟩]
  have hadmitted : (c.step (.write i bytes)).admitted = c.admitted := List.append_nil _
  rw [posted, if_pos hr, hrequests, List.nil_append] at hwrite
  have hcalm : Calm (c.step (.write i bytes)).board := hrests' (by rw [hwrite]; exact hr)
  refine ⟨(List.append_nil _).trans hwrites, ?_, ?_⟩
  · have hconnected : c.board.stack.isConnected u.port = true :=
      Stack.isConnected_iff.2 ⟨l, hl, hs⟩
    change (c.step (.write i bytes)).admitted ++ Act.admits (c.step (.write i bytes)).board _ = _
    rw [hadmitted, hwrite, Act.admits]
    dsimp only
    rw [if_pos ⟨hr, hconnected⟩]
  · rw [hwrite] at hcalm
    have hcalm' := hcalm.of_eq (c := { c.board with
      requests := []
      nextTicket := c.board.nextTicket + 1
      streams := c.board.streams.set i { u with writes := u.writes ++ [c.board.nextTicket] } })
      rfl rfl
    have hserve := hcalm'.serve_send_oversized hl hs hb hsize hp c.board.nextTicket
    refine hsound.step_turn (P := fun d => ∃ t outcomes, d = { c.board with
        requests := []
        nextTicket := c.board.nextTicket + 1
        streams := c.board.streams.set i { u with writes := u.writes ++ [c.board.nextTicket] }
        stack := t
        outcomes := outcomes } ∧
      t.ledger = (c.board.stack.ledger.note (.queued u.port bytes)).note
        (.lost (l.segment u.port Link.carrying bytes))) .atRequests (fun hstopped => ?_) fun _ _ => ?_
    · rw [hwrite] at hstopped
      exact absurd (hr.symm.trans hstopped) Bool.noConfusion
    · rw [hwrite, take, serveNext, ends_bind, ends_get]
      dsimp only
      rw [ends_bind, ends_modify]
      exact hserve.mono (fun _ _ => id) fun _ _ => False.elim

/-- The ends of a tunnel whose segments may be larger than a packet. -/
def wide : Tunnel.Ends :=
  { Ends.sample with mtu := 100000 }

/-- More bytes than a packet takes. -/
def vast : Bytes :=
  List.replicate 70000 0

/-- A stream is opened, and these bytes are written to it. -/
def overfilling : List Act :=
  Session.feeding.take 3 ++ [.write 0 vast, .turn .atRequests]

theorem run_wide :
    ((run wide [] (Session.feeding.take 3)).board.isRunning,
      (run wide [] (Session.feeding.take 3)).board.requests,
      (run wide [] (Session.feeding.take 3)).board.nextTicket,
      (run wide [] (Session.feeding.take 3)).board.streams,
      (run wide [] (Session.feeding.take 3)).board.stack.links) =
        (true, [], 1, [{ port := 49152 }],
          [(49152, { peerPort := 80, sequence := 8, expected := 4294967295, status := .connected })]) ∧
      ((run wide [] (Session.feeding.take 3)).board.stack.segmentSize,
        (run wide [] (Session.feeding.take 3)).board.stack.host,
        (run wide [] (Session.feeding.take 3)).board.stack.device) =
        (99960, wide.host, wide.device) ∧
      (run wide [] (Session.feeding.take 3)).board.stack.ledger.holder 49152 = some 0 ∧
      ((run wide [] (Session.feeding.take 3)).board.stack.ledger.accounts.map fun a =>
        (a.carried, a.heard.status)) = [([], .connected)] ∧
      ((run wide [] (Session.feeding.take 3)).writes,
        (run wide [] (Session.feeding.take 3)).admitted) = ([], []) := by
  refine ⟨?_, ?_, ?_, ?_, ?_⟩
  all_goals cbv

/-- A stream is opened and bytes are written to it that no packet takes. They are queued on its open
connection, and nothing of them is sent or still to be sent. -/
theorem run_wide_write (bytes : Bytes) (h : 65496 ≤ bytes.length) (h' : bytes.length ≤ 99960) :
    ∃ d, d = run wide [] (Session.feeding.take 3 ++ [Act.write 0 bytes, .turn .atRequests]) ∧
      (d.board.isRunning, d.board.requests, d.board.nextTicket) = (true, [], 2) ∧
      (d.writes, d.admitted) = ([⟨0, 1, bytes⟩], [1]) ∧
      d.board.stack.ledger.holder 49152 = some 0 ∧
      ∃ a : Account, d.board.stack.ledger.accounts[0]? = some a ∧ a.heard.status = .connected ∧
        a.carried = [] ∧ a.pending = [] := by
  obtain ⟨hboard, hstack, hholder, haccounts, hrecords⟩ := run_wide
  simp only [Prod.mk.injEq] at hboard hstack hrecords
  obtain ⟨hr, hrequests, hnext, hstreams, hlinks⟩ := hboard
  obtain ⟨hsize, hhost, hdevice⟩ := hstack
  obtain ⟨hwrites, hadmitted⟩ := hrecords
  have hsound : (run wide [] (Session.feeding.take 3)).Sound := by
    rw [toSession_run]
    exact Session.sound_run ..
  have hrests : Rests (run wide [] (Session.feeding.take 3)).board := by
    rw [toSession_run]
    exact Session.rests_run (fun _ _ hl => by cases hl) _
  obtain ⟨a, ha, hstatus, hnone⟩ : ∃ a,
      (run wide [] (Session.feeding.take 3)).board.stack.ledger.accounts[0]? = some a ∧
        a.heard.status = .connected ∧ a.carried = [] := by
    have hzero := congrArg (fun accounts => accounts[0]?) haccounts
    rw [List.getElem?_map] at hzero
    obtain ⟨a, ha, heq⟩ := Option.map_eq_some_iff.1 hzero
    exact ⟨a, ha, congrArg Prod.snd heq, congrArg Prod.fst heq⟩
  obtain ⟨l, hl, hconnected⟩ : ∃ l : Link,
      (run wide [] (Session.feeding.take 3)).board.stack.links.get? 49152 = some l ∧
        l.status = .connected := by
    rw [hlinks]
    exact ⟨_, rfl, rfl⟩
  have hbytes : bytes ≠ [] := List.ne_nil_of_length_pos (Nat.lt_of_lt_of_le (by decide) h)
  obtain ⟨hw, hm, t, outcomes, hafter, hledger⟩ := write_oversized (i := 0) (u := { port := 49152 })
    hsound hrests hr hrequests (hstreams ▸ rfl) hl hconnected hbytes (hsize ▸ h')
    (Stack.packetOf_ne_ok hhost hdevice h)
  refine ⟨_, rfl, ?_, ?_, ?_⟩
  all_goals rw [run_append]
  · rw [hafter, hr, hnext]
  · rw [hw, hm, hwrites, hadmitted, hnext]
    rfl
  · rw [hafter]
    dsimp only
    rw [hledger]
    have haccount := Ledger.getElem?_note_lost (x := l.segment 49152 Link.carrying bytes) hholder ha
      hbytes rfl rfl
    exact ⟨(congrFun (Ledger.holder_note_lost ..) _).trans hholder, _, haccount, hstatus, hnone, rfl⟩

/-- Bytes that no packet takes are served while the connection is open, and nothing of them is
sent. -/
theorem carried_vast :
    (run wide [] overfilling).admittedOf 0 = [⟨0, 1, vast⟩] ∧
      ∃ a : Account, (run wide [] overfilling).board.stack.ledger.accounts[0]? = some a ∧
        a.carried = [] := by
  have hlength : vast.length = 70000 := List.length_replicate
  obtain ⟨d, hd, -, hrecords, -, a, ha, -, hnone, -⟩ := run_wide_write vast
    (by rw [hlength]; decide) (by rw [hlength]; decide)
  rw [overfilling, ← hd]
  obtain ⟨hwrites, hadmitted⟩ := Prod.mk.inj hrecords
  refine ⟨?_, a, ha, hnone⟩
  rw [Records.admittedOf, Records.writesOf, hwrites, hadmitted]
  simp

/-- Not all that is served while its connection is open is sent, even if the tunnel takes whatever
it is given. Bytes that no packet takes are reported as written, and none of them is sent.

Nor does all that was written before stand before each farewell. The connection of a stream that
was given up is closed as soon as something arrives for it, and what was written to the stream is
not sent any more, if it was not served by then. -/
theorem carried_incomplete :
    ((run wide [] overfilling).admittedOf 0 = [⟨0, 1, vast⟩] ∧
      ∃ a, (run wide [] overfilling).board.stack.ledger.accounts[0]? = some a ∧
        a.carried = []) ∧
      ((run Ends.sample [] (leaving.take 4)).writesOf 0,
        (run Ends.sample [] leaving).board.stack.ledger.accounts.map fun a => a.heard.status) =
          ([⟨0, 1, [9]⟩], [.connected]) ∧
      (run Ends.sample [] leaving).board.requests = [(1, .send 49152 [9]), (2, .close 49152)] ∧
      (((run Ends.sample [] leaving).step
          (.turn .atTunnel)).board.stack.ledger.accounts.map fun a =>
        (a.carried, a.sent.map fun x => x.control.fin)) = [([], [false, false, false, true])] ∧
      (((run Ends.sample [] leaving).step (.turn .atTunnel)).ports,
        ((run Ends.sample [] leaving).step
          (.turn .atTunnel)).board.stack.journal.any Event.isLost) = ([49152], false) := by
  refine ⟨carried_vast, ?_, ?_, ?_, ?_⟩
  all_goals cbv

end Chronicle

end Tether.Tunnel
