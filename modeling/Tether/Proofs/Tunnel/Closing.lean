import Tether.Proofs.Tunnel.Awaiting
import Tether.Proofs.Tunnel.Departing

/-!
# Closing a switchboard

Whoever asks for connections may also ask for the end. When that request is served, each connection
sends what it still has to and its farewell, and then the tunnel is shut down. What was asked for
later is dropped unread. No stream is told: it passes on what it has by then, and fails behind it.

* `stop_requests`: what waits makes no difference;
* `Concluded`: what serving that request leaves;
* `Stops.farewell`: what an open connection has sent by then;
* `Session.drains_of_concluded`: what a stream has to pass by then;
* `Chronicle.closes_of_lossless`: what comes of all this for those who use the switchboard.
-/

namespace Tether.Tunnel

open Net Call

namespace Switchboard

variable {b b' c c' : Switchboard} {n ticket : Nat} {a : Account} {later : List (Nat × Request)}

/-! ## Serving the request -/

/-- What waits makes no difference to a switchboard that stops. -/
theorem stop_requests (hk : b.stack.Kept) (later : List (Nat × Request)) :
    stop { b with requests := later } = stop b := by
  have hstack (d : Call TunnelError Stack Unit) :
      Commutes (fun b : Switchboard => { b with requests := later }) (tryOnStack d) := by
    refine Commutes.bind (Commutes.attempt ?_) fun _ => .pure _
    exact .zoom (fun _ => rfl) fun _ _ => rfl
  have hstop : stop = (do
      (← get).stack.links.ports.forM fun port => tryOnStack (Stack.close port)
      ((← get).routes.map Prod.fst).forM unroute
      tryOnStack Stack.shutdown : Call TunnelError Switchboard Unit) >>= fun _ =>
        modify fun b => { b with isRunning := false, requests := [] } := by
    simp only [stop, bind_assoc]
  have hends := ends_stop hk
  rw [hstop, ends_bind] at hends
  rw [hstop]
  -- What waits is not looked at, and is dropped at the end.
  refine Commutes.bind_modify (f := fun b : Switchboard => { b with requests := later }) ?_
    (fun _ => rfl) (hends.mono (fun _ _ _ => trivial) fun _ _ => id)
  refine .get_bind (fun _ => rfl) fun _ => (Commutes.forM fun _ => hstack _).bind fun _ =>
    .get_bind (fun _ => rfl) fun _ => (Commutes.forM fun port => ?_).bind fun _ => hstack _
  exact .modify fun _ => rfl

theorem Stops.of_eq (h : Stops b c) (hb : b'.stack = b.stack) (hs : c'.stack = c.stack)
    (hr : c'.routes = c.routes) (hq : c'.requests = c.requests) (hi : c'.isRunning = c.isRunning) :
    Stops b' c' where
  kept := hs ▸ h.kept
  links := hs ▸ h.links
  routes := hr ▸ h.routes
  requests := hq ▸ h.requests
  isRunning := hi ▸ h.isRunning
  isShut := hs ▸ hb ▸ h.isShut
  posts := hs ▸ hb ▸ h.posts
  utters := hs ▸ hb ▸ h.utters

/-- What serving the request to end leaves of a switchboard. -/
structure Concluded (ticket : Nat) (b c : Switchboard) : Prop where
  stops : Stops b c
  alike : Alike b c
  grows : Stack.Grows Unqueued b.stack c.stack
  length : c.streams.length = b.streams.length
  outcomes : c.outcomes = b.outcomes ++ [(ticket, .ok 0)]

theorem ends_serve_concluded (hk : b.stack.Kept) (ticket : Nat) :
    (serve ticket .shutdown).Ends b (fun _ => Concluded ticket b) (fun _ _ => False) := by
  have hproceeds : Respects (Proceeds none none Unqueued) stop := proceeds_stop
  rw [serve, ends_bind]
  refine (((ends_stop hk).and (alike_stop b)).and (hproceeds b)).mono (fun _ c hc => ?_)
    fun _ _ hc => hc.1.1
  obtain ⟨⟨hstops, halike⟩, hc⟩ := hc
  obtain ⟨os, hos, hnone⟩ := hc.outcomes
  have hos' : os = [] := List.eq_nil_iff_forall_not_mem.2 fun o ho => by cases hnone o ho
  rw [hos', List.append_nil] at hos
  exact ⟨hstops.of_eq rfl rfl rfl rfl rfl, halike, hc.grows, hc.length.resolve_right (by simp),
    congrArg (· ++ [(ticket, .ok 0)]) hos⟩

/-- A connection that is open by then says its farewell, once and at last, behind all that was
queued on it. -/
theorem Stops.farewell (h : Stops b c) (hk : b.stack.Kept) (hless : c.stack.journal.Lossless)
    (ho : b.stack.ledger.IsOpen n) (ha : b.stack.ledger.accounts[n]? = some a) :
    ∃ a' said x, c.stack.ledger.accounts[n]? = some a' ∧ a'.sent = said ++ [x] ∧
      a.sent <+: said ∧ x.control.fin = true ∧ (∀ y ∈ said, y.control.fin = false) ∧
      said.flatMap Segment.payload = a.queued := by
  obtain ⟨p, l, a₀, hheld, ha₀, -, hl, hs⟩ := hk.exists_link_of_isOpen ho
  obtain rfl := Option.some.inj (ha.symm.trans ha₀)
  obtain ⟨a', ha', hutters⟩ := h.utters hless p l n a hl hheld ha
  have hmem := List.mem_iff_getElem?.2 ⟨n, ha'⟩
  -- A farewell is the last segment of an account, and carries on all that was queued.
  have hfarewell := (h.kept.valid.sequenced a' hmem).farewell (h.kept.valid.lost_eq_nil hless a' hmem)
  have hsent := hutters.sent
  rw [Link.parting, if_pos (by simp [Stack.saysFarewell, hs]), ← List.append_assoc] at hsent
  have hprefix : a.sent <+: a.sent ++ l.burst p b.stack.segmentSize := List.prefix_append _ _
  generalize a.sent ++ l.burst p b.stack.segmentSize = said at hsent hprefix
  obtain ⟨-, hcarried⟩ := hfarewell said.length _ (by rw [hsent, List.getElem?_concat_length]) rfl
  refine ⟨a', said, _, ha', hsent, hprefix, rfl, fun y hy => ?_, ?_⟩
  · obtain ⟨k, hk⟩ := List.mem_iff_getElem?.1 hy
    have hlt := (List.getElem?_eq_some_iff.1 hk).1
    refine Bool.eq_false_iff.2 fun hfin => ?_
    obtain ⟨hlast, -⟩ := hfarewell k y (by rw [hsent, List.getElem?_append_left hlt, hk]) hfin
    rw [hsent, List.length_append, List.length_singleton] at hlast
    exact absurd (Nat.succ.inj hlast) (Nat.ne_of_lt hlt)
  · rw [Account.carriedBefore, hsent, List.take_left] at hcarried
    exact hcarried.trans hutters.queued

end Switchboard

/-- Nothing more is sent on a connection on which nothing is still to be sent, as long as nothing is
queued. -/
theorem Ledger.carried_append {size : Nat} {es j : Journal} {n : Nat} {a : Account}
    (hv : Journal.Valid size (es ++ j)) (hes : ∀ e ∈ es, Switchboard.Unqueued e)
    (ha : (ofJournal j).accounts[n]? = some a) (hp : a.pending = []) :
    ∃ a', (ofJournal (es ++ j)).accounts[n]? = some a' ∧ a'.pending = [] ∧
      a'.carried = a.carried := by
  induction es with
  | nil => exact ⟨a, ha, hp, rfl⟩
  | cons e es ih =>
    obtain ⟨hallows, hvalid⟩ := hv
    obtain ⟨b, hb, hpending, hcarried⟩ := ih hvalid fun e he => hes e (List.mem_cons_of_mem _ he)
    have hqueued := hes e List.mem_cons_self
    rw [List.cons_append, ofJournal, getElem?_note hb e]
    refine ⟨_, rfl, ?_⟩
    split
    · next hheld =>
      cases e with
      | sent x =>
        obtain ⟨b', hb', hsends⟩ := hallows
        obtain rfl : b = b' := by
          rw [at?_eq_some_iff] at hb'
          obtain ⟨m, hm, hb'⟩ := hb'
          obtain rfl := Option.some.inj (hheld.symm.trans hm)
          exact Option.some.inj (hb.symm.trans hb')
        -- A segment carries a piece of what is still to be sent.
        have hx : x.payload = [] := by
          by_contra hx
          exact hx ((hsends.payload_eq hx).trans (by rw [hpending, List.take_nil]))
        rw [Account.carried_note_sent, hx, List.append_nil]
        exact ⟨by rw [Account.note, hpending, List.drop_nil], hcarried⟩
      | lost x => exact ⟨by rw [Account.note, hpending, ite_self], hcarried⟩
      | queued => cases hqueued
      | _ => exact ⟨hpending, hcarried⟩
    · exact ⟨hpending, hcarried⟩

theorem Switchboard.Concluded.carried {b c : Switchboard} {ticket n : Nat} {a : Account}
    (h : Concluded ticket b c) (ha : b.stack.ledger.accounts[n]? = some a) (hp : a.pending = []) :
    ∃ a', c.stack.ledger.accounts[n]? = some a' ∧ a'.carried = a.carried := by
  obtain ⟨es, hj, hes, -⟩ := h.grows.events
  have hvalid := h.stops.kept.valid
  rw [hj] at hvalid
  obtain ⟨a', ha', -, hcarried⟩ := Ledger.carried_append hvalid hes ha hp
  refine ⟨a', ?_, hcarried⟩
  rw [Stack.ledger, hj]
  exact ha'

/-! ## What streams still have -/

namespace Session

open Switchboard

variable {w : Session} {i ticket : Nat} {s : Stream} {bytes : Bytes} {old : List Piece}
  {later : List (Nat × Request)}

theorem Sound.concluded (hw : w.Sound) (hr : w.board.isRunning = true)
    (hrequests : w.board.requests = (ticket, .shutdown) :: later) :
    Concluded ticket w.board (w.step (.turn .atRequests)).board := by
  obtain ⟨_, -, hd⟩ := hw.serves 0
  refine board_serveNext (P := Concluded ticket w.board) hr hrequests ?_
  refine (ends_serve_concluded (b := { w.board with requests := later }) hd.kept ticket).mono
    (fun _ c hc => ?_) fun _ _ => id
  exact ⟨hc.stops.of_eq rfl rfl rfl rfl rfl, hc.alike, hc.grows, hc.length, hc.outcomes⟩

/-- Whatever waits behind the request to end is not served: it makes no difference. -/
theorem Sound.board_step_shutdown (hw : w.Sound) (hr : w.board.isRunning = true)
    (hrequests : w.board.requests = (ticket, .shutdown) :: later) :
    (w.step (.turn .atRequests)).board =
      (Act.turn .atRequests).call.state { w.board with requests := [(ticket, .shutdown)] } := by
  obtain ⟨_, -, hd⟩ := hw.serves 0
  have hserve (queue : List (Nat × Request)) :
      serve ticket .shutdown { w.board with requests := queue } = serve ticket .shutdown w.board := by
    have hstop : stop { w.board with requests := queue } = stop w.board :=
      stop_requests hd.kept queue
    simp only [serve, Bind.bind, EStateM.bind, hstop]
  have hends := ends_serve_concluded hd.kept ticket
  cases hrun : serve ticket .shutdown w.board with
  | error h t =>
    rw [Call.Ends, hrun] at hends
    exact hends.elim
  | ok _ t =>
    have hstep (v : Session) (queue : List (Nat × Request))
        (hv : v.board = { w.board with requests := (ticket, .shutdown) :: queue }) :
        (v.step (.turn .atRequests)).board = t := by
      have hrequests : v.board.requests = (ticket, .shutdown) :: queue := by rw [hv]
      refine board_serveNext (P := (· = t)) (by rw [hv]; exact hr) hrequests ?_
      rw [Call.Ends, hv, hserve queue, hrun]
    have hboard : w.board = { w.board with requests := (ticket, .shutdown) :: later } := by
      rw [← hrequests]
    have hfirst := hstep w later hboard
    have hsecond := hstep { w with board := { w.board with requests := [(ticket, .shutdown)] } } [] rfl
    exact hfirst.trans hsecond.symm

/-- Once the request to end was served, a stream passes on what it had, and then fails. -/
theorem drains_of_concluded (hc : Concluded ticket w.board (w.step (.turn .atRequests)).board)
    (hfed : w.board.Fed) (hs : w.board.streams[i]? = some s) (he : s.hasEnded = false)
    (hp : Stream.IsPlain s.inbox) :
    (w.step (.turn .atRequests)).Passes (Stream.Drains (s.passed [])) (w.readsOf i) i := by
  obtain ⟨t, ht, hlike⟩ := hc.alike i s hs
  have hunfed : t.isFed = false := by
    refine Bool.eq_false_iff.2 fun h => ?_
    obtain ⟨p, hp⟩ := w.feeds_step (.turn .atRequests) hfed i t ht h
    rw [hc.stops.routes] at hp
    cases hp
  refine ⟨hc.stops.isRunning, [], t, ?_, ht,
    .of_plain hunfed (hlike.hasEnded.trans he) (hlike.inbox ▸ hp) nofun ?_⟩
  · rw [readsOf_step_of_nil rfl, List.append_nil]
  · rw [Stream.passed, Stream.passed, hlike.rest, hlike.inbox]

/-- What was read of such a stream: bytes at first, and behind all of them, that the switchboard is
closed. A read returns one or the other. -/
theorem Passes.reads (h : w.Passes (Stream.Drains bytes) old i) :
    ∃ first k, w.readsOf i = old ++ first ++ List.replicate k (.error closed) ∧
      Stream.IsPlain first ∧ bytesOf first <+: bytes ∧ (0 < k → bytesOf first = bytes) ∧
      ∀ most hm, (Act.read i most hm).result w.board ≠ [] := by
  obtain ⟨-, new, s, hreads, hs, hdrains⟩ := h
  obtain ⟨first, k, rfl, hplain, hpassed, hall⟩ := hdrains.reads
  rw [Stream.passed, List.append_assoc] at hpassed
  refine ⟨first, k, ?_, hplain, ⟨_, hpassed⟩, fun hk => ?_, fun most hm => ?_⟩
  · rw [hreads, List.append_assoc]
  · obtain ⟨hrest, hinbox⟩ := hall hk
    rw [hrest, hinbox] at hpassed
    simpa using hpassed
  · have hsome := hdrains.isSome_reading most
    rw [result_read hs hm]
    cases hr : (s.reading most).2 with
    | none => simp [hr] at hsome
    | some p => simp

end Session

/-! ## Users of a switchboard that was closed -/

namespace Chronicle

open Switchboard

variable {c : Chronicle} {ticket : Nat} {later : List (Nat × Request)} {more : List Act}

/-- The chronicle when the first request was served, and some acts later. -/
def after (c : Chronicle) (more : List Act) : Chronicle :=
  (c.step (.turn .atRequests)).play more

theorem stilled_after (c : Chronicle)
    (hr : (c.step (.turn .atRequests)).board.isRunning = false) (more : List Act) :
    Session.Stilled (c.step (.turn .atRequests)).board (c.after more).board := by
  rw [after, toSession_play]
  exact Session.stilled_play hr more

/-- What comes of serving the request to end, whatever happens in `more` acts behind it. Some
requests wait `later` in line. -/
structure Closes (ticket : Nat) (later : List (Nat × Request)) (more : List Act) (c : Chronicle) :
    Prop where
  isRunning : (c.after more).board.isRunning = false
  requests : (c.after more).board.requests = []
  links : (c.after more).board.stack.links = []
  isShut : (c.after more).board.stack.transport.isShut = true
  /-- What closing all connections makes them send goes into the tunnel, and nothing else. -/
  sent : ∃ packets, List.Forall₂ (fun x p => c.board.stack.packetOf x = .ok p)
      c.board.stack.partings packets ∧
    (c.after more).board.stack.transport.sent = c.board.stack.transport.sent ++ packets.flatten
  /-- An open connection says one farewell, at last, behind all that was queued on it. -/
  farewell : ∀ n a, c.board.stack.ledger.IsOpen n → c.board.stack.ledger.accounts[n]? = some a →
    ∃ a' said x, (c.after more).board.stack.ledger.accounts[n]? = some a' ∧
      a'.sent = said ++ [x] ∧ a.sent <+: said ∧ x.control.fin = true ∧
      (∀ y ∈ said, y.control.fin = false) ∧ said.flatMap Segment.payload = a.queued
  /-- On it was queued, in order, all that was written to its stream in earlier requests. -/
  queued : ∀ i n a, c.owners[i]? = some n → c.board.stack.ledger.IsOpen n →
    c.board.stack.ledger.accounts[n]? = some a → ∃ buffers : List Bytes,
      a.queued = buffers.flatten ∧
      (((c.writesOf i).filter fun x => x.ticket < ticket).map Write.bytes).Sublist buffers
  /-- A stream of which somebody reads, and whose connection the device has not ended, returns what
  was accepted for it and not read yet; behind all of this each read fails. -/
  reads : ∀ (i : Nat) s n a, c.board.streams[i]? = some s → s.isHeld = true →
    c.owners[i]? = some n → c.board.stack.ledger.accounts[n]? = some a →
    (∀ fault, a.heard.status ≠ .ended fault) →
    ∃ first k, (c.after more).readsOf i =
        c.readsOf i ++ first ++ List.replicate k (.error closed) ∧
      Stream.IsPlain first ∧ bytesOf (c.readsOf i ++ first) <+: a.accepted ∧
      (0 < k → bytesOf (c.readsOf i ++ first) = a.accepted) ∧
      ∀ most hm, (Act.read i most hm).result (c.after more).board ≠ []
  /-- What waits in line makes no difference. -/
  unserved : (c.step (.turn .atRequests)).board =
    (Act.turn .atRequests).call.state { c.board with requests := [(ticket, .shutdown)] }
  /-- Whoever waits for the outcome of a request in line is told that the switchboard is closed. -/
  outcomes : ∀ t request, (t, request) ∈ later →
    (outcome t).Ends (c.after more).board (fun _ _ => False) (fun h _ => h = .failed closed)
  /-- So is whoever asks later still. -/
  posts : ∀ request, (post request).Ends (c.after more).board (fun _ _ => False)
    (fun h _ => h = .failed closed)
  /-- A flush tells the same of what was written in such a request. It may first have to tell of an
  earlier write that has failed; then the next flush still waits for this one. -/
  flushes : ∀ x ∈ c.writes, ∀ request, (x.ticket, request) ∈ later →
    (∃ earlier rest, more = earlier ++ .flush x.stream :: rest ∧
      (Stream.flush x.stream).Ends (c.after earlier).board (fun _ _ => False)
        (fun h _ => h = .failed closed)) ∨
    ∃ s, (c.after more).board.streams[x.stream]? = some s ∧ x.ticket ∈ s.writes ∧
      (Stream.flush x.stream).Ends (c.after more).board (fun _ _ => False)
        (fun h d => h = .failed closed ∨ ∃ t e ts, t ∈ s.writes ∧
          (t, .error e) ∈ c.board.outcomes ∧ h = .failed e ∧
          d = (c.after more).board.awaiting x.stream s ts ∧ x.ticket ∈ ts)

/-- What goes into the tunnel when the request is served is all that goes into it from then on. -/
theorem sent_after (hs : c.Sound)
    (hc : Concluded ticket c.board (c.step (.turn .atRequests)).board)
    (hless : (c.after more).board.stack.journal.Lossless) :
    ∃ packets, List.Forall₂ (fun x p => c.board.stack.packetOf x = .ok p)
        c.board.stack.partings packets ∧
      (c.after more).board.stack.transport.sent =
        c.board.stack.transport.sent ++ packets.flatten := by
  have hstilled := c.stilled_after hc.stops.isRunning more
  have hg : Stack.Grows (fun _ => True) c.board.stack (c.after more).board.stack := by
    rw [after, toSession_play]
    exact hs.grows_play (.turn .atRequests :: more)
  obtain ⟨es, hj, -, hsent⟩ := hg.events
  have hposts := hc.stops.posts (hstilled.journal ▸ hless)
  rw [← hstilled.journal, hj, Journal.posts_append] at hposts
  rw [← List.append_cancel_left hposts]
  exact hsent fun e he => hless e (hj ▸ List.mem_append_left _ he)

/-- What a stream returns from then on. -/
theorem reads_after {e : Tunnel.Ends} {before : List Stack.Act} {acts : List Act}
    (hr : (run e before acts).board.isRunning = true)
    (hc : Concluded ticket (run e before acts).board
      ((run e before acts).step (.turn .atRequests)).board) (more : List Act)
    {i n : Nat} {s : Stream} {a : Account} (hs : (run e before acts).board.streams[i]? = some s)
    (hheld : s.isHeld = true) (hn : (run e before acts).owners[i]? = some n)
    (ha : (run e before acts).board.stack.ledger.accounts[n]? = some a)
    (hstatus : ∀ fault, a.heard.status ≠ .ended fault) :
    ∃ first k, ((run e before acts).after more).readsOf i =
        (run e before acts).readsOf i ++ first ++ List.replicate k (.error closed) ∧
      Stream.IsPlain first ∧ bytesOf ((run e before acts).readsOf i ++ first) <+: a.accepted ∧
      (0 < k → bytesOf ((run e before acts).readsOf i ++ first) = a.accepted) ∧
      ∀ most hm, (Act.read i most hm).result ((run e before acts).after more).board ≠ [] := by
  have hfed := Session.fed_run e before acts
  obtain ⟨hended, hplain, hpassed⟩ :
      s.hasEnded = false ∧ Stream.IsPlain s.inbox ∧
        s.passed ((run e before acts).readsOf i) = a.accepted := by
    rw [toSession_run] at *
    exact Session.passed_eq_accepted hr hs hheld hn ha hstatus
  rw [← toSession_run] at hfed
  have hdrains := (Session.drains_of_concluded hc hfed hs hended hplain).play (Stream.stays_drains _) more
  rw [after, toSession_play]
  obtain ⟨first, k, hreads, hfirst, hprefix, hall, hresult⟩ := hdrains.reads
  have haccepted : bytesOf ((run e before acts).readsOf i) ++ s.passed [] = a.accepted := by
    rw [← hpassed, Stream.passed, Stream.passed, List.append_assoc, List.append_assoc]
    rfl
  refine ⟨first, k, hreads, hfirst, ?_, fun hk => ?_, hresult⟩
  · rw [bytesOf_append, ← haccepted]
    exact List.prefix_append_right_inj _ |>.2 hprefix
  · rw [bytesOf_append, hall hk, haccepted]

/-- No outcome is noted for a request in line. -/
theorem lookup_after (hn : c.board.Numbered)
    (hrequests : c.board.requests = (ticket, .shutdown) :: later)
    (hc : Concluded ticket c.board (c.step (.turn .atRequests)).board) {t : Nat} {request : Request}
    (hm : (t, request) ∈ later) (more : List Act) :
    (c.after more).board.outcomes.lookup t = none := by
  have hstilled := c.stilled_after hc.stops.isRunning more
  have hnodup := hn.nodup
  rw [hrequests, List.map_cons, List.nodup_cons] at hnodup
  have hne : t ≠ ticket := by
    rintro rfl
    exact hnodup.1 (List.mem_map.2 ⟨_, hm, rfl⟩)
  have hwait : (t, request) ∈ c.board.requests := hrequests ▸ List.mem_cons_of_mem _ hm
  have hlookup : [(ticket, (.ok 0 : Except TunnelError Nat))].lookup t = none :=
    List.lookup_eq_none_iff.2 fun o ho => by simpa [List.mem_singleton.1 ho] using hne
  rw [hstilled.outcomes, hc.outcomes, List.lookup_append, hn.lookup_eq_none hwait, hlookup]
  rfl

/-- What a flush tells of a write whose request is in line. -/
theorem flushes_after (hs : c.Sound) (hn : c.board.Numbered) (ha : Awaited c.toRecords c.board)
    (hr : c.board.isRunning = true) (hrequests : c.board.requests = (ticket, .shutdown) :: later)
    (hc : Concluded ticket c.board (c.step (.turn .atRequests)).board) (more : List Act) {x : Write}
    (hx : x ∈ c.writes) {request : Request} (hm : (x.ticket, request) ∈ later) :
    (∃ earlier rest, more = earlier ++ .flush x.stream :: rest ∧
      (Stream.flush x.stream).Ends (c.after earlier).board (fun _ _ => False)
        (fun h _ => h = .failed closed)) ∨
    ∃ s, (c.after more).board.streams[x.stream]? = some s ∧ x.ticket ∈ s.writes ∧
      (Stream.flush x.stream).Ends (c.after more).board (fun _ _ => False)
        (fun h d => h = .failed closed ∨ ∃ t e ts, t ∈ s.writes ∧
          (t, .error e) ∈ c.board.outcomes ∧ h = .failed e ∧
          d = (c.after more).board.awaiting x.stream s ts ∧ x.ticket ∈ ts) := by
  have hstilled := c.stilled_after hc.stops.isRunning more
  have hnone := lookup_after hn hrequests hc hm
  obtain ⟨s, hstream, hw⟩ := ha hr x hx request (hrequests ▸ List.mem_cons_of_mem _ hm)
  obtain ⟨t, ht, hsub⟩ : ∃ t, (c.step (.turn .atRequests)).board.streams[x.stream]? = some t ∧
      s.writes ⊆ t.writes := writes_step hs nofun hstream
  refine (awaits_play (c := c.step (.turn .atRequests)) (hs.step _) hc.stops.isRunning ht (hsub hw)
    (hnone []) more).symm.imp_right ?_
  rintro ⟨u, hu, huw⟩
  refine ⟨u, hu, huw, (ends_flush_awaiting hu huw (hnone more)).mono (fun _ _ => id) fun h d hd => ?_⟩
  rcases hd with ⟨-, rfl⟩ | ⟨ts, rfl, hts, ⟨hrun, -⟩ | ⟨t, e, htw, herror, rfl⟩⟩
  · exact .inl rfl
  · cases hstilled.isRunning.symm.trans hrun
  · -- The only outcome that was noted since is a good one.
    refine .inr ⟨t, e, ts, htw, ?_, rfl, rfl, hts⟩
    obtain ⟨os, os', ho, -⟩ := List.lookup_eq_some_iff.1 herror
    have hmem : (t, .error e) ∈ (c.after more).board.outcomes :=
      ho ▸ List.mem_append_right _ List.mem_cons_self
    rw [hstilled.outcomes, hc.outcomes] at hmem
    refine (List.mem_append.1 hmem).resolve_right fun hmem => ?_
    cases congrArg Prod.snd (List.mem_singleton.1 hmem)

/-- The switchboard of a session is asked to end. If each segment that is made goes whole into the
tunnel, and the tunnel can be shut down, then that request comes to all this when it is served,
whichever requests wait behind it and whatever happens later. -/
theorem closes_of_lossless {e : Tunnel.Ends} {before : List Stack.Act} {acts : List Act}
    (hc : c = run e before acts) (hr : c.board.isRunning = true)
    (hrequests : c.board.requests = (ticket, .shutdown) :: later)
    (hless : (c.after more).board.stack.journal.Lossless)
    (hshut : c.board.stack.transport.shutFault = none) : Closes ticket later more c := by
  subst hc
  have hsound : (run e before acts).Sound := by
    rw [toSession_run]
    exact Session.sound_run e before acts
  have hnumbered : (run e before acts).board.Numbered := by
    rw [toSession_run]
    exact Session.numbered_run e before acts
  obtain ⟨_, -, hd⟩ := hsound.serves 0
  have hconcluded : Concluded ticket (run e before acts).board
      ((run e before acts).step (.turn .atRequests)).board := hsound.concluded hr hrequests
  have hstilled := (run e before acts).stilled_after hconcluded.stops.isRunning more
  have hless' := hless
  rw [hstilled.journal] at hless'
  have hledger : ((run e before acts).after more).board.stack.ledger =
      ((run e before acts).step (.turn .atRequests)).board.stack.ledger := by
    rw [Stack.ledger, Stack.ledger, hstilled.journal]
  have hbooked := booked_run e before acts
  have htallies := tallies_run e before acts
  exact {
    isRunning := hstilled.isRunning
    requests := hstilled.requests.trans hconcluded.stops.requests
    links := hstilled.links.trans hconcluded.stops.links
    isShut := hstilled.isShut.trans (hconcluded.stops.isShut hshut)
    sent := sent_after hsound hconcluded hless
    farewell := by
      intro n a ho ha
      rw [hledger]
      exact hconcluded.stops.farewell hd.kept hless' ho ha
    queued := by
      intro i n a hn ho ha
      rw [← htallies.admittedOf_eq hbooked hrequests hn ho]
      exact htallies.buffers i n a hn ha ho
    reads := fun i s n a hs hheld hn ha hstatus =>
      reads_after hr hconcluded more hs hheld hn ha hstatus
    unserved := hsound.board_step_shutdown hr hrequests
    outcomes := by
      intro t request hm
      have hnone := lookup_after hnumbered hrequests hconcluded hm more
      refine (ends_outcome _ t).mono (fun _ _ ho => ?_) fun h _ ho => ?_
      · obtain ⟨-, k, hk⟩ := ho
        cases hnone.symm.trans hk
      · rcases ho.2 with ⟨_, -, herror⟩ | ⟨-, rfl⟩
        · cases hnone.symm.trans herror
        · rw [if_neg (by simp [hstilled.isRunning])]
    posts := by
      intro request
      refine (ends_post _ request).mono (fun _ _ hp => ?_) fun _ _ hp => hp.2.1
      cases hp.1.symm.trans hstilled.isRunning
    flushes := fun x hx request hm =>
      flushes_after hsound hnumbered (awaited_run e before acts) hr hrequests hconcluded more hx hm }

/-! ### Two streams when it is over -/

/-- A stream is opened and written to, and the end is asked for. Behind this request wait another
write and a request for a second connection. Two bytes arrive, and the first write is served. -/
def ending : List Act :=
  Session.feeding.take 3 ++
    [.write 0 [9], .shutdown, .write 0 [8], .connect 81 [1] 9,
      .world (((Stack.replies.drop 1).take 1).flatMap Ends.sample.packet) .silent none,
      .turn .atTunnel, .turn .atRequests]

/-- Once the request to end was served, the user of the stream reads, flushes and writes. -/
def aftermath : List Act :=
  [.read 0 1 Nat.one_pos, .read 0 9 (Nat.succ_pos (nat_lit 8)), .flush 0,
    .read 0 9 (Nat.succ_pos (nat_lit 8)), .write 0 [7]]

theorem run_ending :
    ((run Ends.sample [] ending).board.isRunning, (run Ends.sample [] ending).board.requests,
      (run Ends.sample [] ending).board.stack.transport.shutFault.isNone) =
        (true, [(2, .shutdown), (3, .send 49152 [8]), (4, .connect 81 [1] 9)], true) ∧
      ((run Ends.sample [] ending).after aftermath).board.stack.journal.any Event.isLost = false ∧
      ((run Ends.sample [] ending).after aftermath).readsOf 0 =
        [.ok [1], .ok [2], .error closed] := by
  refine ⟨?_, ?_, ?_⟩
  all_goals cbv

theorem closes_ending :
    (run Ends.sample [] ending).board.isRunning = true ∧
      (run Ends.sample [] ending).board.requests =
        [(2, .shutdown), (3, .send 49152 [8]), (4, .connect 81 [1] 9)] ∧
      ((run Ends.sample [] ending).after aftermath).board.stack.journal.Lossless ∧
      (run Ends.sample [] ending).board.stack.transport.shutFault = none ∧
      Closes 2 [(3, .send 49152 [8]), (4, .connect 81 [1] 9)] aftermath
        (run Ends.sample [] ending) ∧
      ((run Ends.sample [] ending).after aftermath).readsOf 0 =
        [.ok [1], .ok [2], .error closed] := by
  obtain ⟨hboard, hless, hreads⟩ := run_ending
  simp only [Prod.mk.injEq] at hboard
  obtain ⟨hr, hrequests, hshut⟩ := hboard
  rw [← Journal.lossless_iff] at hless
  rw [Option.isNone_iff_eq_none] at hshut
  exact ⟨hr, hrequests, hless, hshut, closes_of_lossless rfl hr hrequests hless hshut, hreads⟩

/-! ### What is lost, and what fails first -/

/-- A stream is opened and closed, and then written to. That write has failed when the end is asked
for, and another write waits behind this request. -/
def belated : List Act :=
  Session.feeding.take 3 ++
    [.close 0, .turn .atRequests, .write 0 [9], .turn .atRequests, .shutdown, .write 0 [8]]

/-- A stream is opened, and the device sends some bytes and finishes. Nothing was read of this when
the end is asked for. -/
def unheard : List Act :=
  Session.feeding.take 3 ++
    [.world ((Stack.replies.drop 1).flatMap Ends.sample.packet) .silent none, .turn .atTunnel,
      .shutdown]

/-- Bytes that no packet takes were written before the end was asked for. The farewell of their
connection is sent without them. -/
theorem carried_vast_after :
    (run wide [] (overfilling ++ [Act.shutdown])).board.isRunning = true ∧
      (run wide [] (overfilling ++ [Act.shutdown])).board.requests = [(2, .shutdown)] ∧
      (run wide [] (overfilling ++ [Act.shutdown])).writesOf 0 = [⟨0, 1, vast⟩] ∧
      (run wide [] (overfilling ++ [Act.shutdown])).board.stack.ledger.IsOpen 0 ∧
      ∃ a : Account, ((run wide [] (overfilling ++ [Act.shutdown])).after
          []).board.stack.ledger.accounts[0]? = some a ∧ a.carried = [] := by
  have hlength : vast.length = 70000 := List.length_replicate
  obtain ⟨d, hd, hboard, hrecords, hholder, a, ha, hstatus, hnone, hpending⟩ :=
    run_wide_write vast (by rw [hlength]; decide) (by rw [hlength]; decide)
  simp only [Prod.mk.injEq] at hboard hrecords
  obtain ⟨hr, hrequests, hnext⟩ := hboard
  have hsound : (d.step .shutdown).Sound := by
    have hd' : d.Sound := by
      rw [hd, toSession_run]
      exact Session.sound_run ..
    exact hd'.step .shutdown
  have hposted : (d.step .shutdown).board = d.board.posted .shutdown := by
    refine Call.Ends.state (P := fun c => c = d.board.posted .shutdown) ?_
    rw [Act.call, ends_bind]
    refine (ends_post _ _).mono (fun _ _ hc => hc.2.2) fun _ _ hc => ?_
    cases hr.symm.trans hc.1
  rw [posted, if_pos hr, hrequests, hnext, List.nil_append] at hposted
  have hconcluded : Concluded 2 (d.step .shutdown).board
      ((d.step .shutdown).step (.turn .atRequests)).board :=
    hsound.concluded (by rw [hposted, hr]) (by rw [hposted])
  obtain ⟨a', ha', hcarried⟩ := hconcluded.carried (a := a) (by rw [hposted]; exact ha) hpending
  rw [run_append, overfilling, ← hd]
  refine ⟨?_, ?_, ?_, ⟨49152, a, ?_, ?_, hstatus⟩, a', ha', hcarried.trans hnone⟩
  · exact hposted ▸ hr
  · exact congrArg requests hposted
  · have hwrites : (d.play [.shutdown]).writes = d.writes := List.append_nil _
    rw [Records.writesOf, hwrites, hrecords.1]
    simp
  · exact hposted ▸ hholder
  · exact hposted ▸ ha

/-- When the end is served, there may be bytes that were written before and that no packet took.
The tunnel is whole, and the farewell is sent without them.

Nor is the first error that a flush reports always that of a request which was not served. A write
to a stream that was closed has failed before, and this is reported first.

And a stream may return its end, not an error, if the device had finished and nobody had read that
far. -/
theorem closes_incomplete :
    ((wide.transport.allowance, wide.transport.shutFault) = (none, none) ∧
      (run wide [] (overfilling ++ [.shutdown])).board.isRunning = true ∧
      (run wide [] (overfilling ++ [.shutdown])).board.requests = [(2, .shutdown)] ∧
      (run wide [] (overfilling ++ [.shutdown])).writesOf 0 = [⟨0, 1, vast⟩] ∧
      (run wide [] (overfilling ++ [.shutdown])).board.stack.ledger.IsOpen 0 ∧
      ∃ a, ((run wide [] (overfilling ++ [.shutdown])).after
          []).board.stack.ledger.accounts[0]? = some a ∧ a.carried = []) ∧
      ((run Ends.sample [] belated).board.requests = [(3, .shutdown), (4, .send 49152 [8])] ∧
        (run Ends.sample [] belated).writesOf 0 = [⟨0, 2, [9]⟩, ⟨0, 4, [8]⟩] ∧
        (Stream.flush 0).result ((run Ends.sample [] belated).after []).board =
          .error (.failed (.bare .notConnected))) ∧
      ((run Ends.sample [] unheard).board.requests, (run Ends.sample [] unheard).readsOf 0) =
        ([(1, .shutdown)], []) ∧
      ((run Ends.sample [] unheard).after
        (List.replicate 3 (.read 0 9 (by decide)))).readsOf 0 = [.ok [1, 2, 3], .ok [], .ok []] := by
  refine ⟨⟨rfl, carried_vast_after⟩, ⟨?_, ?_, ?_⟩, ?_, ?_⟩
  all_goals cbv

end Chronicle

end Tether.Tunnel
