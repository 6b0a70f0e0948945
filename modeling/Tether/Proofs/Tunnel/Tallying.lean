import Tether.Proofs.Tunnel.Chronicle

/-!
# What is queued for streams

To write is only to ask: the bytes wait in a request. When it is served, they go to the connection
that has the port of the stream then, if it is open, whole and behind those that were queued there
before. As long as the stream's own connection is open, this is the one.

* `Chronicle.booked_run`: what holds of the tickets of writes throughout a session;
* `Tallies`: what holds of the connections of streams, whichever ports they have;
* `Chronicle.tallies_run`: it holds throughout a session.
-/

namespace Tether.Tunnel

open Net Call

namespace Switchboard

/-! ## Writes of one stream -/

namespace Records

variable {m : Records} {i : Nat} {x : Write}

theorem mem_writesOf : x ∈ m.writesOf i ↔ x ∈ m.writes ∧ x.stream = i := by
  simp [writesOf]

theorem mem_admittedOf : x ∈ m.admittedOf i ↔ (x ∈ m.writes ∧ x.stream = i) ∧ x.ticket ∈ m.admitted := by
  simp [admittedOf, mem_writesOf]

/-- A write that is let through comes after all that were. -/
theorem admittedOf_append (hsorted : m.writes.Pairwise fun x y => x.ticket < y.ticket)
    (hx : x ∈ m.writes) (hlast : ∀ t ∈ m.admitted, t < x.ticket) (i : Nat) :
    ({ m with admitted := m.admitted ++ [x.ticket] } : Records).admittedOf i =
      m.admittedOf i ++ if x.stream = i then [x] else [] := by
  obtain ⟨before, after, hw⟩ := List.append_of_mem hx
  rw [hw, List.pairwise_append, List.pairwise_cons] at hsorted
  obtain ⟨-, ⟨hafter, -⟩, hbefore⟩ := hsorted
  have hnew : x.ticket ∉ m.admitted := fun h => absurd (hlast _ h) (Nat.lt_irrefl _)
  have hold : (before.filter fun y => y.stream = i).filter
      (fun y => y.ticket ∈ m.admitted ++ [x.ticket]) =
      (before.filter fun y => y.stream = i).filter fun y => y.ticket ∈ m.admitted := by
    refine List.filter_congr fun y hy => ?_
    have hne : y.ticket ≠ x.ticket :=
      Nat.ne_of_lt (hbefore y (List.mem_of_mem_filter hy) x List.mem_cons_self)
    simp [hne]
  have hlater : ∀ y ∈ after, y.ticket ∉ m.admitted ∧ y.ticket ≠ x.ticket := by
    refine fun y hy => ⟨fun h => ?_, Nat.ne_of_gt (hafter y hy)⟩
    exact absurd (Nat.lt_trans (hlast _ h) (hafter y hy)) (Nat.lt_irrefl _)
  have hnone {ts : List Nat} (hts : ∀ y ∈ after, y.ticket ∉ ts) :
      (after.filter fun y => y.stream = i).filter (fun y => y.ticket ∈ ts) = [] := by
    refine List.filter_eq_nil_iff.2 fun y hy => ?_
    simpa using hts y (List.mem_of_mem_filter hy)
  have hnone' := hnone fun y hy => (hlater y hy).1
  have hnone'' := hnone (show ∀ y ∈ after, y.ticket ∉ m.admitted ++ [x.ticket] from fun y hy h =>
    (List.mem_append.1 h).elim (hlater y hy).1 fun h => (hlater y hy).2 (List.mem_singleton.1 h))
  rw [admittedOf, admittedOf, writesOf, writesOf, hw]
  dsimp only
  rw [List.filter_append, List.filter_append, List.filter_append, hold, List.append_assoc]
  congr 1
  by_cases hi : x.stream = i
  · rw [if_pos hi, List.filter_cons_of_pos (by simpa using hi), List.filter_cons_of_pos (by simp),
      List.filter_cons_of_neg (by simpa using hnew), hnone', hnone'']
    rfl
  · rw [if_neg hi, List.filter_cons_of_neg (by simpa using hi), hnone', hnone'']
    rfl

/-- New writes wait to be let through. -/
theorem admittedOf_of_asks {m' : Records} {xs : List Write} (hw : m'.writes = m.writes ++ xs)
    (ha : m'.admitted = m.admitted) (hxs : ∀ x ∈ xs, x.ticket ∉ m.admitted) (i : Nat) :
    m'.admittedOf i = m.admittedOf i := by
  have hnone : (xs.filter fun x => x.stream = i).filter (fun x => x.ticket ∈ m.admitted) = [] := by
    refine List.filter_eq_nil_iff.2 fun x hx => ?_
    simpa using hxs x (List.mem_of_mem_filter hx)
  rw [admittedOf, admittedOf, writesOf, writesOf, hw, ha, List.filter_append, List.filter_append,
    hnone, List.append_nil]

end Records

/-- Nothing was written to a stream that is not open yet. -/
theorem Booked.admittedOf_eq_nil {m : Records} {b : Switchboard} {i : Nat} (h : Booked m b)
    (hi : b.streams.length ≤ i) : m.admittedOf i = [] := by
  refine List.eq_nil_iff_forall_not_mem.2 fun x hx => ?_
  obtain ⟨⟨hw, rfl⟩, -⟩ := Records.mem_admittedOf.1 hx
  exact absurd (h.known x hw).2 (Nat.not_lt.2 hi)

end Switchboard

/-! ## Accounts on which bytes are queued -/

/-- An account that is there keeps the bytes that were queued on it, and gets no others, as long as
none are queued. -/
theorem Ledger.queued_append {es j : Journal} {n : Nat} {a a' : Account}
    (hes : ∀ e ∈ es, e.isQueued = false) (ha : (ofJournal j).accounts[n]? = some a)
    (ha' : (ofJournal (es ++ j)).accounts[n]? = some a') : a'.queued = a.queued := by
  refine account_append (P := fun x => x.queued = a.queued) (fun hn => ?_) (fun x hx => ?_)
    (fun x e he hx => ?_) a' ha'
  · exact absurd (List.getElem?_eq_some_iff.1 ha).1 (Nat.not_lt.2 hn)
  · rw [Option.some.inj (hx.symm.trans ha)]
  · have hun := hes e he
    cases e <;> first | exact hx | cases hun

/-- A connection that is open is in the table. -/
theorem Stack.Kept.exists_link_of_isOpen {s : Stack} {n : Nat} (hk : s.Kept)
    (h : s.ledger.IsOpen n) :
    ∃ p l a, s.ledger.holder p = some n ∧ s.ledger.accounts[n]? = some a ∧ a.port = p ∧
      s.links.get? p = some l ∧ l.status = .connected := by
  obtain ⟨p, a, hp, ha, hs⟩ := h
  obtain ⟨l, hl, htells⟩ := hk.exists_link (Ledger.at?_eq_some_iff.2 ⟨n, hp, ha⟩)
  exact ⟨p, l, a, hp, ha, Stack.port_of_at? (Ledger.at?_eq_some_iff.2 ⟨n, hp, ha⟩), hl,
    htells.status.trans hs⟩

namespace Switchboard

/-- Bytes that are let through are queued on the connection of their port, and on no other. -/
theorem Admits.queued_eq {port : UInt16} {bytes : Bytes} {s t : Stack} {n : Nat} {a a' : Account}
    (h : Admits port bytes s t) (ha : s.ledger.accounts[n]? = some a)
    (ha' : t.ledger.accounts[n]? = some a') :
    a'.queued = a.queued ++ if s.ledger.holder port = some n then bytes else [] := by
  obtain ⟨es, hj, hes⟩ := h.events
  have hqueued := Ledger.getElem?_note ha (.queued port bytes)
  have hledger : t.ledger = Ledger.ofJournal (es ++ .queued port bytes :: s.journal) := by
    rw [Stack.ledger, hj]
  rw [hledger] at ha'
  rw [Ledger.queued_append (fun e he => Event.isQueued_of_isPost (hes e he)) hqueued ha']
  by_cases hn : s.ledger.holder port = some n
  · rw [if_pos hn]
    exact congrArg Account.queued (if_pos hn)
  · rw [if_neg hn, List.append_nil]
    exact congrArg Account.queued (if_neg hn)

/-- Letting bytes through begins and ends no connection. -/
theorem Admits.exists_append {port : UInt16} {bytes : Bytes} {s t : Stack}
    (h : Admits port bytes s t) :
    ∃ es, t.ledger = Ledger.ofJournal (es ++ s.journal) ∧ ∀ e ∈ es, e.isTurn = false := by
  obtain ⟨es, hj, hes⟩ := h.events
  refine ⟨es ++ [.queued port bytes], ?_, fun e he => ?_⟩
  · rw [Stack.ledger, hj, List.append_assoc]
    rfl
  · rcases List.mem_append.1 he with he | he
    · exact Event.isTurn_of_isTraffic (Event.isTraffic_of_isPost (hes e he))
    · rw [List.mem_singleton.1 he]
      rfl

/-! ## Connections of streams -/

/-- What holds of the connections of streams, whichever ports they have. -/
structure Tallies (m : Records) (owners : List Nat) (b : Switchboard) : Prop where
  met : ∀ n ∈ owners, b.stack.ledger.Met n
  /-- On a connection that is open, each write was let through that does not wait. -/
  settled : ∀ x ∈ m.writes, ∀ n, owners[x.stream]? = some n → b.stack.ledger.IsOpen n →
    x.ticket ∈ m.admitted ∨ ∃ r, (x.ticket, r) ∈ b.requests
  /-- On a connection that is open, whole buffers were queued, and those of the stream that were let
  through are among them, in their order. -/
  buffers : ∀ (i : Nat) n a, owners[i]? = some n → b.stack.ledger.accounts[n]? = some a →
    b.stack.ledger.IsOpen n → ∃ buffers : List Bytes, a.queued = buffers.flatten ∧
      ((m.admittedOf i).map Write.bytes).Sublist buffers

namespace Tallies

variable {n k : Nat} {m m' : Records} {owners new : List Nat} {b c : Switchboard}
  {ticket next : Option Nat} {t : Nat} {request : Request} {later : List (Nat × Request)}
  {port : UInt16} {x : Write}

theorem lt_length (h : Tallies m owners b) (hn : n ∈ owners) :
    n < b.stack.ledger.accounts.length := by
  obtain ⟨a, ha, -⟩ := h.met n hn
  exact (List.getElem?_eq_some_iff.1 ha).1

/-- Users go on, and nothing happens to the connections. -/
theorem asks (h : Tallies m owners b) (hj : c.stack.journal = b.stack.journal)
    (hr : ∀ r ∈ b.requests, r ∈ c.requests) {xs : List Write}
    (hw : m'.writes = m.writes ++ xs) (ha : m'.admitted = m.admitted)
    (hxs : ∀ x ∈ xs, x.ticket ∉ m.admitted ∧ ∃ r, (x.ticket, r) ∈ c.requests) :
    Tallies m' owners c := by
  have hledger : c.stack.ledger = b.stack.ledger := by rw [Stack.ledger, Stack.ledger, hj]
  refine ⟨hledger ▸ h.met, fun x hx n hn ho => ?_, fun i n a hn hacc ho => ?_⟩
  · rw [hw] at hx
    rw [hledger] at ho
    rcases List.mem_append.1 hx with hx | hx
    · exact (h.settled x hx n hn ho).imp (fun hm => ha ▸ hm) fun ⟨r, hm⟩ => ⟨r, hr _ hm⟩
    · exact .inr (hxs x hx).2
  · rw [hledger] at hacc ho
    rw [Records.admittedOf_of_asks hw ha fun x hx => (hxs x hx).1]
    exact h.buffers i n a hn hacc ho

/-- The first request is served, and if it is one to send, its connection is not open. -/
theorem pass (h : Tallies m owners b) (hr : b.requests = (t, request) :: later)
    (outcomes : List (Nat × Except TunnelError Nat))
    (hclosed : ∀ x ∈ m.writes, x.ticket = t → ∀ n, owners[x.stream]? = some n →
      ¬ b.stack.ledger.IsOpen n) :
    Tallies m owners { b with requests := later, outcomes := b.outcomes ++ outcomes } := by
  refine ⟨h.met, fun x hx n hn ho => ?_, h.buffers⟩
  refine (h.settled x hx n hn ho).imp_right fun ⟨r, hm⟩ => ?_
  rw [hr] at hm
  rcases List.mem_cons.1 hm with heq | hm
  · exact absurd ho (hclosed x hx (congrArg Prod.fst heq) n hn)
  · exact ⟨r, hm⟩

/-- The rest of a turn queues nothing. -/
theorem proceeds (h : Tallies m owners b) (hb : Booked m b)
    (howners : owners.length = b.streams.length) (hc : Proceeds ticket next Unqueued b c)
    (hk : c.stack.Kept) (hhushed : Hushed c) (hnew : ∀ n ∈ new, c.stack.ledger.Met n) :
    Tallies m (owners ++ new) c := by
  obtain ⟨es, hj, hes, -⟩ := hc.grows.events
  have hledger : c.stack.ledger = Ledger.ofJournal (es ++ b.stack.journal) := by
    rw [Stack.ledger, hj]
  refine ⟨fun n hn => ?_, fun x hx n hn ho => ?_, fun i n a hn ha ho => ?_⟩
  · rcases List.mem_append.1 hn with hn | hn
    · rw [hledger]
      exact (h.met n hn).append es
    · exact hnew n hn
  · have hlt : x.stream < owners.length := howners ▸ (hb.known x hx).2
    have hn : owners[x.stream]? = some n := (List.getElem?_append_left hlt).symm.trans hn
    rcases hc.requests with hr | ⟨-, hstopped⟩
    · rw [hr]
      rw [hledger] at ho
      exact h.settled x hx n hn (ho.of_append (h.met n (List.mem_of_getElem? hn)))
    · -- Once the switchboard has stopped, no connection is open.
      obtain ⟨p, l, -, -, -, -, hl, -⟩ := hk.exists_link_of_isOpen ho
      rw [hhushed hstopped] at hl
      cases hl
  · by_cases hi : i < owners.length
    · have hn : owners[i]? = some n := (List.getElem?_append_left hi).symm.trans hn
      have hmet := h.met n (List.mem_of_getElem? hn)
      rw [hledger] at ha ho
      obtain ⟨a₀, ha₀, -⟩ := id hmet
      rw [Ledger.queued_append hes ha₀ ha]
      exact h.buffers i n a₀ hn ha₀ (ho.of_append hmet)
    · -- Nothing was written to a stream that was just opened.
      rw [hb.admittedOf_eq_nil (howners ▸ Nat.le_of_not_lt hi)]
      exact ⟨[a.queued], (List.flatten_singleton).symm, List.nil_sublist _⟩

/-- A request to send is served, and its bytes are queued. If the connection of the stream is open,
they are queued there. -/
theorem letThrough {s : Stack} (h : Tallies m owners b) (hb : Booked m b)
    (hr : b.requests = (x.ticket, request) :: later) (hx : x ∈ m.writes)
    (hheld : ∀ n, owners[x.stream]? = some n → b.stack.ledger.IsOpen n →
      b.stack.ledger.holder port = some n) (hs : Admits port x.bytes b.stack s)
    (r : Except TunnelError Nat) :
    Tallies { m with admitted := m.admitted ++ [x.ticket] } owners
      { b with requests := later, stack := s, outcomes := b.outcomes ++ [(x.ticket, r)] } := by
  obtain ⟨es, hledger, -⟩ := hs.exists_append
  have hlast : ∀ t ∈ m.admitted, t < x.ticket := fun t ht =>
    (hb.served t ht).2 _ (hr ▸ List.mem_cons_self)
  refine ⟨fun k hk => ?_, fun y hy k hk ho => ?_, fun i n a hn ha ho => ?_⟩
  · dsimp only
    rw [hledger]
    exact (h.met k hk).append _
  · dsimp only at ho
    rw [hledger] at ho
    rcases h.settled y hy k hk (ho.of_append (h.met k (List.mem_of_getElem? hk))) with hm | ⟨q, hm⟩
    · exact .inl (List.mem_append_left _ hm)
    · rw [hr] at hm
      rcases List.mem_cons.1 hm with heq | hm
      · exact .inl (List.mem_append_right _ (List.mem_singleton.2 (congrArg Prod.fst heq)))
      · exact .inr ⟨q, hm⟩
  · have hmet := h.met n (List.mem_of_getElem? hn)
    obtain ⟨a₀, ha₀, -⟩ := id hmet
    have ho : b.stack.ledger.IsOpen n := by
      dsimp only at ho
      rw [hledger] at ho
      exact ho.of_append hmet
    obtain ⟨buffers, hqueued, hsub⟩ := h.buffers i n a₀ hn ha₀ ho
    rw [hs.queued_eq ha₀ ha, hqueued, Records.admittedOf_append hb.sorted hx hlast, List.map_append]
    by_cases hp : b.stack.ledger.holder port = some n
    · -- One more buffer is queued, which may be another stream's.
      refine ⟨buffers ++ [x.bytes], by simp [hp], hsub.append ?_⟩
      split
      · exact .refl _
      · exact List.nil_sublist _
    · have hi : x.stream ≠ i := by
        rintro rfl
        exact hp (hheld n hn ho)
      refine ⟨buffers, by simp [hp], ?_⟩
      rwa [if_neg hi, List.map_nil, List.append_nil]

/-- On a connection that is open, all is served that was written before the next request. -/
theorem admittedOf_eq (h : Tallies m owners b) (hb : Booked m b)
    (hrequests : b.requests = (t, request) :: later) {i : Nat} (hn : owners[i]? = some n)
    (hopen : b.stack.ledger.IsOpen n) :
    m.admittedOf i = (m.writesOf i).filter fun x => x.ticket < t := by
  refine List.filter_congr fun x hx => decide_eq_decide.2 ⟨fun hm => ?_, fun hlt => ?_⟩
  · exact (hb.served _ hm).2 _ (hrequests ▸ List.mem_cons_self)
  · obtain ⟨hw, rfl⟩ := Records.mem_writesOf.1 hx
    refine (h.settled x hw n hn hopen).resolve_right fun ⟨r, hm⟩ => ?_
    have hsorted := hb.inOrder
    rw [hrequests] at hm hsorted
    rcases List.mem_cons.1 hm with heq | hm
    · exact absurd (congrArg Prod.fst heq) (Nat.ne_of_lt hlt)
    · exact absurd ((List.pairwise_cons.1 hsorted).1 _ hm) (Nat.lt_asymm hlt)

end Tallies

end Switchboard

/-! ## Sessions -/

namespace Session

open Switchboard

variable {w : Session} {i n : Nat} {u : Stream} {port : UInt16}

/-- The port of an open connection of a stream is that of the stream. -/
theorem Sound.holder_of_isOpen (hw : w.Sound) (hu : w.board.streams[i]? = some u)
    (hn : w.owners[i]? = some n) (ho : w.board.stack.ledger.IsOpen n) :
    w.board.stack.ledger.holder u.port = some n ∧ w.board.stack.isConnected u.port = true := by
  obtain ⟨live, -, hd⟩ := hw.serves 0
  obtain ⟨p, l, a, hheld, ha, hp, hl, hs⟩ := hd.kept.exists_link_of_isOpen ho
  obtain ⟨b, hb, hp'⟩ := hw.exists_account hu hn
  obtain rfl := Option.some.inj (ha.symm.trans hb)
  obtain rfl : p = u.port := hp.symm.trans hp'
  exact ⟨hheld, Stack.isConnected_iff.2 ⟨l, hl, hs⟩⟩

/-- A connection is not open on whose port nothing can be sent. -/
theorem Sound.not_isOpen (hw : w.Sound) (hopen : w.board.stack.isConnected port = false)
    (hu : w.board.streams[i]? = some u) (hport : u.port = port) (hn : w.owners[i]? = some n) :
    ¬ w.board.stack.ledger.IsOpen n := by
  intro ho
  have hconnected := (hw.holder_of_isOpen hu hn ho).2
  rw [hport, hopen] at hconnected
  cases hconnected

end Session

namespace Chronicle

open Switchboard

section Tickets

variable {c : Chronicle} {i : Nat} {u : Stream}

/-- What a write leaves of a switchboard that runs. -/
theorem board_write (hu : c.board.streams[i]? = some u) (hr : c.board.isRunning = true)
    (bytes : Bytes) :
    (c.step (.write i bytes)).board = { c.board.posted (.send u.port bytes) with
      streams := c.board.streams.set i { u with writes := u.writes ++ [c.board.nextTicket] } } := by
  refine Call.Ends.state (P := fun b => b = _) ?_
  rw [Act.call, ends_bind]
  exact (ends_write hu bytes).mono (fun _ _ hc => hc.2.2)
    fun _ _ hc => Bool.noConfusion (hr.symm.trans hc.1)

/-- A write to no stream, or to a switchboard that has stopped. -/
theorem board_write_of_not (h : ¬ (i < c.board.streams.length ∧ c.board.isRunning = true))
    (bytes : Bytes) : (c.step (.write i bytes)).board = c.board := by
  refine Call.Ends.state (P := fun b => b = c.board) ?_
  rw [Act.call, ends_bind]
  cases hu : c.board.streams[i]? with
  | none => exact (ends_find_none hu).mono (fun _ _ => False.elim) fun _ _ hc => hc.2
  | some u =>
    have hi := (List.getElem?_eq_some_iff.1 hu).1
    exact (ends_write hu bytes).mono (fun _ _ hc => absurd ⟨hi, hc.1⟩ h) fun _ _ hc => hc.2.2

/-- What users do, and what the world does: all requests wait on, those of new writes among them. -/
theorem step_asks (c : Chronicle) {act : Act} (hturn : ∀ t, act ≠ .turn t) :
    act.admits c.board = [] ∧
      (c.step act).board.streams.length = c.board.streams.length ∧
      (∀ r ∈ c.board.requests, r ∈ (c.step act).board.requests) ∧
      ∀ x ∈ act.writes c.board, ∃ r, (x.ticket, r) ∈ (c.step act).board.requests := by
  have hother (hasked : Asked c.board (c.step act).board) (hnone : act.writes c.board = [])
      (hadmits : act.admits c.board = []) :
      act.admits c.board = [] ∧
        (c.step act).board.streams.length = c.board.streams.length ∧
        (∀ r ∈ c.board.requests, r ∈ (c.step act).board.requests) ∧
        ∀ x ∈ act.writes c.board, ∃ r, (x.ticket, r) ∈ (c.step act).board.requests := by
    refine ⟨hadmits, hasked.length, fun r hr => ?_, fun x hx => by rw [hnone] at hx; cases hx⟩
    rcases hasked.requests with ⟨hreq, -⟩ | ⟨q, -, hreq, -⟩
    · exact hreq ▸ hr
    · exact hreq ▸ List.mem_append_left _ hr
  have hasked := asked_call (b := c.board) act hturn
  cases act with
  | turn t => exact absurd rfl (hturn t)
  | write i bytes =>
    by_cases hi : i < c.board.streams.length ∧ c.board.isRunning = true
    · have hb := board_write (List.getElem?_eq_getElem hi.1) hi.2 bytes
      rw [posted, if_pos hi.2] at hb
      rw [hb, Act.writes, if_pos hi]
      refine ⟨rfl, List.length_set, fun r hr => List.mem_append_left _ hr, fun x hx => ?_⟩
      rw [List.mem_singleton.1 hx]
      exact ⟨_, List.mem_append_right _ List.mem_cons_self⟩
    · rw [board_write_of_not hi, Act.writes, if_neg hi]
      exact ⟨rfl, rfl, fun _ => id, List.forall_mem_nil _⟩
  | flush i =>
    obtain ⟨_, _, _, hquiet⟩ : Quiet c.board (c.step (.flush i)).board :=
      (quiet_flush i).state c.board
    refine ⟨rfl, (Session.asks_step c.toSession rfl).length, fun r hr => ?_, List.forall_mem_nil _⟩
    rw [hquiet]
    exact hr
  | _ => exact hother (hasked (by simp) (by simp)) rfl rfl

section

variable {ticket : Nat} {request : Request} {port : UInt16} {bytes : Bytes}
  {later : List (Nat × Request)}

/-! ### What turns let through -/

theorem admits_of_stopped (hr : c.board.isRunning = false) (turn : Turn) :
    (Act.turn turn).admits c.board = [] := by
  unfold Act.admits
  repeat' split
  all_goals simp_all

theorem admits_of_serves (hrequests : c.board.requests = (ticket, request) :: later)
    (hsend : ∀ port bytes, request ≠ .send port bytes) :
    (Act.turn .atRequests).admits c.board = [] := by
  rw [Act.admits, hrequests]
  split
  · next heq => exact absurd (congrArg Prod.snd (List.cons.inj heq).1) (hsend _ _)
  · rfl

theorem admits_of_admits (hrequests : c.board.requests = (ticket, .send port bytes) :: later)
    (hr : c.board.isRunning = true) (hopen : c.board.stack.isConnected port = true) :
    (Act.turn .atRequests).admits c.board = [ticket] := by
  rw [Act.admits, hrequests]
  exact if_pos ⟨hr, hopen⟩

theorem admits_of_refuses (hrequests : c.board.requests = (ticket, .send port bytes) :: later)
    (hopen : c.board.stack.isConnected port = false) :
    (Act.turn .atRequests).admits c.board = [] := by
  simp [Act.admits, hrequests, hopen]

theorem admits_of_passes {turn : Turn} (hrequests : turn = .atRequests → c.board.requests = []) :
    (Act.turn turn).admits c.board = [] := by
  cases turn with
  | atTunnel => rfl
  | atRequests => simp [Act.admits, hrequests rfl]

end

/-- What holds of the tickets of writes holds after a turn. -/
theorem booked_turn (hw : c.Sound) (h : Booked c.toRecords c.board) (turn : Turn) :
    Booked { c.toRecords with admitted := c.admitted ++ (Act.turn turn).admits c.board }
      (c.step (.turn turn)).board := by
  cases hr : c.board.isRunning with
  | false =>
    have hb : (c.step (.turn turn)).board = c.board := Session.board_step_of_stopped hr turn
    rwa [hb, admits_of_stopped hr, List.append_nil]
  | true =>
    have hturned : Turned c.board turn (c.step (.turn turn)).board := hw.turned turn hr
    cases hturned with
    | @serves ticket request later _ hrequests hsend hc =>
      have hbooked := h.pass hrequests [] nofun
      rw [List.append_nil] at hbooked
      rw [admits_of_serves hrequests hsend, List.append_nil]
      refine hbooked.proceeds hc fun x hx ht => ?_
      obtain ⟨u, -, hu⟩ := h.eq_send hrequests hx (Option.some.inj ht)
      exact hsend _ _ hu
    | @admits ticket port bytes later t r _ hrequests hopen hs hc =>
      rw [admits_of_admits hrequests hr hopen]
      exact (h.letThrough hrequests t r).proceeds hc fun _ _ => nofun
    | @refuses ticket port bytes later e _ hrequests hopen hc =>
      rw [admits_of_refuses hrequests hopen, List.append_nil]
      exact (h.pass hrequests [(ticket, .error e)] fun o ho =>
        ⟨e, congrArg Prod.snd (List.mem_singleton.1 ho)⟩).proceeds hc fun _ _ => nofun
    | passes hrequests hc =>
      rw [admits_of_passes hrequests, List.append_nil]
      exact h.proceeds hc fun _ _ => nofun

/-- What holds of the tickets of writes holds after any act. -/
theorem booked_step (hw : c.Sound) (hn : c.board.Numbered) (h : Booked c.toRecords c.board)
    (act : Act) : Booked (c.step act).toRecords (c.step act).board := by
  have hrecords : (c.step act).toRecords =
      ⟨c.writes ++ act.writes c.board, c.admitted ++ act.admits c.board,
        c.failing ++ act.fails c.board⟩ := rfl
  have hasked := asked_call (b := c.board) act
  rw [hrecords]
  cases act with
  | turn turn => simpa only [Act.writes, Act.fails, List.append_nil] using booked_turn hw h turn
  | write i bytes =>
    simp only [Act.admits, Act.fails, List.append_nil]
    by_cases hi : i < c.board.streams.length ∧ c.board.isRunning = true
    · rw [board_write (List.getElem?_eq_getElem hi.1) hi.2 bytes, Act.writes, if_pos hi]
      exact h.write hn (List.getElem?_eq_getElem hi.1) hi.2 bytes
    · rw [board_write_of_not hi, Act.writes, if_neg hi, List.append_nil]
      exact h
  | flush i =>
    simp only [Act.admits, Act.writes, List.append_nil]
    exact h.flush i
  | _ =>
    simp only [Act.admits, Act.writes, Act.fails, List.append_nil]
    exact h.asks (hasked (by simp) (by simp) (by simp))

/-- What holds of the tickets of writes holds throughout a session. -/
theorem booked_run (e : Tunnel.Ends) (before : List Stack.Act) (acts : List Act) :
    Booked (run e before acts).toRecords (run e before acts).board := by
  induction acts using List.reverseRecOn with
  | nil => exact .start _
  | append_singleton acts act ih =>
    rw [run_append]
    refine booked_step ?_ ?_ ih act
    · rw [toSession_run]
      exact Session.sound_run e before acts
    · rw [toSession_run]
      exact Session.numbered_run e before acts

end Tickets

section

variable {c : Chronicle}

/-- The accounts of the streams that a turn opens. -/
theorem new_owners {next : Option Nat} {b d : Switchboard} {ticket : Option Nat} {P : Event → Prop}
    (hd : Proceeds ticket next P b d) (hnext : ∀ n ∈ next, n = c.board.stack.ledger.accounts.length)
    (hlen : b.streams.length = c.board.streams.length) :
    ∀ n ∈ List.replicate (d.streams.length - c.board.streams.length)
        c.board.stack.ledger.accounts.length,
      n = c.board.stack.ledger.accounts.length ∧ d.stack.ledger.Met n := by
  intro n hn
  obtain ⟨hne, rfl⟩ := List.mem_replicate.1 hn
  refine ⟨rfl, ?_⟩
  rcases hd.length with hl | ⟨k, hk, hmet⟩
  · exact absurd (by rw [hl, hlen, Nat.sub_self]) hne
  · exact hnext k hk ▸ hmet

theorem owners_step (c : Chronicle) (act : Act) : (c.step act).owners = c.owners ++
    List.replicate ((c.step act).board.streams.length - c.board.streams.length)
      c.board.stack.ledger.accounts.length :=
  rfl

/-- What a turn does to the connections of streams. -/
theorem tallies_turn (hw : c.Sound) (hh : Hushed c.board) (hb : Booked c.toRecords c.board)
    (h : Tallies c.toRecords c.owners c.board) (hr : c.board.isRunning = true) (turn : Turn) :
    Tallies { c.toRecords with admitted := c.admitted ++ (Act.turn turn).admits c.board }
      (c.step (.turn turn)).owners (c.step (.turn turn)).board := by
  obtain ⟨live', -, hkept'⟩ := (hw.step (.turn turn)).serves 0
  have hhushed : Hushed (c.step (.turn turn)).board := hw.hushed_step hh (.turn turn)
  rw [owners_step]
  have hturned : Turned c.board turn (c.step (.turn turn)).board := hw.turned turn hr
  cases hturned with
  | @serves ticket request later _ hrequests hsend hc =>
    have hbooked := hb.pass hrequests [] nofun
    have htallies := h.pass hrequests [] fun x hx ht => by
      obtain ⟨u, -, hu⟩ := hb.eq_send hrequests hx ht
      exact absurd hu (hsend _ _)
    rw [List.append_nil] at hbooked htallies
    rw [admits_of_serves hrequests hsend, List.append_nil]
    exact htallies.proceeds hbooked hw.owners hc hkept'.kept hhushed fun n hn =>
      (new_owners hc (fun n hn => (Option.some.inj hn).symm) rfl n hn).2
  | @admits ticket port bytes later t r _ hrequests hopen hs hc =>
    obtain ⟨x, hx, rfl⟩ := hb.asked _ _ _ (hrequests ▸ List.mem_cons_self)
    obtain ⟨u, hu, heq⟩ := hb.eq_send hrequests hx rfl
    obtain ⟨rfl, rfl⟩ := Request.send.inj heq
    have htallies := h.letThrough hb hrequests hx
      (fun n hn ho => (hw.holder_of_isOpen hu hn ho).1) hs r
    rw [admits_of_admits hrequests hr hopen]
    exact htallies.proceeds (hb.letThrough hrequests t r) hw.owners hc hkept'.kept hhushed
      fun n hn => absurd hn (by rw [hc.length.resolve_right (by simp)]; simp)
  | @refuses ticket port bytes later e _ hrequests hopen hc =>
    have hbooked := hb.pass hrequests [(ticket, .error e)] fun o ho =>
      ⟨e, congrArg Prod.snd (List.mem_singleton.1 ho)⟩
    have htallies := h.pass hrequests [(ticket, .error e)] fun x hx ht n hn => by
      obtain ⟨u, hu, heq⟩ := hb.eq_send hrequests hx ht
      exact hw.not_isOpen hopen hu (Request.send.inj heq).1.symm hn
    rw [admits_of_refuses hrequests hopen, List.append_nil]
    exact htallies.proceeds hbooked hw.owners hc hkept'.kept hhushed fun n hn =>
      (new_owners hc nofun rfl n hn).2
  | passes hrequests hc =>
    rw [admits_of_passes hrequests, List.append_nil]
    exact h.proceeds hb hw.owners hc hkept'.kept hhushed fun n hn => (new_owners hc nofun rfl n hn).2

/-- What any act does to the connections of streams. -/
theorem tallies_step (hw : c.Sound) (hh : Hushed c.board) (hb : Booked c.toRecords c.board)
    (h : Tallies c.toRecords c.owners c.board) (act : Act) :
    Tallies (c.step act).toRecords (c.step act).owners (c.step act).board := by
  have hrecords : (c.step act).toRecords =
      ⟨c.writes ++ act.writes c.board, c.admitted ++ act.admits c.board,
        c.failing ++ act.fails c.board⟩ := rfl
  rw [hrecords]
  by_cases hturn : ∃ t, act = .turn t
  · obtain ⟨turn, rfl⟩ := hturn
    simp only [Act.writes, Act.fails, List.append_nil]
    cases hr : c.board.isRunning with
    | true => exact tallies_turn hw hh hb h hr turn
    | false =>
      have hb : (c.step (.turn turn)).board = c.board := Session.board_step_of_stopped hr turn
      rw [owners_step, hb, admits_of_stopped hr, Nat.sub_self, List.replicate_zero,
        List.append_nil, List.append_nil]
      exact h
  · -- An act that is no turn lets nothing through, and its writes wait.
    have hturn : ∀ t, act ≠ .turn t := fun t ht => hturn ⟨t, ht⟩
    obtain ⟨hadmits, hlength, hrequests, hwrites⟩ := step_asks c hturn
    rw [owners_step, hlength, Nat.sub_self, List.replicate_zero, List.append_nil, hadmits,
      List.append_nil]
    refine h.asks (Session.grows_idle c.toSession hturn).journal_eq hrequests rfl rfl
      fun x hx => ⟨fun hm => ?_, hwrites x hx⟩
    rw [Act.of_mem_writes hx] at hm
    exact Nat.lt_irrefl _ (hb.served _ hm).1

/-- What holds of the connections of streams holds throughout a session. -/
theorem tallies_run (e : Tunnel.Ends) (before : List Stack.Act) (acts : List Act) :
    Tallies (run e before acts).toRecords (run e before acts).owners (run e before acts).board := by
  induction acts using List.reverseRecOn with
  | nil => exact ⟨nofun, nofun, nofun⟩
  | append_singleton acts act ih =>
    rw [run_append]
    refine tallies_step ?_ ?_ (booked_run e before acts) ih act
    · rw [toSession_run]
      exact Session.sound_run e before acts
    · rw [toSession_run]
      exact Session.hushed_run e before acts

end

end Chronicle

end Tether.Tunnel
