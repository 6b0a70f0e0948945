import Tether.Proofs.Tunnel.Users

/-!
# Tickets

Each request has a ticket of its own. Its outcome is noted under that ticket, once at most and not
before the request is served, so whoever has the ticket finds the outcome of that request.

* `Numbered`: what holds of the tickets of a switchboard;
* `Session.numbered_run`: it holds throughout a session.
-/

namespace Tether.Tunnel

open Net Call

namespace Switchboard

/-- The requests that wait have tickets of their own, and no outcome. -/
structure Numbered (b : Switchboard) : Prop where
  nodup : (b.requests.map Prod.fst).Nodup
  issued : ∀ r ∈ b.requests, r.1 < b.nextTicket
  noted : ∀ o ∈ b.outcomes, o.1 < b.nextTicket
  waiting : ∀ r ∈ b.requests, ∀ o ∈ b.outcomes, o.1 ≠ r.1

/-- One more request is being served. -/
structure Owing (ticket : Nat) (b : Switchboard) : Prop where
  numbered : b.Numbered
  issued : ticket < b.nextTicket
  apart : ∀ r ∈ b.requests, r.1 ≠ ticket
  noted : ∀ o ∈ b.outcomes, o.1 ≠ ticket

/-- The tickets stay in order. -/
abbrev Numbers (b c : Switchboard) : Prop :=
  b.Numbered → c.Numbered

instance : IsPreorder Switchboard Numbers where
  refl _ := id
  trans _ _ _ h h' := h' ∘ h

variable {b c : Switchboard} {ticket : Nat} {α : Type} {d : Call TunnelError Switchboard α}

theorem Numbered.of_eq (h : b.Numbered) (hr : c.requests = b.requests)
    (ho : c.outcomes = b.outcomes) (ht : c.nextTicket = b.nextTicket) : c.Numbered :=
  ⟨hr ▸ h.nodup, hr ▸ ht ▸ h.issued, ho ▸ ht ▸ h.noted, hr ▸ ho ▸ h.waiting⟩

theorem Owing.of_eq (h : Owing ticket b) (hr : c.requests = b.requests)
    (ho : c.outcomes = b.outcomes) (ht : c.nextTicket = b.nextTicket) : Owing ticket c :=
  ⟨h.numbered.of_eq hr ho ht, ht ▸ h.issued, hr ▸ h.apart, ho ▸ h.noted⟩

theorem numbers_of_quiet (hd : Respects Quiet d) : Respects Numbers d := by
  refine hd.mono fun b c hq h => ?_
  obtain ⟨_, _, _, rfl⟩ := hq
  exact h.of_eq rfl rfl rfl

theorem Owing.quiet (h : Owing ticket b) (hd : Respects Quiet d) :
    d.Ends b (fun _ => Owing ticket) (fun _ => Owing ticket) := by
  refine (hd b).mono (fun _ c hq => ?_) fun _ c hq => ?_
  all_goals
    obtain ⟨_, _, _, rfl⟩ := hq
    exact h.of_eq rfl rfl rfl

theorem Owing.conclude (h : Owing ticket b) (r : Except TunnelError Nat) :
    (conclude ticket r).Ends b (fun _ => Numbered) (fun _ _ => False) := by
  refine ⟨h.numbered.nodup, h.numbered.issued, fun o ho => ?_, fun r hr o ho => ?_⟩
  · rcases List.mem_append.1 ho with ho | ho
    · exact h.numbered.noted o ho
    · rw [List.mem_singleton.1 ho]
      exact h.issued
  · rcases List.mem_append.1 ho with ho | ho
    · exact h.numbered.waiting r hr o ho
    · rw [List.mem_singleton.1 ho]
      exact (h.apart r hr).symm

theorem Numbered.lookup_eq_none {request : Request} (h : b.Numbered)
    (hr : (ticket, request) ∈ b.requests) : b.outcomes.lookup ticket = none := by
  refine List.lookup_eq_none_iff.2 fun o ho => ?_
  have hne : o.1 ≠ ticket := h.waiting _ hr o ho
  simpa using hne.symm

/-- What is noted for a request that waited is found under its ticket. -/
theorem Numbered.ends_outcome {request : Request} {r : Except TunnelError Nat} (h : b.Numbered)
    (hr : (ticket, request) ∈ b.requests) (ho : c.outcomes = b.outcomes ++ [(ticket, r)]) :
    (outcome ticket).Ends c (fun k d => r = .ok k ∧ d = c)
      (fun h d => ∃ e, r = .error e ∧ h = .failed e ∧ d = c) := by
  have hlookup : c.outcomes.lookup ticket = some r := by
    rw [ho, List.lookup_append, h.lookup_eq_none hr]
    simp
  unfold outcome
  rw [ends_bind, ends_get, hlookup]
  cases r with
  | ok k => exact ⟨rfl, rfl⟩
  | error e => exact ⟨e, rfl, rfl, rfl⟩

/-! ## Turns -/

theorem quiet_openStream (port : UInt16) : Respects Quiet (openStream port) := by
  intro b
  unfold openStream
  rw [ends_bind, ends_get, ends_bind, ends_set, ends_pure]
  exact ⟨b.stack, _, _, rfl⟩

/-- The requests that wait are dropped. -/
theorem Numbered.drop (h : b.Numbered) : Numbered { b with isRunning := false, requests := [] } :=
  ⟨List.nodup_nil, fun _ hr => absurd hr List.not_mem_nil, h.noted,
    fun _ hr => absurd hr List.not_mem_nil⟩

theorem numbers_stop : Respects Numbers stop :=
  respects_stop (fun _ => numbers_of_quiet (quiet_onStack _))
    (fun port => numbers_of_quiet (quiet_unroute port)) (numbers_of_quiet (quiet_onStack _))
    fun _ h => h.drop

theorem Owing.stop (h : Owing ticket b) :
    stop.Ends b (fun _ => Owing ticket) (fun _ => Owing ticket) := by
  unfold Switchboard.stop
  rw [ends_bind, ends_get, ends_bind]
  refine (h.quiet (.forM fun _ _ => respects_tryOnStack (quiet_onStack _))).mono
    (fun _ c hc => ?_) fun _ _ => id
  rw [ends_bind, ends_get, ends_bind]
  refine (hc.quiet (.forM fun port _ => quiet_unroute port)).mono (fun _ c hc => ?_) fun _ _ => id
  rw [ends_bind]
  refine (hc.quiet (respects_tryOnStack (quiet_onStack _))).mono (fun _ c hc => ?_) fun _ _ => id
  exact ⟨hc.numbered.drop, hc.issued, fun _ hr => absurd hr List.not_mem_nil, hc.noted⟩

theorem Numbered.dispatch (h : b.Numbered) :
    dispatch.Ends b (fun _ => Numbered) (fun _ => Numbered) :=
  (numbers_of_quiet quiet_dispatch b).mono (fun _ _ hc => hc h) fun _ _ hc => hc h

/-- An outcome is noted, and what has arrived is passed on. -/
theorem Owing.conclude_dispatch (h : Owing ticket b) (r : Except TunnelError Nat) :
    (do Switchboard.conclude ticket r; Switchboard.dispatch : Call TunnelError Switchboard Unit).Ends b
      (fun _ => Numbered) (fun _ => Numbered) := by
  rw [ends_bind]
  exact (h.conclude r).mono (fun _ _ hc => hc.dispatch) fun _ _ => False.elim

theorem Owing.serve (h : Owing ticket b) (request : Request) :
    (serve ticket request).Ends b (fun _ => Numbered) (fun _ => Numbered) := by
  cases request with
  | connect peerPort draws first =>
    unfold Switchboard.serve
    rw [ends_bind]
    refine (h.quiet (quiet_onStack _).attempt).mono (fun outcome c hc => ?_)
      fun _ _ hc => hc.numbered
    cases outcome with
    | error e => exact hc.conclude_dispatch _
    | ok port =>
      dsimp only
      rw [ends_bind, ends_get]
      split
      · rw [ends_bind]
        exact (hc.quiet (quiet_hangUp port)).mono (fun _ _ hd => hd.numbered.dispatch)
          fun _ _ hd => hd.numbered
      · rw [ends_bind]
        exact (hc.quiet (quiet_openStream port)).mono (fun _ _ hd => hd.conclude_dispatch _)
          fun _ _ hd => hd.numbered
  | send port bytes =>
    unfold Switchboard.serve
    rw [ends_bind]
    exact (h.quiet (quiet_onStack _).attempt).mono (fun _ _ hc => hc.conclude_dispatch _)
      fun _ _ hc => hc.numbered
  | close port =>
    unfold Switchboard.serve
    rw [ends_bind, ends_get]
    split
    · rw [ends_bind]
      exact (h.quiet (quiet_hangUp port)).mono (fun _ _ hc => hc.numbered.dispatch)
        fun _ _ hc => hc.numbered
    · exact h.numbered.dispatch
  | capture file =>
    unfold Switchboard.serve
    rw [ends_bind]
    exact (h.quiet (quiet_onStack _).attempt).mono (fun _ _ hc => hc.conclude_dispatch _)
      fun _ _ hc => hc.numbered
  | shutdown =>
    unfold Switchboard.serve
    rw [ends_bind]
    exact h.stop.mono (fun _ _ hc => (hc.conclude _).mono (fun _ _ => id) fun _ _ => False.elim)
      fun _ _ hc => hc.numbered

theorem numbers_serveNext : Respects Numbers serveNext := by
  refine fun b => Ends.imp fun h => ?_
  unfold serveNext
  rw [ends_bind, ends_get]
  split
  · next ticket request later hrequests =>
    rw [ends_bind, ends_modify]
    have hmem : ∀ r ∈ later, r ∈ b.requests := fun r hr => hrequests ▸ List.mem_cons_of_mem _ hr
    have hhead : (ticket, request) ∈ b.requests := hrequests ▸ List.mem_cons_self
    have hnodup := h.nodup
    rw [hrequests, List.map_cons, List.nodup_cons] at hnodup
    have howing : Owing ticket { b with requests := later } := by
      refine ⟨⟨hnodup.2, fun r hr => h.issued r (hmem r hr), h.noted,
        fun r hr => h.waiting r (hmem r hr)⟩, h.issued _ hhead, fun r hr hp => ?_,
        h.waiting _ hhead⟩
      exact hnodup.1 (List.mem_map.2 ⟨r, hr, hp⟩)
    exact howing.serve request
  · rw [ends_bind, ends_get]
    split
    · exact h
    · exact (numbers_stop b).mono (fun _ _ hc => hc h) fun _ _ hc => hc h

theorem numbers_listen : Respects Numbers listen := by
  refine (numbers_of_quiet (quiet_onStack _).attempt).bind fun outcome => ?_
  cases outcome with
  | ok _ => exact numbers_of_quiet quiet_dispatch
  | error e =>
    refine Respects.get.bind fun _ => ?_
    have htell (r : UInt16 × Nat) : Respects Quiet (do let _ ← deliver r.2 (.error e)) :=
      (quiet_deliver _ _).bind fun _ => .pure _
    exact (numbers_of_quiet (.forM fun r _ => htell r)).bind fun _ => numbers_stop

theorem numbers_take (turn : Turn) : Respects Numbers (take turn) := by
  cases turn with
  | atRequests => exact numbers_serveNext
  | atTunnel => exact numbers_listen

/-! ## Users -/

theorem numbers_post (request : Request) : Respects Numbers (post request) := by
  refine fun b => Ends.imp fun h => ?_
  unfold post
  rw [ends_bind, ends_get]
  dsimp only
  split
  · exact h
  · refine ⟨?_, fun r hr => ?_, fun o ho => Nat.lt_succ_of_lt (h.noted o ho), fun r hr o ho => ?_⟩
    · rw [List.map_append, List.nodup_append]
      refine ⟨h.nodup, List.nodup_singleton _, fun t ht u hu => ?_⟩
      obtain ⟨r, hr, rfl⟩ := List.mem_map.1 ht
      rw [List.mem_singleton.1 hu]
      exact Nat.ne_of_lt (h.issued r hr)
    · rcases List.mem_append.1 hr with hr | hr
      · exact Nat.lt_succ_of_lt (h.issued r hr)
      · rw [List.mem_singleton.1 hr]
        exact Nat.lt_succ_self _
    · rcases List.mem_append.1 hr with hr | hr
      · exact h.waiting r hr o ho
      · rw [List.mem_singleton.1 hr]
        exact Nat.ne_of_lt (h.noted o ho)

theorem quiet_put (i : Nat) (s : Stream) : Respects Quiet (Stream.put i s) :=
  fun b => ⟨b.stack, b.routes, _, rfl⟩

theorem quiet_flush (i : Nat) : Respects Quiet (Stream.flush i) := by
  refine (respects_find i).bind fun s => ?_
  generalize s.writes = tickets
  induction tickets with
  | nil => exact .pure _
  | cons ticket later ih =>
    exact (respects_outcome ticket).attempt.bind fun outcome => (respects_find i).bind fun _ =>
      (quiet_put i _).bind fun _ => (Respects.ofExcept _).bind fun _ => ih

theorem quiet_read (i most : Nat) : Respects Quiet (Stream.read i most) := by
  refine (respects_find i).bind fun s => ?_
  split
  · exact (quiet_put i _).bind fun _ => .pure _
  · split
    · exact .pure _
    · cases s.inbox with
      | nil =>
        dsimp only
        split
        · exact .throw _
        · exact .fail _
      | cons piece later =>
        exact (quiet_put i _).bind fun _ => (Respects.ofExcept _).bind fun _ => .pure _

section

variable {R : Switchboard → Switchboard → Prop} [IsPreorder Switchboard R]

/-- What users do, and what the world does: a relation is respected by that if it is respected by
posting a request, and by what leaves requests and outcomes alone. -/
theorem respects_call (hpost : ∀ request, Respects R (post request))
    (hquiet : ∀ b c, Quiet b c → R b c)
    (hgone : ∀ (b : Switchboard) tickets isHeld,
      R b { b with abandoned := tickets, isHeld := isHeld })
    {act : Act} (hturn : ∀ t, act ≠ .turn t) : Respects R act.call := by
  have hclose (i : Nat) : Respects R (Stream.close i) :=
    (respects_find i).bind fun _ => (hpost _).attempt.bind fun _ => .pure _
  have hput (i : Nat) (s : Stream) : Respects R (Stream.put i s) :=
    fun b => hquiet b _ ((quiet_put i s).state b)
  have hneglect (i : Nat) :
      Respects R (do Stream.put i { ← Stream.find i with isHeld := false }) :=
    (respects_find i).bind fun _ => hput i _
  cases act with
  | connect | capture | shutdown => exact (hpost _).bind fun _ => .pure _
  | abandon ticket => exact fun b => hgone b _ _
  | release => exact fun b => hgone b _ _
  | write i bytes =>
    exact ((respects_find i).bind fun _ => (hpost _).bind fun _ => (respects_find i).bind fun _ =>
      (hput i _).bind fun _ => .pure _).bind fun _ => .pure _
  | flush i => exact (quiet_flush i).mono hquiet
  | close i => exact hclose i
  | drop i => exact (hclose i).bind fun _ => hneglect i
  | neglect i => exact hneglect i
  | read i most hm => exact ((quiet_read i most).mono hquiet).bind fun _ => .pure _
  | turn t => exact absurd rfl (hturn t)
  | world | tick => exact fun b => hquiet b _ ⟨_, _, _, rfl⟩

end

theorem numbers_call (act : Act) : Respects Numbers act.call := by
  by_cases hturn : ∃ t, act = .turn t
  · obtain ⟨t, rfl⟩ := hturn
    refine Respects.get.bind fun b => ?_
    split
    · exact numbers_take t
    · exact .pure _
  · refine respects_call numbers_post (fun b c hq h => ?_) (fun b _ _ h => h.of_eq rfl rfl rfl)
      fun t ht => hturn ⟨t, ht⟩
    obtain ⟨_, _, _, rfl⟩ := hq
    exact h.of_eq rfl rfl rfl

end Switchboard

/-! ## Sessions -/

namespace Session

open Switchboard

theorem numbered_run (e : Tunnel.Ends) (before : List Stack.Act) (acts : List Act) :
    (run e before acts).board.Numbered := by
  have h : (start (Stack.play before (Stack.ofEnds e))).board.Numbered := by
    refine ⟨List.nodup_nil, ?_, ?_, ?_⟩
    all_goals exact fun _ hr => absurd hr List.not_mem_nil
  unfold run
  generalize start (Stack.play before (Stack.ofEnds e)) = w at h
  induction acts generalizing w with
  | nil => exact h
  | cons act acts ih => exact ih _ ((numbers_call act).state w.board h)

end Session

end Tether.Tunnel
