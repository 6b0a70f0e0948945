import Tether.Proofs.Tunnel.Delivery

/-!
# Turns

A turn of a switchboard serves a request or reads from the tunnel. In between two turns the routes
are those in use; in the course of a turn, some routes may already be out of use that are still to
be forgotten.

* `Quiet`: what passing on leaves alone;
* `respects_dispatch`, `respects_stop`: a relation that steps of a turn respect;
* `Delivers.passOn`, `Delivers.dispatch`: what has arrived is passed on;
* `Serves.take`: what holds of the streams between turns, after one more turn.
-/

namespace Tether.Tunnel

open Net Call

namespace Stack

variable {s t : Stack} {port peerPort : UInt16} {first : UInt32}

/-- Closing fails or not, but it does not wait, and the connection is forgotten. -/
theorem ends_closing (h : s.Kept) (port : UInt16) :
    (close port).Ends s
      (fun _ t => (t.Kept ∧ Grows (fun e => PostsOf port e ∨ e = .forgotten port) s t) ∧
        t.ledger.at? port = none)
      (fun h t => h ≠ .waiting ∧
        (t.Kept ∧ Grows (fun e => PostsOf port e ∨ e = .forgotten port) s t) ∧
        t.ledger.at? port = none) := by
  cases hl : s.links.get? port with
  | none =>
    refine (ends_close_none hl).mono (fun _ _ => False.elim) fun _ t ht => ?_
    obtain ⟨rfl, rfl⟩ := ht
    exact ⟨nofun, ⟨h, .refl _⟩, h.get?_eq_none_iff.1 hl⟩
  | some l =>
    refine ((ends_close h hl).and (grows_close port s)).mono (fun _ t ht => ?_) fun _ t ht => ?_
    · obtain ⟨⟨hk, hj⟩, hg⟩ := ht
      refine ⟨⟨hk, hg⟩, ?_⟩
      rw [ledger, hj]
      exact Ledger.at?_note_forgotten _ _
    · obtain ⟨⟨hw, hk, -, hat⟩, hg⟩ := ht
      exact ⟨hw, ⟨hk, hg⟩, hat⟩

/-- Shutting down fails or not, but it does not wait. -/
theorem ends_shutdown (h : s.Kept) :
    shutdown.Ends s (fun _ t => t.Kept ∧ Grows (fun e => ∃ port, e = .forgotten port) s t)
      (fun h t => h ≠ .waiting ∧ t.Kept ∧ Grows (fun e => ∃ port, e = .forgotten port) s t) := by
  have hwait : shutdown.Ends s (fun _ _ => True) (fun h _ => h ≠ .waiting) := by
    unfold shutdown onTransport
    rw [ends_bind, ends_modify, ends_zoom]
    unfold Call.Ends Transport.shutdown
    cases s.transport.shutFault with
    | none => trivial
    | some fault => nofun
  exact (((keeps_shutdown s).and (grows_shutdown s)).and hwait).mono
    (fun _ _ ht => ⟨ht.1.1 h, ht.1.2⟩) fun _ _ ht => ⟨ht.2, ht.1.1 h, ht.1.2⟩

/-- Sending takes no bytes, and begins and ends no connection. -/
theorem grows_send (port : UInt16) (bytes : Bytes) :
    Respects (Grows fun e => e.isTaken = false ∧ e.isTurn = false)
      (do queue port bytes; flush) := by
  have hpost {e : Event} (he : e.isPost = true) : e.isTaken = false ∧ e.isTurn = false :=
    ⟨Event.isTaken_of_isTraffic (Event.isTraffic_of_isPost he),
      Event.isTurn_of_isTraffic (Event.isTraffic_of_isPost he)⟩
  refine (respects_of_grows (grows_queue port bytes) ?_).bind fun _ s => ?_
  · rintro e rfl
    exact ⟨rfl, rfl⟩
  · refine (grows_flush s).mono (fun _ _ ht => ht.mono ?_) fun _ _ ht => ht.mono ?_
    · rintro e ⟨l, -, -, he⟩
      exact hpost he
    · rintro e ⟨l, -, -, he⟩
      exact hpost he

/-- Beginning a connection takes no bytes, and concerns no connection at another port. -/
theorem Dialed.events (h : Dialed peerPort first port s t) :
    ∃ es : Journal, t.journal = es ++ s.journal ∧
      ∀ e ∈ es, e.isTaken = false ∧ (e.isTurn = true → e.port = port) := by
  obtain ⟨-, -, es, hj, hes⟩ := h
  refine ⟨es ++ [.opened port peerPort first], by rw [hj]; simp, fun e he => ?_⟩
  rcases List.mem_append.1 he with he | he
  · refine ⟨Event.isTaken_of_isTraffic (hes e he), fun hturn => ?_⟩
    rw [Event.isTurn_of_isTraffic (hes e he)] at hturn
    cases hturn
  · rw [List.mem_singleton.1 he]
    exact ⟨rfl, fun _ => rfl⟩

/-- The port of a connection that was just begun stands for a new account, from which nothing was
taken. -/
theorem Dialed.account (h : Dialed peerPort first port s t) :
    t.ledger.holder port = some s.ledger.accounts.length ∧
      ∃ a, t.ledger.accounts[s.ledger.accounts.length]? = some a ∧ a.port = port ∧
        a.taken = [] := by
  obtain ⟨-, -, es, hj, hes⟩ := h
  have hnew : (Ledger.ofJournal (.opened port peerPort first :: s.journal)).accounts[
      s.ledger.accounts.length]? = some { port, peerPort, first } :=
    List.getElem?_concat_length
  obtain ⟨a, ha, hprec, htaken⟩ := Ledger.exists_precedes hnew es
  refine ⟨?_, a, by rw [ledger, hj]; exact ha, hprec.port,
    htaken fun e he => Event.isTaken_of_isTraffic (hes e he)⟩
  rw [ledger, hj, Ledger.holder_append fun e he hturn => ?_]
  · exact if_pos rfl
  · rw [Event.isTurn_of_isTraffic (hes e he)] at hturn
    cases hturn

end Stack

namespace Switchboard

/-- Nothing but the stack, the routes and the streams has changed. -/
abbrev Quiet (b c : Switchboard) : Prop :=
  ∃ stack routes streams, c = { b with stack, routes, streams }

instance : IsPreorder Switchboard Quiet where
  refl b := ⟨b.stack, b.routes, b.streams, rfl⟩
  trans _ _ _ := by
    rintro ⟨_, _, _, rfl⟩ ⟨_, _, _, rfl⟩
    exact ⟨_, _, _, rfl⟩

theorem quiet_onStack {α : Type} (c : Call TunnelError Stack α) : Respects Quiet (onStack c) :=
  (Respects.top c).zoom fun b t _ => ⟨t, b.routes, b.streams, rfl⟩

theorem quiet_deliver (i : Nat) (p : Piece) : Respects Quiet (deliver i p) := by
  refine Respects.get.bind fun b => ?_
  cases b.streams[i]? with
  | none => exact .pure _
  | some s =>
    dsimp only
    split
    · exact Respects.bind (fun c => ⟨c.stack, c.routes, _, rfl⟩) fun _ => .pure _
    · exact .pure _

theorem quiet_unroute (port : UInt16) : Respects Quiet (unroute port) :=
  fun b => ⟨b.stack, _, _, rfl⟩

/-- The second part of passing on: a stream is told if its connection is over. -/
def passEnd (route : UInt16 × Nat) : Call TunnelError Switchboard Bool := do
  match (← get).stack.links.get? route.1 with
  | some { status := .ended fault, .. } =>
    let _ ← deliver route.2 (lastPiece fault)
    return true
  | _ => return false

theorem passOn_eq (route : UInt16 × Nat) :
    passOn route = (do
      let arrived : Except TunnelError Bytes ← Call.attempt (onStack (Stack.take route.1))
      match arrived with
      | .error e =>
        let _ ← deliver route.2 (.error e)
        return true
      | .ok bytes =>
        if bytes.isEmpty then passEnd route
        else if ← deliver route.2 (.ok bytes) then passEnd route
        else return true) := by
  unfold passOn passEnd
  congr 1
  funext arrived
  cases arrived with
  | error e => rfl
  | ok bytes =>
    cases bytes with
    | nil => rfl
    | cons x bytes =>
      refine congrArg (deliver route.2 (.ok (x :: bytes)) >>= ·) (funext fun isHeld => ?_)
      cases isHeld <;> rfl

section Steps

/-! Steps of which turns are made respect a relation if the calls of which they are made do. -/

variable {R : Switchboard → Switchboard → Prop} [IsPreorder Switchboard R]

theorem respects_tryOnStack {d : Call TunnelError Stack Unit} (h : Respects R (onStack d)) :
    Respects R (tryOnStack d) :=
  h.attempt.bind fun _ => .pure _

variable (htake : ∀ port, Respects R (onStack (Stack.take port)))
  (hclose : ∀ port, Respects R (onStack (Stack.close port)))
  (hunroute : ∀ port, Respects R (unroute port))
  (hdeliver : ∀ i piece, Respects R (deliver i piece))

include hclose hunroute in
theorem respects_hangUp (port : UInt16) : Respects R (hangUp port) :=
  (hunroute port).bind fun _ => respects_tryOnStack (hclose port)

include htake hdeliver in
theorem respects_passOnAll (routes : List (UInt16 × Nat)) : Respects R (passOnAll routes) := by
  have hend (route : UInt16 × Nat) : Respects R (passEnd route) := by
    refine Respects.get.bind fun b => ?_
    split
    · exact (hdeliver _ _).bind fun _ => .pure _
    · exact .pure _
  have hpassOn (route : UInt16 × Nat) : Respects R (passOn route) := by
    rw [passOn_eq]
    refine (htake route.1).attempt.bind fun arrived => ?_
    rcases arrived with e | bytes
    · exact (hdeliver _ _).bind fun _ => .pure _
    · dsimp only
      split
      · exact hend route
      · refine (hdeliver _ _).bind fun isHeld => ?_
        split
        · exact hend route
        · exact .pure _
  induction routes with
  | nil => exact .pure _
  | cons route routes ih => exact (hpassOn route).bind fun _ => ih.bind fun _ => .pure _

include htake hclose hunroute hdeliver in
theorem respects_dispatch : Respects R dispatch :=
  Respects.get.bind fun _ => (respects_passOnAll htake hdeliver _).bind fun _ =>
    .forM fun port _ => respects_hangUp hclose hunroute port

include hclose hunroute in
theorem respects_stop (hshutdown : Respects R (onStack Stack.shutdown))
    (hstopped : ∀ b : Switchboard, R b { b with isRunning := false, requests := [] }) :
    Respects R stop :=
  Respects.get.bind fun _ => (Respects.forM fun port _ => respects_tryOnStack (hclose port)).bind
    fun _ => Respects.get.bind fun _ => (Respects.forM fun port _ => hunroute port).bind fun _ =>
      (respects_tryOnStack hshutdown).bind fun _ => .modify hstopped

end Steps

theorem quiet_hangUp (port : UInt16) : Respects Quiet (hangUp port) :=
  respects_hangUp (fun _ => quiet_onStack _) quiet_unroute port

theorem quiet_dispatch : Respects Quiet dispatch :=
  respects_dispatch (fun _ => quiet_onStack _) (fun _ => quiet_onStack _) quiet_unroute
    quiet_deliver

/-! ## Passing on -/

variable {m : Notes} {fell : Nat → Prop} {live : List (UInt16 × Nat)} {b c : Switchboard} {s : Stream} {t : Stack}
  {es : Journal} {port : UInt16} {i : Nat} {l : Link} {p : Piece}

theorem ends_deliver (hs : b.streams[i]? = some s) (p : Piece) :
    (deliver i p).Ends b
      (fun isHeld c => isHeld = s.isHeld ∧
        c = { b with streams := if s.isHeld then b.streams.set i (s.push p) else b.streams })
      (fun _ _ => False) := by
  unfold deliver
  rw [ends_bind, ends_get, hs]
  dsimp only
  by_cases hh : s.isHeld = true
  · rw [if_pos hh, if_pos hh]
    exact ⟨rfl, rfl⟩
  · rw [if_neg hh, if_neg hh]
    exact ⟨rfl, rfl⟩

/-- What a stream is told about its connection being over is true. -/
theorem isFinal_lastPiece {a : Account} {passed : Bytes} {fault : Fault} {isFelled : Prop}
    (ht : a.Tells l) (hr : l.received = []) (hl : l.status = .ended fault)
    (hp : a.taken = passed) : Stream.IsFinal a passed isFelled (lastPiece fault) := by
  have hacc : passed = a.accepted := by rw [← ht.received, hr, List.append_nil, hp]
  have hs : a.heard.status = .ended fault := ht.status ▸ hl
  unfold lastPiece
  split
  · next hf => exact ⟨rfl, hacc, hf ▸ hs⟩
  · intro he _
    have hf : fault = .connectionReset := he
    exact ⟨hacc, hf ▸ hs⟩

/-- A route is out of use once it is finished. -/
def unused (live : List (UInt16 × Nat)) (finished : List UInt16) : List (UInt16 × Nat) :=
  live.filter fun r => r.1 ∉ finished

@[simp] theorem unused_nil (live : List (UInt16 × Nat)) : unused live [] = live :=
  List.filter_eq_self.2 fun _ _ => rfl

theorem unused_unused (live : List (UInt16 × Nat)) (ps qs : List UInt16) :
    unused (unused live ps) qs = unused live (ps ++ qs) := by
  unfold unused
  rw [List.filter_filter]
  refine List.filter_congr fun r _ => ?_
  by_cases hp : r.1 ∈ ps <;> by_cases hq : r.1 ∈ qs <;> simp [hp, hq]

namespace Delivers

/-- A stream has one route in use at most. -/
theorem port_eq (h : Delivers m live b) {q : UInt16} (hr : (port, i) ∈ live)
    (hq : (q, i) ∈ live) : q = port :=
  (Ledger.sound_ofJournal _).holder_inj (h.held _ hq) (h.held _ hr)

theorem not_mem_unused (h : Delivers m live b) (hr : (port, i) ∈ live) (q : UInt16) :
    (q, i) ∉ unused live [port] := by
  intro hq
  obtain ⟨hq, hne⟩ := List.mem_filter.1 hq
  obtain rfl := h.port_eq hr hq
  simp at hne

/-- The last piece for a stream is put into its inbox. -/
theorem ends_tell (h : Delivers m live b) (hr : (port, i) ∈ live)
    (hf : ∀ a s, b.stack.ledger.accounts[m.owner i]? = some a → b.streams[i]? = some s →
      a.taken = s.passed (m.reads i) → Stream.IsFinal a (s.passed (m.reads i)) (m.fell i) p) :
    (deliver i p).Ends b
      (fun _ c => Delivers m (unused live [port]) c ∧ c.stack = b.stack ∧ c.routes = b.routes)
      (fun _ _ => False) := by
  obtain ⟨s, hs⟩ := h.exists_stream hr
  refine (ends_deliver hs p).mono (fun _ c hc => ?_) fun _ _ => id
  obtain ⟨-, rfl⟩ := hc
  exact ⟨h.tell hr hs (fun a ha _ ht => hf a s ha hs ht)
    (fun r hr => List.mem_of_mem_filter hr) (h.not_mem_unused hr), rfl, rfl⟩

/-- Once all bytes were taken that were received on a route, its stream can be told the end. -/
theorem passEnd (h : Delivers m live b) (hr : (port, i) ∈ live)
    (hl : b.stack.links.get? port = some l) (hrec : l.received = []) :
    (passEnd (port, i)).Ends b
      (fun isLast c => Delivers m (unused live (if isLast then [port] else [])) c ∧
        c.routes = b.routes)
      (fun _ _ => False) := by
  unfold Switchboard.passEnd
  rw [ends_bind, ends_get, hl]
  dsimp only
  split
  · next peerPort sequence expected received queued fault heq =>
    obtain rfl := Option.some.inj heq
    rw [ends_bind]
    refine (h.ends_tell hr fun a s ha hs ht => ?_).mono (fun _ c hc => ⟨hc.1, hc.2.2⟩) fun _ _ => id
    obtain ⟨a', ha', htells⟩ := h.kept.exists_account hl
    obtain ⟨a'', hat, hacc, -⟩ := (Ledger.sound_ofJournal _).exists_at? (h.held _ hr)
    obtain rfl : a' = a'' := Option.some.inj (ha'.symm.trans hat)
    obtain rfl : a' = a := Option.some.inj (hacc.symm.trans ha)
    exact isFinal_lastPiece htells hrec rfl ht
  · exact ⟨(unused_nil live).symm ▸ h, rfl⟩

/-- What has arrived on a route is passed on, and the route is in use no more if it was the
last. -/
theorem passOn (h : Delivers m live b) (hr : (port, i) ∈ live) :
    (passOn (port, i)).Ends b
      (fun isLast c => Delivers m (unused live (if isLast then [port] else [])) c ∧
        c.routes = b.routes)
      (fun _ _ => False) := by
  obtain ⟨l, hl⟩ := h.exists_link hr
  obtain ⟨s, hs⟩ := h.exists_stream hr
  rw [passOn_eq]
  unfold Switchboard.onStack
  rw [ends_bind, ends_attempt, ends_zoom]
  refine (Stack.ends_take h.kept hl).mono (fun bytes t ht => ?_) fun _ _ => False.elim
  obtain ⟨rfl, hk, hj, hlinks⟩ := ht
  have htake := h.take hr hs hk hj
  have hl' : t.links.get? port = some { l with received := [] } := by
    rw [hlinks, Table.get?_update_self hl]
  dsimp only
  by_cases hb : l.received = []
  · rw [if_pos (List.isEmpty_iff.2 hb)]
    have hin : Delivers m live { b with stack := t } := htake.of_eq rfl rfl (by simp [hb])
    exact hin.passEnd hr hl' rfl
  · rw [if_neg (by simpa using hb), ends_bind]
    refine (ends_deliver (b := { b with stack := t }) hs _).mono (fun isHeld c hc => ?_)
      fun _ _ => id
    obtain ⟨rfl, hc⟩ := hc
    have hin : Delivers m live c := htake.of_eq (hc ▸ rfl) (hc ▸ rfl) (by simp [hc, hb])
    have hl'' : c.stack.links.get? port = some { l with received := [] } := hc ▸ hl'
    have hroutes : c.routes = b.routes := hc ▸ rfl
    split
    · exact (hin.passEnd hr hl'' rfl).mono (fun _ _ hd => ⟨hd.1, hd.2.trans hroutes⟩) fun _ _ => id
    · exact ⟨hin.shrink (fun r hr => List.mem_of_mem_filter hr) fun _ hf => hf, hroutes⟩

theorem passOnAll (todo : List (UInt16 × Nat)) (h : Delivers m live b)
    (hsub : ∀ r ∈ todo, r ∈ live) (hnodup : (todo.map Prod.fst).Nodup) :
    (passOnAll todo).Ends b
      (fun finished c => Delivers m (unused live finished) c ∧ c.routes = b.routes)
      (fun _ _ => False) := by
  induction todo generalizing live b with
  | nil => exact ⟨(unused_nil live).symm ▸ h, rfl⟩
  | cons r todo ih =>
    obtain ⟨port, i⟩ := r
    rw [List.map_cons, List.nodup_cons] at hnodup
    unfold Switchboard.passOnAll
    rw [ends_bind]
    refine (h.passOn (hsub _ List.mem_cons_self)).mono (fun isLast c hc => ?_) fun _ _ => id
    rw [ends_bind]
    have hsub' : ∀ r ∈ todo, r ∈ unused live (if isLast then [port] else []) := by
      refine fun r hr => List.mem_filter.2 ⟨hsub r (List.mem_cons_of_mem _ hr), ?_⟩
      have hne : r.1 ≠ port := fun hp => hnodup.1 (List.mem_map.2 ⟨r, hr, hp⟩)
      cases isLast <;> simp [hne]
    refine (ih hc.1 hsub' hnodup.2).mono (fun finished d hd => ?_) fun _ _ => id
    refine ⟨?_, hd.2.trans hc.2⟩
    rw [unused_unused] at hd
    cases isLast <;> exact hd.1

/-- The route of a port is forgotten, and its stream gets no more. -/
theorem unroute (h : Delivers m live b) (hp : ∀ r ∈ live, r.1 ≠ port) :
    (unroute port).Ends b
      (fun _ c => Delivers m live c ∧ c.routes = unused b.routes [port] ∧ c.stack = b.stack)
      (fun _ _ => False) := by
  have hroutes : (b.routes.filter fun r => r.1 ≠ port) = unused b.routes [port] := by
    simp [unused]
  refine ⟨⟨h.kept, h.nodup.sublist (List.filter_sublist.map _), fun r hr => ?_, fun r hr => ?_,
    h.held, fun i s hs => ?_, fun i hi => h.silent i ?_, ?_⟩, hroutes, rfl⟩
  · exact List.mem_filter.2 ⟨h.sub r hr, by simpa using hp r hr⟩
  · rw [List.length_mapIdx]
    exact h.known r hr
  · rw [List.getElem?_mapIdx, Option.map_eq_some_iff] at hs
    obtain ⟨s', hs', rfl⟩ := hs
    obtain ⟨a, ha, hport, hfaith⟩ := h.streams i s' hs'
    refine ⟨a, ha, ?_, ?_⟩
    · rw [hport]
      split <;> rfl
    · split
      · exact hfaith.of_eq rfl rfl rfl id
      · exact hfaith
  · rwa [List.length_mapIdx] at hi
  · rw [List.length_mapIdx]
    exact h.count_le

/-- The stack is called, whatever comes of it. -/
theorem tryOnStack {d : Call TunnelError Stack Unit} {P : Event → Prop} (h : Delivers m live b)
    (hd : d.Ends b.stack (fun _ t => t.Kept ∧ Stack.Grows P b.stack t)
      (fun h t => h ≠ .waiting ∧ t.Kept ∧ Stack.Grows P b.stack t))
    (hP : ∀ e, P e → e.isTaken = false ∧ (e.isTurn = true → ∀ r ∈ live, e.port ≠ r.1)) :
    (tryOnStack d).Ends b
      (fun _ c => Delivers m live c ∧ c.routes = b.routes) (fun _ _ => False) := by
  have hstack {t : Stack} (hk : t.Kept) (hg : Stack.Grows P b.stack t) :
      Delivers m live { b with stack := t } := by
    obtain ⟨es, hj, hes, -⟩ := hg.events
    exact h.onStack hk hj (fun e he => (hP e (hes e he)).1) fun e he => (hP e (hes e he)).2
  unfold Switchboard.tryOnStack Switchboard.onStack
  rw [ends_bind, ends_attempt, ends_zoom]
  refine hd.mono (fun _ t ht => ⟨hstack ht.1 ht.2, rfl⟩) fun h' t ht => ?_
  cases h' with
  | failed e => exact ⟨hstack ht.2.1 ht.2.2, rfl⟩
  | waiting => exact absurd rfl ht.1

/-- A connection that is on no route in use is closed. -/
theorem tryClose (h : Delivers m live b) (hp : ∀ r ∈ live, r.1 ≠ port) :
    (Switchboard.tryOnStack (Stack.close port)).Ends b
      (fun _ c => Delivers m live c ∧ c.routes = b.routes) (fun _ _ => False) := by
  refine h.tryOnStack ((Stack.ends_closing h.kept port).mono (fun _ _ ht => ht.1)
    fun _ _ ht => And.intro ht.1 ht.2.1) fun e he => ?_
  rcases he with ⟨hpost, rfl⟩ | rfl
  · exact ⟨Event.isTaken_of_isTraffic (Event.isTraffic_of_isPost hpost),
      fun _ r hr => (hp r hr).symm⟩
  · exact ⟨rfl, fun _ r hr => (hp r hr).symm⟩

theorem hangUp (h : Delivers m live b) (hp : ∀ r ∈ live, r.1 ≠ port) :
    (hangUp port).Ends b
      (fun _ c => Delivers m live c ∧ c.routes = unused b.routes [port]) (fun _ _ => False) := by
  unfold Switchboard.hangUp
  rw [ends_bind]
  refine (h.unroute hp).mono (fun _ c hc => ?_) fun _ _ => id
  exact (hc.1.tryClose hp).mono (fun _ d hd => ⟨hd.1, hd.2.trans hc.2.1⟩) fun _ _ => id

theorem hangUpAll (ports : List UInt16) (h : Delivers m live b)
    (hp : ∀ r ∈ live, r.1 ∉ ports) :
    (ports.forM Switchboard.hangUp).Ends b
      (fun _ c => Delivers m live c ∧ c.routes = unused b.routes ports) (fun _ _ => False) := by
  induction ports generalizing b with
  | nil => exact ⟨h, (unused_nil _).symm⟩
  | cons port ports ih =>
    rw [List.forM, ends_bind]
    refine (h.hangUp fun r hr hport => hp r hr (by simp [hport])).mono (fun _ c hc => ?_)
      fun _ _ => id
    refine (ih hc.1 fun r hr hports => hp r hr (List.mem_cons_of_mem _ hports)).mono
      (fun _ d hd => ⟨hd.1, ?_⟩) fun _ _ => id
    rw [hd.2, hc.2, unused_unused]
    rfl

/-- What has arrived is passed on, and the routes that are left are in use. -/
theorem dispatch (h : Delivers m b.routes b) :
    dispatch.Ends b (fun _ c => Delivers m c.routes c) (fun _ _ => False) := by
  unfold Switchboard.dispatch
  rw [ends_bind, ends_get, ends_bind]
  refine (h.passOnAll b.routes (fun _ hr => hr) h.nodup).mono (fun finished c hc => ?_) fun _ _ => id
  refine (hc.1.hangUpAll finished fun r hr => ?_).mono (fun _ d hd => ?_) fun _ _ => id
  · simpa using (List.mem_filter.1 hr).2
  · rw [hd.2, hc.2]
    exact hd.1

/-- With no route in use, all connections may be closed. -/
theorem stop (h : Delivers m [] b) :
    stop.Ends b (fun _ c => Delivers m [] c ∧ c.isRunning = false) (fun _ _ => False) := by
  unfold Switchboard.stop
  rw [ends_bind, ends_get, ends_bind]
  refine (ends_forM h fun port _ c hc => ?_).mono (fun _ c hc => ?_) fun _ _ => id
  · exact (hc.tryClose fun r hr => absurd hr List.not_mem_nil).mono (fun _ _ hd => hd.1) fun _ _ => id
  rw [ends_bind, ends_get, ends_bind]
  refine (ends_forM hc fun port _ c hc => ?_).mono (fun _ c hc => ?_) fun _ _ => id
  · exact (hc.unroute fun r hr => absurd hr List.not_mem_nil).mono (fun _ _ hd => hd.1) fun _ _ => id
  rw [ends_bind]
  refine (hc.tryOnStack (Stack.ends_shutdown hc.kept) fun e he => ?_).mono (fun _ c hc => ?_)
    fun _ _ => id
  · obtain ⟨port, rfl⟩ := he
    exact ⟨rfl, fun _ r hr => absurd hr List.not_mem_nil⟩
  · exact ⟨hc.1.of_eq rfl rfl rfl, rfl⟩

end Delivers

/-- Serving a request, up to passing on. A request for the end is not among those after which
anything is passed on. -/
def attend (ticket : Nat) : Request → Call TunnelError Switchboard Unit
  | .connect peerPort draws first => do
    let outcome : Except TunnelError UInt16 ←
      Call.attempt (onStack (Stack.connect peerPort draws first))
    match outcome with
    | .error e => conclude ticket (.error e)
    | .ok port =>
      if ticket ∈ (← get).abandoned then hangUp port
      else conclude ticket (.ok (← openStream port))
  | .send port bytes => do
    let outcome : Except TunnelError Unit ← Call.attempt (onStack do
      Stack.queue port bytes
      Stack.flush)
    conclude ticket (outcome.map fun _ => 0)
  | .close port => do
    if (← get).routes.any fun route => route.1 = port then hangUp port
  | .capture file => do
    let outcome : Except TunnelError Unit ← Call.attempt (onStack (Stack.startCapture file))
    conclude ticket (outcome.map fun _ => 0)
  | .shutdown => return

theorem serve_eq {request : Request} (h : request ≠ .shutdown) (ticket : Nat) :
    serve ticket request = (do attend ticket request; dispatch) := by
  cases request with
  | connect peerPort draws first =>
    rw [serve, attend, bind_assoc]
    refine congrArg _ (funext fun outcome => ?_)
    rcases outcome with e | port
    · rfl
    · dsimp only
      rw [bind_assoc]
      refine congrArg _ (funext fun b => ?_)
      split
      · rfl
      · rfl
  | send => rw [serve, attend, bind_assoc]
  | close port =>
    rw [serve, attend, bind_assoc]
    refine congrArg _ (funext fun b => ?_)
    split
    · rfl
    · rfl
  | capture => rw [serve, attend, bind_assoc]
  | shutdown => exact absurd rfl h

/-- What holds between turns: as long as the switchboard is running, all routes are in use. -/
def Serves (m : Notes) (b : Switchboard) : Prop :=
  ∃ live, (b.isRunning = true → live = b.routes) ∧ Delivers m live b

namespace Delivers

theorem serves (h : Delivers m b.routes b) : Serves m b :=
  ⟨b.routes, fun _ => rfl, h⟩

theorem dispatch_serves (h : Delivers m b.routes b) :
    Switchboard.dispatch.Ends b (fun _ => Serves m) (fun _ => Serves m) :=
  h.dispatch.mono (fun _ _ hc => hc.serves) fun _ _ => False.elim

theorem stop_serves (h : Delivers m [] b) :
    Switchboard.stop.Ends b (fun _ c => Serves m c ∧ c.isRunning = false) (fun _ _ => False) :=
  h.stop.mono (fun _ _ hc => ⟨⟨[], fun hr => by simp [hc.2] at hr, hc.1⟩, hc.2⟩) fun _ _ => id

/-! ## Serving -/

/-- No route in use has a free port. -/
theorem ne_of_free (h : Delivers m live b) (hfree : b.stack.links.get? port = none) :
    ∀ r ∈ live, r.1 ≠ port := by
  rintro ⟨q, i⟩ hr rfl
  obtain ⟨l, hl⟩ := h.exists_link hr
  rw [hfree] at hl
  cases hl

/-- A connection is begun, and maybe ended, at a port that was free. -/
theorem dial (h : Delivers m live b) (hk : t.Kept) (hfree : b.stack.links.get? port = none)
    (hj : t.journal = es ++ b.stack.journal)
    (hes : ∀ e ∈ es, e.isTaken = false ∧ (e.isTurn = true → e.port = port)) :
    Delivers m live { b with stack := t } := by
  refine h.onStack hk hj (fun e he => (hes e he).1) fun e he hturn r hr hport => ?_
  exact h.ne_of_free hfree r hr (hport.symm.trans ((hes e he).2 hturn))

/-- A stream is opened for a connection that was just begun. -/
theorem openStream {a : Account} (h : Delivers m b.routes b) (hp : ∀ r ∈ b.routes, r.1 ≠ port)
    (hh : b.stack.ledger.holder port = some (m.owner b.streams.length))
    (ha : b.stack.ledger.accounts[m.owner b.streams.length]? = some a) (hport : a.port = port)
    (htaken : a.taken = []) :
    (openStream port).Ends b (fun _ c => Delivers m c.routes c) (fun _ _ => False) := by
  have hsilent := h.silent _ (Nat.le_refl b.streams.length)
  unfold Switchboard.openStream
  rw [ends_bind, ends_get, ends_bind, ends_set, ends_pure]
  refine ⟨h.kept, ?_, fun _ hr => hr, fun r hr => ?_, fun r hr => ?_, fun i s hs => ?_,
    fun i hi => h.silent i ?_, ?_⟩
  · rw [List.map_append, List.nodup_append]
    refine ⟨h.nodup, List.nodup_singleton _, fun p hp' q hq => ?_⟩
    obtain ⟨r, hr, rfl⟩ := List.mem_map.1 hp'
    rw [List.mem_singleton.1 hq]
    exact hp r hr
  · rw [List.length_append, List.length_singleton]
    rcases List.mem_append.1 hr with hr | hr
    · exact Nat.lt_succ_of_lt (h.known r hr)
    · rw [List.mem_singleton.1 hr]
      exact Nat.lt_succ_self _
  · rcases List.mem_append.1 hr with hr | hr
    · exact h.held r hr
    · rw [List.mem_singleton.1 hr]
      exact hh
  · rcases Nat.lt_trichotomy i b.streams.length with hi | rfl | hi
    · rw [List.getElem?_append_left hi] at hs
      obtain ⟨a', ha', hport', hfaith⟩ := h.streams i s hs
      refine ⟨a', ha', hport', hfaith.mono (.refl _) (fun hl => ?_) id fun _ _ => rfl⟩
      obtain ⟨q, hq⟩ := hl
      rcases List.mem_append.1 hq with hq | hq
      · exact ⟨q, hq⟩
      · cases List.mem_singleton.1 hq
        exact absurd hi (Nat.lt_irrefl _)
    · rw [List.getElem?_concat_length] at hs
      obtain rfl := Option.some.inj hs
      refine ⟨a, ha, hport, ?_⟩
      have hpassed : Stream.passed [] { port := port } = a.taken := htaken.symm
      rw [hsilent]
      exact ⟨hpassed ▸ List.prefix_rfl, fun _ _ => hpassed, .plain rfl nofun, nofun, nofun⟩
    · rw [List.getElem?_eq_none (by rw [List.length_append]; exact hi)] at hs
      cases hs
  · rw [List.length_append] at hi
    omega
  · rw [List.length_append]
    exact Nat.le_add_right_of_le h.count_le

/-- A call on the stack is served that neither takes bytes nor begins or ends a connection. -/
theorem onCall {d : Call TunnelError Stack Unit} (h : Delivers m b.routes b) (ticket : Nat)
    (hk : Respects Stack.Keeps d)
    (hg : Respects (Stack.Grows fun e => e.isTaken = false ∧ e.isTurn = false) d) :
    (do
      let outcome : Except TunnelError Unit ← Call.attempt (Switchboard.onStack d)
      conclude ticket (outcome.map fun _ => 0)).Ends b (fun _ c => Delivers m c.routes c)
      (fun _ c => Delivers m c.routes c) := by
  have hstack {t : Stack} (hk : t.Kept)
      (hg : Stack.Grows (fun e => e.isTaken = false ∧ e.isTurn = false) b.stack t) :
      Delivers m b.routes { b with stack := t } := by
    obtain ⟨es, hj, hes, -⟩ := hg.events
    refine h.onStack hk hj (fun e he => (hes e he).1) fun e he hturn => ?_
    rw [(hes e he).2] at hturn
    cases hturn
  unfold Switchboard.onStack
  rw [ends_bind, ends_attempt, ends_zoom]
  refine ((hk b.stack).and (hg b.stack)).mono (fun _ t ht => ?_) fun h' t ht => ?_
  · exact (hstack (ht.1 h.kept) ht.2).of_eq rfl rfl rfl
  · cases h' with
    | waiting => exact hstack (ht.1 h.kept) ht.2
    | failed e => exact (hstack (ht.1 h.kept) ht.2).of_eq rfl rfl rfl

theorem attend (h : Delivers m b.routes b)
    (hnew : m.owner b.streams.length = b.stack.ledger.accounts.length) (ticket : Nat)
    (request : Request) :
    (attend ticket request).Ends b (fun _ c => Delivers m c.routes c)
      (fun _ c => Delivers m c.routes c) := by
  cases request with
  | connect peerPort draws first =>
    unfold Switchboard.attend Switchboard.onStack
    rw [ends_bind, ends_attempt, ends_zoom]
    refine (Stack.ends_connect h.kept peerPort draws first).mono (fun port t ht => ?_)
      fun h' t ht => ?_
    · obtain ⟨hk, hd, -⟩ := ht
      obtain ⟨es, hj, hes⟩ := hd.events
      obtain ⟨hholder, a, ha, hport, htaken⟩ := hd.account
      have hdial := h.dial hk hd.1 hj hes
      have hfree : ∀ r ∈ b.routes, r.1 ≠ port := h.ne_of_free hd.1
      dsimp only
      rw [ends_bind, ends_get]
      split
      · refine (hdial.hangUp hfree).mono (fun _ c hc => ?_) fun _ _ => False.elim
        have hroutes : unused b.routes [port] = b.routes :=
          List.filter_eq_self.2 fun r hr => by simpa using hfree r hr
        rw [hc.2]
        exact hroutes.symm ▸ hc.1
      · rw [ends_bind]
        rw [← hnew] at hholder ha
        have hopen := Delivers.openStream (b := { b with stack := t }) hdial hfree hholder ha hport
          htaken
        exact hopen.mono (fun i c hc => hc.of_eq rfl rfl rfl) fun _ _ => False.elim
    · obtain ⟨hk, ⟨rfl, rfl⟩ | ⟨hw, port, u, hd, hj⟩⟩ := ht
      · exact h
      · obtain ⟨es, hj', hes⟩ := hd.events
        cases h' with
        | waiting => exact absurd rfl hw
        | failed e =>
          have hj'' : t.journal = (.forgotten port :: es) ++ b.stack.journal := by
            rw [hj, hj']
            rfl
          have hdial : Delivers m b.routes { b with stack := t } := by
            refine h.dial hk hd.1 hj'' fun e he => ?_
            rcases List.mem_cons.1 he with rfl | he
            · exact ⟨rfl, fun _ => rfl⟩
            · exact hes e he
          exact hdial.of_eq rfl rfl rfl
  | send port bytes =>
    exact h.onCall ticket ((Stack.keeps_queue port bytes).bind fun _ => Stack.keeps_flush)
      (Stack.grows_send port bytes)
  | close port =>
    unfold Switchboard.attend
    rw [ends_bind, ends_get]
    have hshrink : Delivers m (unused b.routes [port]) b :=
      h.shrink (fun r hr => List.mem_of_mem_filter hr) fun _ hf => hf
    split
    · refine (hshrink.hangUp fun r hr => ?_).mono (fun _ c hc => ?_) fun _ _ => False.elim
      · simpa using (List.mem_filter.1 hr).2
      · exact hc.2.symm ▸ hc.1
    · exact h
  | capture file =>
    exact h.onCall ticket (Stack.keeps_act (.startCapture file)) (Stack.grows_startCapture file)
  | shutdown => exact h

theorem serve (h : Delivers m b.routes b)
    (hnew : m.owner b.streams.length = b.stack.ledger.accounts.length) (ticket : Nat)
    (request : Request) :
    (serve ticket request).Ends b (fun _ => Serves m) (fun _ => Serves m) := by
  by_cases hshut : request = .shutdown
  · subst hshut
    unfold Switchboard.serve
    rw [ends_bind]
    refine ((h.shrink (fun _ hr => absurd hr List.not_mem_nil) fun _ hf => hf).stop).mono
      (fun _ c hc => ?_) fun _ _ => False.elim
    exact ⟨[], fun hr => by simp [hc.2] at hr, hc.1.of_eq rfl rfl rfl⟩
  · rw [serve_eq hshut, ends_bind]
    exact (h.attend hnew ticket request).mono (fun _ _ hc => hc.dispatch_serves)
      fun _ _ hc => hc.serves

theorem serveNext (h : Delivers m b.routes b)
    (hnew : m.owner b.streams.length = b.stack.ledger.accounts.length) :
    serveNext.Ends b (fun _ => Serves m) (fun _ => Serves m) := by
  unfold Switchboard.serveNext
  rw [ends_bind, ends_get]
  split
  · next ticket request later _ =>
    rw [ends_bind, ends_modify]
    exact Delivers.serve (b := { b with requests := later }) (h.of_eq rfl rfl rfl) hnew ticket request
  · rw [ends_bind, ends_get]
    split
    · exact h.serves
    · have hnone : Delivers m [] b :=
        h.shrink (fun _ hr => absurd hr List.not_mem_nil) fun _ hf => hf
      exact hnone.stop_serves.mono (fun _ _ hc => hc.1) fun _ _ => False.elim

/-! ## Reading from the tunnel -/

/-- Each stream is told that the tunnel has failed. -/
theorem tellAll (todo : List (UInt16 × Nat)) (e : TunnelError) (h : Delivers m todo b)
    (hnodup : (todo.map Prod.fst).Nodup) (hfell : ∀ r ∈ todo, m.fell r.2) :
    (todo.forM fun r => do let _ ← deliver r.2 (.error e)).Ends b
      (fun _ c => Delivers m [] c) (fun _ _ => False) := by
  induction todo generalizing b with
  | nil => exact h
  | cons r todo ih =>
    obtain ⟨port, i⟩ := r
    rw [List.map_cons, List.nodup_cons] at hnodup
    have hrest : unused ((port, i) :: todo) [port] = todo := by
      rw [unused, List.filter_cons_of_neg (by simp)]
      refine List.filter_eq_self.2 fun r hr => ?_
      have hne : r.1 ≠ port := fun hp => hnodup.1 (List.mem_map.2 ⟨r, hr, hp⟩)
      simpa using hne
    have hfinal : m.fell i := hfell _ List.mem_cons_self
    rw [List.forM, ends_bind, ends_bind]
    refine (h.ends_tell (p := .error e) List.mem_cons_self fun a s _ _ _ _ hn =>
      absurd hfinal hn).mono (fun _ c hc => ?_) fun _ _ => id
    rw [hrest] at hc
    exact ih hc.1 hnodup.2 fun r hr => hfell r (List.mem_cons_of_mem _ hr)

/-- Traffic takes no bytes, and begins and ends no connection. -/
theorem traffic (h : Delivers m live b) (hk : t.Kept)
    (hg : Stack.Grows (Event.isTraffic ·) b.stack t) : Delivers m live { b with stack := t } := by
  obtain ⟨es, hj, hes, -⟩ := hg.events
  refine h.onStack hk hj (fun e he => Event.isTaken_of_isTraffic (hes e he)) fun e he hturn => ?_
  rw [Event.isTurn_of_isTraffic (hes e he)] at hturn
  cases hturn

/-- A failure of the tunnel is told, and is the end of the switchboard. -/
theorem breakDown (h : Delivers m b.routes b) (e : TunnelError)
    (hfell : ∀ r ∈ b.routes, m.fell r.2) :
    (do
      (← get).routes.forM fun r => do
        let _ ← deliver r.2 (.error e)
      Switchboard.stop : Call TunnelError Switchboard Unit).Ends b
      (fun _ c => Serves m c ∧ c.isRunning = false) (fun _ _ => False) := by
  rw [ends_bind, ends_get, ends_bind]
  exact (h.tellAll b.routes e h.nodup hfell).mono (fun _ _ hc => hc.stop_serves) fun _ _ => id

theorem listen (h : Delivers m b.routes b) (hm : ∀ i, m.fell i → fell i)
    (hfelled : ∀ i ∈ (Act.turn .atTunnel).felled b, fell i) :
    listen.Ends b (fun _ => Serves { m with fell }) (fun _ => Serves { m with fell }) := by
  have h' : Delivers { m with fell } b.routes b := h.shrink (fun _ hr => hr) hm
  unfold Switchboard.listen Switchboard.onStack
  rw [ends_bind, ends_attempt, ends_zoom]
  refine (((Stack.keeps_process b.stack).and (Stack.grows_process b.stack)).and
    (ends_self _ _)).mono (fun _ t ht => ?_) fun h'' t ht => ?_
  · exact Delivers.dispatch_serves (h'.traffic (ht.1.1 h.kept) ht.1.2)
  · obtain ⟨⟨hk, hg⟩, hself⟩ := ht
    have htraffic := h'.traffic (hk h.kept) hg
    cases h'' with
    | waiting => exact htraffic.serves
    | failed e =>
      have hall : (Act.turn .atTunnel).felled b = b.routes.map Prod.snd := by
        simp only [Act.felled, hself]
      have hbreak := Delivers.breakDown (b := { b with stack := t }) htraffic e fun r hr =>
        hfelled _ (hall ▸ List.mem_map_of_mem hr)
      exact hbreak.mono (fun _ _ hc => hc.1) fun _ _ => False.elim

end Delivers

/-- What holds between turns holds after one more. -/
theorem Serves.take (h : Serves m b) (hr : b.isRunning = true)
    (hnew : m.owner b.streams.length = b.stack.ledger.accounts.length) (turn : Turn)
    (hm : ∀ i, m.fell i → fell i) (hfelled : ∀ i ∈ (Act.turn turn).felled b, fell i) :
    (take turn).Ends b (fun _ => Serves { m with fell }) (fun _ => Serves { m with fell }) := by
  obtain ⟨live, hl, hd⟩ := h
  obtain rfl := hl hr
  cases turn with
  | atRequests =>
    have hd' : Delivers { m with fell } b.routes b := hd.shrink (fun _ hr => hr) hm
    exact hd'.serveNext hnew
  | atTunnel => exact hd.listen hm hfelled

end Switchboard

end Tether.Tunnel
