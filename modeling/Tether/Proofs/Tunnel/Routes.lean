import Tether.Proofs.Tunnel.Emptying

/-!
# Routes and connections

A switchboard has two tables: its stack has the connections, and the routes say which stream each
of them feeds. Connections come and go by requests, by failures and by what the device does, and
each time both tables have to change. Between turns they have the same ports, if the stack was
handed over without connections: a connection of which no stream knew could never be closed, and
what it receives would wait in it for ever.

One half is that a route in use has a connection, which is part of calm (`Calm`). The other half is
shown here.

* `Routed`: each connection that the switchboard has begun is on a route;
* `Routed.take`: a turn preserves this, by way of `RoutedBut`, which lets one port wait for its
  route or for its end;
* `Session.mem_routes_iff_mem_ports`: between turns, the two tables have the same ports, and all
  connections are open and empty.
-/

namespace Tether.Tunnel

open Net Call

namespace Stack

variable {s t : Stack} {p port peerPort : UInt16} {first : UInt32} {P : Event → Prop}

/-- Who holds which port does not change as long as no connection begins or ends. -/
theorem Grows.holder_eq (h : Grows P s t) (hP : ∀ e, P e → e.isTurn = false) :
    t.ledger.holder = s.ledger.holder := by
  obtain ⟨es, hj, hes, -⟩ := h.events
  funext p
  rw [ledger, hj]
  refine Ledger.holder_append fun e he hturn => ?_
  rw [hP e (hes e he)] at hturn
  cases hturn

/-- Who holds a port does not change as long as connections begin and end at another one. -/
theorem Grows.holder_of_ne (h : Grows P s t) (hP : ∀ e, P e → e.port = port) (hp : p ≠ port) :
    t.ledger.holder p = s.ledger.holder p := by
  obtain ⟨es, hj, hes, -⟩ := h.events
  rw [ledger, hj]
  exact Ledger.holder_append fun e he _ => hP e (hes e he) ▸ hp.symm

theorem Dialed.holder_of_ne (h : Dialed peerPort first port s t) (hp : p ≠ port) :
    t.ledger.holder p = s.ledger.holder p := by
  obtain ⟨es, hj, hes⟩ := h.events
  rw [ledger, hj]
  exact Ledger.holder_append fun e he hturn => (hes e he).2 hturn ▸ hp.symm

theorem holder_eq_none_of_at? (h : s.ledger.at? p = none) : s.ledger.holder p = none := by
  cases hn : s.ledger.holder p with
  | none => rfl
  | some n =>
    obtain ⟨a, ha, -⟩ := (Ledger.sound_ofJournal s.journal).exists_at? hn
    cases h.symm.trans ha

theorem mem_ports_iff_holder (h : s.Kept) :
    p ∈ s.links.ports ↔ ∃ n, s.ledger.holder p = some n := by
  rw [Table.mem_ports_iff, ne_eq, h.get?_eq_none_iff]
  constructor
  · intro hat
    cases hn : s.ledger.holder p with
    | none => exact absurd (by rw [Ledger.at?, hn]; rfl) hat
    | some n => exact ⟨n, rfl⟩
  · rintro ⟨n, hn⟩ hat
    rw [holder_eq_none_of_at? hat] at hn
    cases hn

end Stack

namespace Switchboard

variable {m : Notes} {old : UInt16 → Nat → Prop} {b c : Switchboard} {t : Stack} {p port : UInt16}

/-- The ports on a route. -/
def routedPorts (b : Switchboard) : List UInt16 :=
  b.routes.map Prod.fst

/-- Each connection is on a route, except for that of one port, and for the `old` ones, which were
there before the switchboard: those of a port `p` that stands for the account `n`. -/
def RoutedBut (old : UInt16 → Nat → Prop) (port : UInt16) (b : Switchboard) : Prop :=
  ∀ p n, p ≠ port → b.stack.ledger.holder p = some n → old p n ∨ p ∈ b.routedPorts

/-- Each connection is on a route, except for the `old` ones. -/
def Routed (old : UInt16 → Nat → Prop) (b : Switchboard) : Prop :=
  ∀ p n, b.stack.ledger.holder p = some n → old p n ∨ p ∈ b.routedPorts

theorem Routed.but (h : Routed old b) (port : UInt16) : RoutedBut old port b :=
  fun p n _ hn => h p n hn

/-- Only the routes and the holders of ports matter. -/
theorem Routed.of_eq (h : Routed old b) (hr : c.routes = b.routes)
    (hh : c.stack.ledger.holder = b.stack.ledger.holder) : Routed old c := by
  intro p n hn
  rw [routedPorts, hr]
  exact h p n (hh ▸ hn)

/-- A connection that has come about, or has ended, leaves the others where they are. -/
theorem Routed.begun (h : Routed old b)
    (hh : ∀ p, p ≠ port → t.ledger.holder p = b.stack.ledger.holder p) :
    RoutedBut old port { b with stack := t } :=
  fun p n hp hn => h p n (hh p hp ▸ hn)

/-- The port that was waiting has no connection any more. -/
theorem RoutedBut.free (h : RoutedBut old port b) (hp : b.stack.ledger.holder port = none) :
    Routed old b := by
  intro p n hn
  by_cases heq : p = port
  · rw [heq, hp] at hn
    cases hn
  · exact h p n heq hn

/-- The port that was waiting gets its route. -/
theorem RoutedBut.openStream (h : RoutedBut old port b) :
    (openStream port).Ends b (fun _ c => c.stack = b.stack ∧ Routed old c) (fun _ _ => False) := by
  rw [Switchboard.openStream, ends_bind, ends_get, ends_bind, ends_set, ends_pure]
  refine ⟨rfl, fun p n hn => ?_⟩
  rw [routedPorts, List.map_append, List.mem_append, List.map_singleton, List.mem_singleton]
  by_cases heq : p = port
  · exact .inr (.inr heq)
  · exact (h p n heq hn).imp_right .inl

/-! ## Passing on -/

/-- The routes and the holders of ports stay as they are. -/
abbrev Remains (b c : Switchboard) : Prop :=
  c.routes = b.routes ∧ c.stack.ledger.holder = b.stack.ledger.holder

instance : IsPreorder Switchboard Remains where
  refl _ := ⟨rfl, rfl⟩
  trans _ _ _ h h' := ⟨h'.1.trans h.1, h'.2.trans h.2⟩

theorem remains_deliver (i : Nat) (piece : Piece) : Respects Remains (deliver i piece) :=
  fun b => (ends_deliver_stack i piece b).mono (fun _ _ hc => ⟨hc.2, hc.1 ▸ rfl⟩)
    fun _ _ => False.elim

theorem remains_passOnAll (routes : List (UInt16 × Nat)) : Respects Remains (passOnAll routes) := by
  refine respects_passOnAll (fun port => ?_) remains_deliver routes
  refine (Stack.grows_take port).zoom fun b t hg => ⟨rfl, hg.holder_eq ?_⟩
  rintro e ⟨bytes, rfl⟩
  rfl

/-- The port that is hung up loses its route and its connection. -/
theorem RoutedBut.hangUp (h : RoutedBut old port b) (hk : b.stack.Kept) :
    (hangUp port).Ends b (fun _ c => c.stack.Kept ∧ Routed old c) (fun _ _ => False) := by
  have hclosed {t : Stack}
      (hg : Stack.Grows (fun e => Stack.PostsOf port e ∨ e = .forgotten port) b.stack t)
      (hat : t.ledger.at? port = none) {c : Switchboard} (hs : c.stack = t)
      (hr : c.routes = b.routes.filter fun r => r.1 ≠ port) : Routed old c := by
    have hport : ∀ e, Stack.PostsOf port e ∨ e = .forgotten port → e.port = port := by
      rintro e (⟨-, he⟩ | rfl)
      · exact he
      · rfl
    have hbut : RoutedBut old port c := by
      intro p n hp hn
      rw [hs, hg.holder_of_ne hport hp] at hn
      refine (h p n hp hn).imp_right fun hmem => ?_
      obtain ⟨r, hr', rfl⟩ := List.mem_map.1 hmem
      rw [routedPorts, hr]
      exact List.mem_map_of_mem (List.mem_filter.2 ⟨hr', by simpa using hp⟩)
    exact hbut.free (hs ▸ Stack.holder_eq_none_of_at? hat)
  rw [Switchboard.hangUp, tryOnStack, onStack, unroute, ends_bind, ends_modify, ends_bind,
    ends_attempt, ends_zoom]
  refine (Stack.ends_closing hk port).mono (fun _ t ht => ?_) fun h' t ht => ?_
  · exact ⟨ht.1.1, hclosed ht.1.2 ht.2 rfl rfl⟩
  · cases h' with
    | failed e => exact ⟨ht.2.1.1, hclosed ht.2.1.2 ht.2.2 rfl rfl⟩
    | waiting => exact absurd rfl ht.1

theorem Routed.dispatch (h : Routed old b) (hk : b.stack.Kept) :
    dispatch.Ends b (fun _ => Routed old) (fun _ _ => False) := by
  rw [Switchboard.dispatch, ends_bind, ends_get, ends_bind]
  refine ((ends_passOnAll_emptied b.routes hk).and (remains_passOnAll b.routes b)).mono
    (fun finished c hc => ?_) fun _ _ hc => hc.1
  obtain ⟨⟨-, hkc, -⟩, hremains⟩ := hc
  have hc : c.stack.Kept ∧ Routed old c := ⟨hkc, h.of_eq hremains.1 hremains.2⟩
  refine (ends_forM (P := fun d => d.stack.Kept ∧ Routed old d) hc fun port _ d hd => ?_).mono
    (fun _ _ hd => hd.2) fun _ _ => id
  exact (hd.2.but port).hangUp hd.1

/-! ## Turns -/

/-- What holds between turns. -/
abbrev Routes (old : UInt16 → Nat → Prop) (b : Switchboard) : Prop :=
  b.isRunning = true → Routed old b

theorem routes_of_stopped (h : b.isRunning = false) : Routes old b :=
  fun hr => absurd (hr.symm.trans h) Bool.noConfusion

theorem Routed.dispatch_routes (h : Routed old b) (hk : b.stack.Kept) :
    Switchboard.dispatch.Ends b (fun _ => Routes old) (fun _ => Routes old) :=
  (h.dispatch hk).mono (fun _ _ hc _ => hc) fun _ _ => False.elim

/-- The outcome of a request is noted, and what has arrived is passed on. -/
theorem Routed.conclude (h : Routed old b) (hk : b.stack.Kept) (ticket : Nat)
    (outcome : Except TunnelError Nat) :
    (do conclude ticket outcome; Switchboard.dispatch : Call TunnelError Switchboard Unit).Ends b
      (fun _ => Routes old) (fun _ => Routes old) := by
  rw [Switchboard.conclude, ends_bind, ends_modify]
  have h' : Routed old { b with outcomes := b.outcomes ++ [(ticket, outcome)] } := h.of_eq rfl rfl
  exact h'.dispatch_routes hk

/-- A call is served that neither begins nor ends a connection, and does not wait. -/
theorem Routed.onCall {d : Call TunnelError Stack Unit} (h : Routed old b) (hk : b.stack.Kept)
    (ticket : Nat) (hkeeps : Respects Stack.Keeps d) (hprompt : Prompt d)
    (hgrows : Respects (Stack.Grows fun e => e.isTaken = false ∧ e.isTurn = false) d) :
    (do
      let outcome : Except TunnelError Unit ← Call.attempt (onStack d)
      Switchboard.conclude ticket (outcome.map fun _ => 0)
      Switchboard.dispatch).Ends b (fun _ => Routes old) (fun _ => Routes old) := by
  have hstack {t : Stack}
      (hg : Stack.Grows (fun e => e.isTaken = false ∧ e.isTurn = false) b.stack t) :
      Routed old { b with stack := t } :=
    h.of_eq rfl (hg.holder_eq fun _ he => he.2)
  rw [onStack, ends_bind, ends_attempt, ends_zoom]
  refine (((hkeeps b.stack).and (hprompt b.stack)).and (hgrows b.stack)).mono (fun _ t ht => ?_)
    fun h' t ht => ?_
  · exact (hstack ht.2).conclude (ht.1.1 hk) ticket _
  · cases h' with
    | failed e => exact (hstack ht.2).conclude (ht.1.1 hk) ticket _
    | waiting => exact absurd rfl ht.1.2

theorem Routed.serve (h : Routed old b) (hd : Delivers m b.routes b) (ticket : Nat)
    (request : Request) :
    (serve ticket request).Ends b (fun _ => Routes old) (fun _ => Routes old) := by
  cases request with
  | connect peerPort draws first =>
    rw [Switchboard.serve, onStack, ends_bind, ends_attempt, ends_zoom]
    refine (Stack.ends_connect hd.kept peerPort draws first).mono (fun port t ht => ?_)
      fun h' t ht => ?_
    · obtain ⟨hk, hdial, -⟩ := ht
      have hbegun : RoutedBut old port { b with stack := t } :=
        h.begun fun _ hp => hdial.holder_of_ne hp
      dsimp only
      rw [ends_bind, ends_get]
      split
      · -- Nobody waits for the connection any more.
        rw [ends_bind]
        exact (hbegun.hangUp hk).mono (fun _ c hc => hc.2.dispatch_routes hc.1)
          fun _ _ => False.elim
      · rw [ends_bind]
        refine hbegun.openStream.mono (fun i c hc => ?_) fun _ _ => False.elim
        have hkc : c.stack.Kept := hc.1.symm ▸ hk
        exact hc.2.conclude hkc ticket _
    · -- No port was free, or the one that was taken is given back.
      obtain ⟨hk, ⟨rfl, rfl⟩ | ⟨hw, port, u, hdial, hj⟩⟩ := ht
      · exact fun _ => h
      · cases h' with
        | waiting => exact absurd rfl hw
        | failed e =>
          have hledger : t.ledger = u.ledger.note (.forgotten port) := by
            rw [Stack.ledger, hj]
            rfl
          have hbegun : RoutedBut old port { b with stack := t } := by
            refine h.begun fun p hp => ?_
            rw [hledger, Ledger.holder_note_of_ne (e := .forgotten port) (Ne.symm hp),
              hdial.holder_of_ne hp]
          have hfree : t.ledger.holder port = none := by
            rw [hledger]
            exact if_pos rfl
          exact (hbegun.free hfree).conclude hk ticket _
  | send port bytes =>
    exact h.onCall hd.kept ticket
      ((Stack.keeps_queue port bytes).bind fun _ => Stack.keeps_flush)
      (Stack.prompt_send port bytes) (Stack.grows_send port bytes)
  | close port =>
    rw [Switchboard.serve, ends_bind, ends_get]
    split
    · rw [ends_bind]
      exact ((h.but port).hangUp hd.kept).mono (fun _ c hc => hc.2.dispatch_routes hc.1)
        fun _ _ => False.elim
    · exact h.dispatch_routes hd.kept
  | capture file =>
    exact h.onCall hd.kept ticket (Stack.keeps_act (.startCapture file))
      (Stack.prompt_startCapture file) (Stack.grows_startCapture file)
  | shutdown =>
    rw [Switchboard.serve, ends_bind]
    exact (Ready.stop_rests hd).mono (fun _ _ hc => routes_of_stopped hc) fun _ _ => False.elim

theorem Routed.serveNext (h : Routed old b) (hd : Delivers m b.routes b) :
    serveNext.Ends b (fun _ => Routes old) (fun _ => Routes old) := by
  rw [Switchboard.serveNext, ends_bind, ends_get]
  split
  · next ticket request later _ =>
    rw [ends_bind, ends_modify]
    have h' : Routed old { b with requests := later } := h
    exact h'.serve (hd.of_eq rfl rfl rfl) ticket request
  · rw [ends_bind, ends_get]
    split
    · exact fun _ => h
    · exact (Ready.stop_rests hd).mono (fun _ _ hc => routes_of_stopped hc) fun _ _ => False.elim

theorem Routed.listen (h : Routed old b) (hd : Delivers m b.routes b) :
    listen.Ends b (fun _ => Routes old) (fun _ => Routes old) := by
  by_cases hfails : ∃ e t, Stack.process b.stack = .error (.failed e) t
  · obtain ⟨e, t, hfails⟩ := hfails
    exact (ends_listen_failed hd hfails).mono (fun _ _ hc => routes_of_stopped hc)
      fun _ _ => False.elim
  · rw [Switchboard.listen, onStack, ends_bind, ends_attempt, ends_zoom]
    have hstack {t : Stack} (hg : Stack.Grows (Event.isTraffic ·) b.stack t) :
        Routed old { b with stack := t } :=
      h.of_eq rfl (hg.holder_eq fun _ => Event.isTurn_of_isTraffic)
    refine (((Stack.keeps_process b.stack).and (ends_self _ _)).and
      (Stack.grows_process b.stack)).mono (fun _ t ht => ?_) fun h' t ht => ?_
    · exact (hstack ht.2).dispatch_routes (ht.1.1 hd.kept)
    · cases h' with
      | failed e => exact absurd ⟨e, t, ht.1.2⟩ hfails
      | waiting => exact fun _ => hstack ht.2

theorem Routed.take (h : Routed old b) (hd : Delivers m b.routes b) (turn : Turn) :
    (take turn).Ends b (fun _ => Routes old) (fun _ => Routes old) := by
  cases turn with
  | atRequests => exact h.serveNext hd
  | atTunnel => exact h.listen hd

end Switchboard

/-! ## Sessions -/

namespace Session

open Switchboard

variable {w : Session} {old : UInt16 → Nat → Prop}

theorem Stands.routed {b c : Switchboard} (h : Stands b c) (hb : Routes old b) :
    Routes old c := by
  intro hr
  refine (hb (h.isRunning ▸ hr)).of_eq h.routes ?_
  rw [Stack.ledger, Stack.ledger, h.journal]

theorem Sound.routes_step (hw : w.Sound) (h : Routes old w.board) (act : Act) :
    Routes old (w.step act).board := by
  by_cases hturn : ∃ t, act = .turn t
  · obtain ⟨t, rfl⟩ := hturn
    exact hw.step_turn t (fun _ => h) fun hr hd => (h hr).take hd t
  · exact (stands_step w fun t ht => hturn ⟨t, ht⟩).routed h

/-- Between turns, each connection of a session is on a route, or was there before the session. -/
theorem routes_run (e : Tunnel.Ends) (before : List Stack.Act) (acts : List Act) :
    Routes (fun p n => (Stack.play before (Stack.ofEnds e)).ledger.holder p = some n)
      (run e before acts).board := by
  have hsound := sound_start (Stack.kept_play e before)
  have hroutes : Routes
      (fun p n => (Stack.play before (Stack.ofEnds e)).ledger.holder p = some n)
      (start (Stack.play before (Stack.ofEnds e))).board :=
    fun _ _ _ hn => .inl hn
  rw [run]
  generalize (fun p n => (Stack.play before (Stack.ofEnds e)).ledger.holder p = some n) = old
    at hroutes
  generalize start (Stack.play before (Stack.ofEnds e)) = w at hroutes hsound
  induction acts generalizing w with
  | nil => exact hroutes
  | cons act acts ih => exact ih _ (hsound.routes_step hroutes act) (hsound.step act)

/-- Between turns, a switchboard whose stack was handed over without connections has a stream for
each connection, and a connection for each stream that may still be fed; and each connection is
open, with nothing queued on it and nothing left of what was received. -/
theorem mem_routes_iff_mem_ports {e : Tunnel.Ends} {before : List Stack.Act}
    (hnone : (Stack.play before (Stack.ofEnds e)).links = []) {acts : List Act}
    (hr : (run e before acts).board.isRunning = true) :
    (run e before acts).board.routedPorts.Nodup ∧
      (∀ p, p ∈ (run e before acts).board.routedPorts ↔
        p ∈ (run e before acts).board.stack.links.ports) ∧
      ∀ p l, (run e before acts).board.stack.links.get? p = some l →
        l.status = .connected ∧ l.received = [] ∧ l.queued = [] := by
  have hidle : ∀ p, (Stack.play before (Stack.ofEnds e)).IsIdle p := by
    intro p l hl
    rw [hnone] at hl
    cases hl
  have hcalm := rests_run hidle acts hr
  have hrouted := routes_run e before acts hr
  obtain ⟨live, -, hd⟩ := (sound_run e before acts).serves 0
  -- A connection is either on a route or was handed over, and none was.
  have hall : ∀ p ∈ (run e before acts).board.stack.links.ports,
      p ∈ (run e before acts).board.routedPorts := by
    intro p hp
    obtain ⟨n, hn⟩ := (Stack.mem_ports_iff_holder hcalm.kept).1 hp
    refine (hrouted p n hn).resolve_left fun hold => ?_
    have hp' := (Stack.mem_ports_iff_holder (Stack.kept_play e before)).2 ⟨n, hold⟩
    rw [hnone] at hp'
    exact absurd hp' List.not_mem_nil
  refine ⟨hd.nodup, fun p => ⟨fun hp => ?_, hall p⟩, fun p l hl => ?_⟩
  · obtain ⟨r, hroute, rfl⟩ := List.mem_map.1 hp
    obtain ⟨a, ha, -⟩ := hcalm.settled.routed r hroute
    obtain ⟨l, hl, -⟩ := hcalm.kept.exists_link ha
    rw [Table.mem_ports_iff, hl]
    exact Option.some_ne_none l
  · have hp : p ∈ (run e before acts).board.stack.links.ports := by
      rw [Table.mem_ports_iff, hl]
      exact Option.some_ne_none l
    obtain ⟨r, hroute, rfl⟩ := List.mem_map.1 (hall p hp)
    obtain ⟨a, ha, -, hopen⟩ := hcalm.settled.routed r hroute
    obtain ⟨htaken, hstatus⟩ := hopen not_false
    obtain ⟨b, hb, htells⟩ := hcalm.kept.exists_account hl
    obtain rfl := Option.some.inj (ha.symm.trans hb)
    refine ⟨htells.status.trans hstatus, ?_, hcalm.isIdle r.1 l hl⟩
    have hreceived := htells.received
    rw [htaken] at hreceived
    exact List.append_right_eq_self.1 hreceived

/-- A stream is opened, two bytes arrive for it, and one is sent. -/
def feeding : List Act :=
  [.world ((Stack.replies.take 1).flatMap Ends.sample.packet) .silent none, .connect 80 [0] 7,
    .turn .atRequests,
    .world (((Stack.replies.drop 1).take 1).flatMap Ends.sample.packet) .silent none,
    .turn .atTunnel, .write 0 [9], .turn .atRequests]

theorem ports_feeding : (run Ends.sample [] feeding).board.stack.links.ports = [49152] := by
  cbv

theorem routedPorts_feeding :
    (run Ends.sample [] feeding).board.isRunning = true ∧
      49152 ∈ (run Ends.sample [] feeding).board.routedPorts ∧
      ∃ l, (run Ends.sample [] feeding).board.stack.links.get? 49152 = some l ∧
        l.status = .connected ∧ l.received = [] ∧ l.queued = [] := by
  have hr : (run Ends.sample [] feeding).board.isRunning = true := by cbv
  have hp : 49152 ∈ (run Ends.sample [] feeding).board.stack.links.ports := by
    rw [ports_feeding]
    exact List.mem_singleton_self _
  have hnone : (Stack.play [] (Stack.ofEnds Ends.sample)).links = [] := rfl
  obtain ⟨-, hiff, hall⟩ := mem_routes_iff_mem_ports hnone hr
  obtain ⟨l, hl⟩ := Option.ne_none_iff_exists'.1 (Table.mem_ports_iff.1 hp)
  exact ⟨hr, (hiff 49152).2 hp, l, hl, hall 49152 l hl⟩

end Session

end Tether.Tunnel
