import Tether.Proofs.Tunnel.Routes

/-!
# What turns leave alone

A turn may do much to the connections and to what streams have to pass, but little to the rest.
Streams keep their ports and the tickets of their writes, the journal grows, tickets are not given
out, the requests that wait go on waiting unless the switchboard stops, and an outcome is noted for
the request that is served and for no other. Only a request to send queues any bytes.

* `Proceeds`: the relation between the switchboards before and after a call in a turn;
* `proceeds_dispatch`, `proceeds_stop`, `ends_serve_proceeds`, `proceeds_listen`: one lemma for each
  call;
* `Turned`: all that a turn may do, with a case for the requests to send that are let through;
* `Session.grows_run`: what went into the tunnel in a session.
-/

namespace Tether

/-- A call that goes on from where something has come to. -/
theorem Call.Respects.after {ε σ α : Type} {R : σ → σ → Prop} [IsPreorder σ R] {c : Call ε σ α}
    {s t : σ} (hc : Respects R c) (h : R s t) : c.Ends t (fun _ => R s) (fun _ => R s) :=
  (hc t).mono (fun _ _ => trans_of R h) fun _ _ => trans_of R h

namespace Tunnel

open Net Call

namespace Event

/-- Whether an event queues bytes. -/
def isQueued : Event → Bool
  | queued .. => true
  | _ => false

theorem isQueued_of_isTraffic {e : Event} (h : e.isTraffic = true) : e.isQueued = false := by
  cases e <;> first | rfl | cases h

theorem isQueued_of_isPost {e : Event} (h : e.isPost = true) : e.isQueued = false :=
  isQueued_of_isTraffic (isTraffic_of_isPost h)

end Event

/-! ## Accounts as time goes on -/

namespace Ledger

variable {es j : Journal} {n : Nat} {a : Account} {p : UInt16}

/-- An account that is not there before an event is begun by it. -/
theorem fresh_of_note {l : Ledger} {e : Event} (hb : l.accounts[n]? = none)
    (ha : (l.note e).accounts[n]? = some a) :
    ∃ port peerPort first, e = .opened port peerPort first ∧ a = { port, peerPort, first } := by
  cases e with
  | opened port peerPort first =>
    obtain rfl : n = l.accounts.length := by
      have hlt := (List.getElem?_eq_some_iff.1 ha).1
      have hle := List.getElem?_eq_none_iff.1 hb
      rw [Ledger.note, List.length_append, List.length_singleton] at hlt
      exact Nat.le_antisymm (Nat.le_of_lt_succ hlt) hle
    rw [Ledger.note, List.getElem?_concat_length] at ha
    exact ⟨port, peerPort, first, rfl, (Option.some.inj ha).symm⟩
  | forgotten port => cases hb.symm.trans ha
  | _ =>
    rw [note_eq_change rfl, getElem?_change, hb, Option.map_none, ite_self] at ha
    cases ha

/-- What is true of an account from its beginning or from some moment on, and is preserved by each
event since then. -/
theorem account_append {P : Account → Prop}
    (fresh : (ofJournal j).accounts.length ≤ n → ∀ port peerPort first, P { port, peerPort, first })
    (old : ∀ a, (ofJournal j).accounts[n]? = some a → P a)
    (note : ∀ a, ∀ e ∈ es, P a → P (a.note e)) :
    ∀ a, (ofJournal (es ++ j)).accounts[n]? = some a → P a := by
  induction es with
  | nil => exact old
  | cons e es ih =>
    have ih := ih fun a e he => note a e (List.mem_cons_of_mem _ he)
    intro a ha
    rw [List.cons_append, ofJournal] at ha
    cases hb : (ofJournal (es ++ j)).accounts[n]? with
    | some b =>
      rw [getElem?_note hb] at ha
      obtain rfl := Option.some.inj ha
      split
      · exact note b e List.mem_cons_self (ih b hb)
      · exact ih b hb
    | none =>
      have hold : (ofJournal j).accounts.length ≤ n := by
        by_contra hlt
        obtain ⟨b, hb', -⟩ :=
          exists_precedes (List.getElem?_eq_getElem (Nat.lt_of_not_le hlt)) es
        rw [hb] at hb'
        cases hb'
      obtain ⟨port, peerPort, first, -, rfl⟩ := fresh_of_note hb ha
      exact fresh hold port peerPort first

/-- What was sent for an account went into the tunnel in the same order. -/
theorem sent_sublist (h : (ofJournal j).accounts[n]? = some a) : a.sent.Sublist j.posts := by
  induction j generalizing a with
  | nil => cases h
  | cons e j ih =>
    rw [Journal.posts_cons]
    cases hb : (ofJournal j).accounts[n]? with
    | some b =>
      rw [ofJournal, getElem?_note hb] at h
      obtain rfl := Option.some.inj h
      split
      · cases e with
        | sent x => exact (ih hb).append (.refl [x])
        | _ => exact (ih hb).trans (List.sublist_append_left _ _)
      · exact (ih hb).trans (List.sublist_append_left _ _)
    | none =>
      obtain ⟨port, peerPort, first, -, rfl⟩ := fresh_of_note hb h
      exact List.nil_sublist _

theorem length_accounts_le (es j : Journal) :
    (ofJournal j).accounts.length ≤ (ofJournal (es ++ j)).accounts.length := by
  by_contra hlt
  obtain ⟨b, hb, -⟩ := exists_precedes (List.getElem?_eq_getElem (Nat.lt_of_not_le hlt)) es
  exact absurd (List.getElem?_eq_some_iff.1 hb).1 (Nat.lt_irrefl _)

/-- A connection that was begun is never given its port again. -/
theorem holder_of_append (h : (ofJournal (es ++ j)).holder p = some n)
    (hn : n < (ofJournal j).accounts.length) : (ofJournal j).holder p = some n := by
  induction es with
  | nil => exact h
  | cons e es ih =>
    refine ih ?_
    rw [List.cons_append, ofJournal] at h
    cases hturn : e.isTurn with
    | false =>
      rwa [note_eq_change hturn, holder_change] at h
    | true =>
      cases e with
      | opened port peerPort first =>
        rw [Ledger.note] at h
        dsimp only at h
        split at h
        · have := length_accounts_le es j
          rw [← Option.some.inj h] at hn
          omega
        · exact h
      | forgotten port =>
        rw [Ledger.note] at h
        dsimp only at h
        split at h
        · cases h
        · exact h
      | _ => cases hturn

/-- A connection has come about, and may be over. -/
def Met (l : Ledger) (n : Nat) : Prop :=
  ∃ a, l.accounts[n]? = some a ∧ a.heard.status ≠ .connecting

theorem Met.append (h : (ofJournal j).Met n) (es : Journal) : (ofJournal (es ++ j)).Met n := by
  obtain ⟨a, ha, hstatus⟩ := h
  obtain ⟨b, hb, -⟩ := exists_precedes ha es
  refine ⟨b, hb, account_append (P := fun a => a.heard.status ≠ .connecting) (fun hn => ?_)
    (fun a' ha' => ?_) (fun c e _ hc => ?_) b hb⟩
  · exact absurd (List.getElem?_eq_some_iff.1 ha).1 (Nat.not_lt.2 hn)
  · rwa [← Option.some.inj (ha.symm.trans ha')]
  · cases e with
    | arrived x =>
      rw [Account.heard_note_arrived]
      exact Link.status_accept_ne_connecting hc
    | _ => exact hc

/-- A connection is there, and the device has neither finished nor reset it. -/
def IsOpen (l : Ledger) (n : Nat) : Prop :=
  ∃ p a, l.holder p = some n ∧ l.accounts[n]? = some a ∧ a.heard.status = .connected

/-- A connection that is open was open since it came about. -/
theorem IsOpen.of_append (h : (ofJournal (es ++ j)).IsOpen n) (hm : (ofJournal j).Met n) :
    (ofJournal j).IsOpen n := by
  obtain ⟨p, b, hp, hb, hopen⟩ := h
  obtain ⟨a, ha, hstatus⟩ := hm
  obtain ⟨b', hb', hprec, -⟩ := exists_precedes ha es
  obtain rfl := Option.some.inj (hb.symm.trans hb')
  refine ⟨p, a, holder_of_append hp (List.getElem?_eq_some_iff.1 ha).1, ha, ?_⟩
  cases hs : a.heard.status with
  | connecting => exact absurd hs hstatus
  | connected => rfl
  | ended fault =>
    rw [hprec.ended fault hs, hs] at hopen
    cases hopen

end Ledger

namespace Stack

/-- Whether the connection of a port is there and open. -/
def isConnected (s : Stack) (port : UInt16) : Bool :=
  (s.links.get? port).any fun l => l.status = .connected

theorem isConnected_iff {s : Stack} {port : UInt16} :
    s.isConnected port = true ↔ ∃ l, s.links.get? port = some l ∧ l.status = .connected := by
  cases hl : s.links.get? port with
  | none => simp [isConnected, hl]
  | some l => simp [isConnected, hl]

end Stack

/-- Streams whose connection and whose writes are the same. -/
structure Stream.Kin (s t : Stream) : Prop where
  port : t.port = s.port
  writes : t.writes = s.writes

theorem Stream.Kin.refl (s : Stream) : s.Kin s :=
  ⟨rfl, rfl⟩

theorem Stream.Kin.trans {s t u : Stream} (h : s.Kin t) (h' : t.Kin u) : s.Kin u :=
  ⟨h'.port.trans h.port, h'.writes.trans h.writes⟩

namespace Switchboard

/-- A switchboard before and after a call in a turn that serves the request with a ticket, or none,
with events as in `P`. A stream that is opened has the account `next`; without one, none is. -/
structure Proceeds (ticket next : Option Nat) (P : Event → Prop) (b c : Switchboard) : Prop where
  length : c.streams.length = b.streams.length ∨ ∃ n ∈ next, c.stack.ledger.Met n
  streams : ∀ (i : Nat) s, b.streams[i]? = some s → ∃ t, c.streams[i]? = some t ∧ s.Kin t
  grows : Stack.Grows P b.stack c.stack
  nextTicket : c.nextTicket = b.nextTicket
  isRunning : c.isRunning = true → b.isRunning = true
  requests : c.requests = b.requests ∨ c.requests = [] ∧ c.isRunning = false
  outcomes : ∃ os, c.outcomes = b.outcomes ++ os ∧ ∀ o ∈ os, some o.1 = ticket

variable {ticket next : Option Nat} {n : Nat} {P : Event → Prop} {b c : Switchboard}

/-- Nothing has changed that matters, but for the stack and the streams. -/
theorem Proceeds.of_eq (hl : c.streams.length = b.streams.length)
    (hs : ∀ (i : Nat) s, b.streams[i]? = some s → ∃ t, c.streams[i]? = some t ∧ s.Kin t)
    (hg : Stack.Grows P b.stack c.stack) (hn : c.nextTicket = b.nextTicket)
    (hi : c.isRunning = b.isRunning) (hr : c.requests = b.requests)
    (ho : c.outcomes = b.outcomes) : Proceeds ticket next P b c :=
  ⟨.inl hl, hs, hg, hn, fun h => hi ▸ h, .inl hr, [], by rw [ho, List.append_nil], nofun⟩

theorem Proceeds.of_stack {t : Stack} (hg : Stack.Grows P b.stack t) :
    Proceeds ticket next P b { b with stack := t } :=
  .of_eq rfl (fun _ s hs => ⟨s, hs, .refl s⟩) hg rfl rfl rfl rfl

instance : IsPreorder Switchboard (Proceeds ticket next P) where
  refl b := .of_stack (.refl b.stack)
  trans b c d h h' := by
    obtain ⟨os, hos, hticket⟩ := h.outcomes
    obtain ⟨os', hos', hticket'⟩ := h'.outcomes
    refine ⟨?_, fun i s hs => ?_, h.grows.trans h'.grows, h'.nextTicket.trans h.nextTicket,
      h.isRunning ∘ h'.isRunning, ?_, os ++ os', ?_, fun o ho => ?_⟩
    · rcases h'.length with hl' | hmet
      · rcases h.length with hl | ⟨n, hn, hmet⟩
        · exact .inl (hl'.trans hl)
        · obtain ⟨es, hj, -⟩ := h'.grows.events
          rw [Stack.ledger, hj]
          exact .inr ⟨n, hn, hmet.append es⟩
      · exact .inr hmet
    · obtain ⟨t, ht, hst⟩ := h.streams i s hs
      obtain ⟨u, hu, htu⟩ := h'.streams i t ht
      exact ⟨u, hu, hst.trans htu⟩
    · rcases h'.requests with hr' | hr'
      · rcases h.requests with hr | ⟨hr, hstopped⟩
        · exact .inl (hr'.trans hr)
        · refine .inr ⟨hr'.trans hr, Bool.eq_false_iff.2 fun hrun => ?_⟩
          rw [h'.isRunning hrun] at hstopped
          cases hstopped
      · exact .inr hr'
    · rw [hos', hos, List.append_assoc]
    · exact (List.mem_append.1 ho).elim (hticket o) (hticket' o)

/-! ## Parts of turns -/

theorem proceeds_onStack {α : Type} {d : Call TunnelError Stack α}
    (h : Respects (Stack.Grows P) d) : Respects (Proceeds ticket next P) (onStack d) :=
  h.zoom fun _ _ hg => .of_stack hg

/-- One stream is changed, and its writes are not. -/
theorem Proceeds.set {i : Nat} {s t : Stream} (hs : b.streams[i]? = some s) (h : s.Kin t) :
    Proceeds ticket next P b { b with streams := b.streams.set i t } := by
  refine .of_eq List.length_set (fun k u hu => ?_) (.refl b.stack) rfl rfl rfl rfl
  by_cases hk : k = i
  · subst hk
    obtain rfl : s = u := Option.some.inj (hs.symm.trans hu)
    exact ⟨t, List.getElem?_set_self (List.getElem?_eq_some_iff.1 hs).1, h⟩
  · exact ⟨u, (List.getElem?_set_ne (Ne.symm hk)).trans hu, .refl u⟩

theorem proceeds_deliver (i : Nat) (piece : Piece) :
    Respects (Proceeds ticket next P) (deliver i piece) := by
  intro b
  cases hs : b.streams[i]? with
  | none =>
    rw [deliver, ends_bind, ends_get, hs]
    exact refl_of (Proceeds ticket next P) b
  | some s =>
    refine (ends_deliver hs piece).mono (fun _ c hc => ?_) fun _ _ => False.elim
    rw [hc.2]
    split
    · exact .set hs ⟨rfl, rfl⟩
    · exact refl_of (Proceeds ticket next P) b

theorem proceeds_unroute (port : UInt16) : Respects (Proceeds ticket next P) (unroute port) := by
  refine Respects.modify fun b => .of_eq List.length_mapIdx (fun i s hs => ?_) (.refl b.stack) rfl
    rfl rfl rfl
  dsimp only
  rw [List.getElem?_mapIdx, hs]
  refine ⟨_, rfl, ?_⟩
  split
  · exact ⟨rfl, rfl⟩
  · exact .refl s

/-- A stream is opened for a connection that has come about. -/
theorem ends_openStream (h : b.stack.ledger.Met n) (port : UInt16) :
    (openStream port).Ends b (fun _ => Proceeds ticket (some n) P b) (fun _ _ => False) := by
  rw [openStream, ends_bind, ends_get, ends_bind, ends_set, ends_pure]
  refine ⟨.inr ⟨n, rfl, h⟩, fun i s hs => ⟨s, ?_, .refl s⟩, .refl b.stack, rfl, id, .inl rfl, [],
    (List.append_nil _).symm, List.forall_mem_nil _⟩
  exact (List.getElem?_append_left (List.getElem?_eq_some_iff.1 hs).1).trans hs

theorem proceeds_conclude (ticket : Nat) (outcome : Except TunnelError Nat) :
    Respects (Proceeds (some ticket) next P) (conclude ticket outcome) :=
  Respects.modify fun b => ⟨.inl rfl, fun _ s hs => ⟨s, hs, .refl s⟩, .refl b.stack, rfl, id,
    .inl rfl, _, rfl, fun _ ho => List.mem_singleton.1 ho ▸ rfl⟩

/-! ## Passing on -/

/-- The events that queue no bytes. -/
abbrev Unqueued (e : Event) : Prop :=
  e.isQueued = false

theorem unqueued_close {port : UInt16} {e : Event}
    (h : Stack.PostsOf port e ∨ e = .forgotten port) : Unqueued e := by
  rcases h with ⟨hpost, -⟩ | rfl
  · exact Event.isQueued_of_isPost hpost
  · rfl

theorem proceeds_close (port : UInt16) :
    Respects (Proceeds ticket next Unqueued) (onStack (Stack.close port)) :=
  proceeds_onStack (Stack.respects_of_grows (Stack.grows_close port) fun _ => unqueued_close)

theorem proceeds_hangUp (port : UInt16) :
    Respects (Proceeds ticket next Unqueued) (hangUp port) :=
  respects_hangUp proceeds_close proceeds_unroute port

theorem proceeds_dispatch : Respects (Proceeds ticket next Unqueued) dispatch := by
  refine respects_dispatch (fun port => ?_) proceeds_close proceeds_unroute proceeds_deliver
  refine proceeds_onStack (Stack.respects_of_grows (Stack.grows_take port) ?_)
  rintro e ⟨bytes, rfl⟩
  rfl

/-! ## Turns -/

theorem proceeds_stop : Respects (Proceeds ticket next Unqueued) stop := by
  refine respects_stop proceeds_close proceeds_unroute ?_ fun b => ?_
  · refine proceeds_onStack (Stack.respects_of_grows Stack.grows_shutdown ?_)
    rintro e ⟨port, rfl⟩
    rfl
  · exact ⟨.inl rfl, fun _ s hs => ⟨s, hs, .refl s⟩, .refl b.stack, rfl,
      fun h => absurd h Bool.false_ne_true, .inr ⟨rfl, rfl⟩, [], (List.append_nil _).symm, nofun⟩

/-- The outcome of a request is noted, and what has arrived is passed on. -/
theorem proceeds_conclude_dispatch (ticket : Nat) (outcome : Except TunnelError Nat) :
    Respects (Proceeds (some ticket) next Unqueued) (do conclude ticket outcome; dispatch) :=
  (proceeds_conclude ticket outcome).bind fun _ => proceeds_dispatch

theorem grows_connect_unqueued (peerPort : UInt16) (draws : List Draw) (first : UInt32) :
    Respects (Stack.Grows Unqueued) (Stack.connect peerPort draws first) := by
  refine Stack.respects_of_grows (Stack.grows_connect peerPort draws first) fun e he => ?_
  rcases he with he | ⟨port, rfl | rfl⟩
  · exact Event.isQueued_of_isTraffic he
  · rfl
  · rfl

/-- A connection that was just begun has come about once its link is connected. -/
theorem met_of_dialed {s t : Stack} {peerPort port : UInt16} {first : UInt32} {l : Link}
    (hd : Stack.Dialed peerPort first port s t) (hk : t.Kept) (hl : t.links.get? port = some l)
    (hs : l.status = .connected) : t.ledger.Met s.ledger.accounts.length := by
  obtain ⟨a, ha, htells⟩ := hk.exists_account hl
  obtain ⟨n, hn, hacc⟩ := Ledger.at?_eq_some_iff.1 ha
  obtain rfl := Option.some.inj (hn.symm.trans hd.account.1)
  refine ⟨a, hacc, ?_⟩
  rw [← htells.status, hs]
  nofun

/-- Serving any request but one to send queues nothing. -/
theorem ends_serve_proceeds {request : Request} (hk : b.stack.Kept) (ticket : Nat)
    (h : ∀ port bytes, request ≠ .send port bytes) :
    (serve ticket request).Ends b
      (fun _ => Proceeds (some ticket) (some b.stack.ledger.accounts.length) Unqueued b)
      (fun _ => Proceeds (some ticket) (some b.stack.ledger.accounts.length) Unqueued b) := by
  cases request with
  | connect peerPort draws first =>
    rw [serve, onStack, ends_bind, ends_attempt, ends_zoom]
    refine ((Stack.ends_connect hk peerPort draws first).and
      (grows_connect_unqueued peerPort draws first b.stack)).mono (fun port t ht => ?_)
      fun h' t ht => ?_
    · obtain ⟨⟨hkt, hdial, l, hl, hstatus⟩, hg⟩ := ht
      have hbegun : Proceeds (some ticket) (some b.stack.ledger.accounts.length) Unqueued b
          { b with stack := t } := .of_stack hg
      dsimp only
      rw [ends_bind, ends_get]
      split
      · exact ((proceeds_hangUp port).bind fun _ => proceeds_dispatch).after hbegun
      · have hopen : (openStream port).Ends { b with stack := t }
            (fun _ => Proceeds (some ticket) (some b.stack.ledger.accounts.length) Unqueued
              { b with stack := t }) (fun _ _ => False) :=
          ends_openStream (met_of_dialed hdial hkt hl hstatus) port
        rw [ends_bind]
        refine hopen.mono (fun i c hc => ?_) fun _ _ => False.elim
        exact (proceeds_conclude_dispatch ticket (.ok i)).after (trans_of _ hbegun hc)
    · have hbegun : Proceeds (some ticket) (some b.stack.ledger.accounts.length) Unqueued b
          { b with stack := t } := .of_stack ht.2
      cases h' with
      | waiting => exact hbegun
      | failed e => exact (proceeds_conclude_dispatch ticket (.error e)).after hbegun
  | send port bytes => exact absurd rfl (h port bytes)
  | close port =>
    refine Respects.get.bind (fun c => ?_) b
    split
    · exact (proceeds_hangUp port).bind fun _ => proceeds_dispatch
    · exact proceeds_dispatch
  | capture file =>
    exact ((proceeds_onStack (Stack.grows_startCapture file)).attempt.bind fun _ =>
      proceeds_conclude_dispatch ticket _) b
  | shutdown => exact (proceeds_stop.bind fun _ => proceeds_conclude ticket _) b

theorem proceeds_listen : Respects (Proceeds ticket next Unqueued) listen := by
  have hprocess : Respects (Stack.Grows Unqueued) Stack.process :=
    Stack.respects_of_grows Stack.grows_process fun _ => Event.isQueued_of_isTraffic
  refine (proceeds_onStack hprocess).attempt.bind fun outcome => ?_
  cases outcome with
  | ok _ => exact proceeds_dispatch
  | error e =>
    refine Respects.get.bind fun b => (Respects.forM fun r _ => ?_).bind fun _ => proceeds_stop
    exact (proceeds_deliver _ _).bind fun _ => .pure _

/-! ### Sending -/

/-- What may become of bytes that are to be sent. Those of a connection that is there and open are
queued on it, and unless a segment gets lost, nothing is left in any queue. -/
structure Admits (port : UInt16) (bytes : Bytes) (s t : Stack) : Prop where
  kept : t.Kept
  grows : Stack.Grows (fun _ => True) s t
  events : ∃ es, t.journal = es ++ .queued port bytes :: s.journal ∧ ∀ e ∈ es, e.isPost = true
  spent : t.journal.Lossless → ∀ p a, t.ledger.at? p = some a → a.pending = []

theorem ends_send_admits {s : Stack} {port : UInt16} (hk : s.Kept)
    (hc : s.isConnected port = true) (bytes : Bytes) :
    (do Stack.queue port bytes; Stack.flush : Call TunnelError Stack Unit).Ends s
      (fun _ => Admits port bytes s) (fun h t => h ≠ .waiting ∧ Admits port bytes s t) := by
  obtain ⟨l, hl, hstatus⟩ := Stack.isConnected_iff.1 hc
  rw [ends_bind]
  refine ((Stack.ends_queue hk hl hstatus bytes).and (Stack.grows_queue port bytes s)).mono
    (fun _ u hu => ?_) fun _ _ hu => hu.1.elim
  obtain ⟨⟨hku, hj, -⟩, hg⟩ := hu
  have hprompt : Prompt Stack.flush :=
    Prompt.get.bind fun _ => .forM fun port => Stack.prompt_flushLink port
  have hadmits {t : Stack} (hkt : t.Kept)
      (hgt : Stack.Grows (fun e => ∃ l, (e.port, l) ∈ u.links ∧ l.queued ≠ [] ∧ e.isPost = true) u t)
      (hspent : t.journal.Lossless → ∀ p a, t.ledger.at? p = some a → a.pending = []) :
      Admits port bytes s t := by
    obtain ⟨es, hjt, hes, -⟩ := hgt.events
    refine ⟨hkt, (hg.mono fun _ _ => trivial).trans (hgt.mono fun _ _ => trivial),
      ⟨es, ?_, fun e he => ?_⟩, hspent⟩
    · rw [hjt, hj]
    · obtain ⟨l, -, -, hpost⟩ := hes e he
      exact hpost
  refine (((Stack.ends_flush hku).and (Stack.grows_flush u)).and
    ((Stack.keeps_flush u).and (hprompt u))).mono (fun _ t ht => ?_) fun h t ht => ?_
  · obtain ⟨⟨⟨hkt, -, hlinks⟩, hgt⟩, -⟩ := ht
    refine hadmits hkt hgt fun _ p a ha => ?_
    obtain ⟨k, hkl, htells⟩ := hkt.exists_link ha
    rw [hlinks] at hkl
    obtain ⟨m, -, rfl⟩ := Option.map_eq_some_iff.1 hkl
    obtain ⟨n, hn⟩ := m.flushed_eq u.segmentSize
    rw [← htells.queued, hn]
  · obtain ⟨⟨hlossy, hgt⟩, hkeeps, hwait⟩ := ht
    exact ⟨hwait, hadmits (hkeeps hku) hgt fun hl => absurd hl hlossy⟩

theorem ends_serve_admits {port : UInt16} (hk : b.stack.Kept)
    (hc : b.stack.isConnected port = true) (ticket : Nat) (bytes : Bytes) :
    (serve ticket (.send port bytes)).Ends b
      (fun _ c => ∃ t r, Admits port bytes b.stack t ∧ Proceeds none none Unqueued
        { b with stack := t, outcomes := b.outcomes ++ [(ticket, r)] } c)
      (fun _ c => ∃ t r, Admits port bytes b.stack t ∧ Proceeds none none Unqueued
        { b with stack := t, outcomes := b.outcomes ++ [(ticket, r)] } c) := by
  rw [serve, onStack, ends_bind, ends_attempt, ends_zoom]
  refine (ends_send_admits hk hc bytes).mono (fun _ t ht => ?_) fun h t ht => ?_
  · rw [ends_bind, conclude, ends_modify]
    exact (proceeds_dispatch _).mono (fun _ _ hc => ⟨t, _, ht, hc⟩) fun _ _ hc => ⟨t, _, ht, hc⟩
  · cases h with
    | waiting => exact absurd rfl ht.1
    | failed e =>
      dsimp only
      rw [ends_bind, conclude, ends_modify]
      exact (proceeds_dispatch _).mono (fun _ _ hc => ⟨t, _, ht.2, hc⟩)
        fun _ _ hc => ⟨t, _, ht.2, hc⟩

/-- Bytes for a connection that is not there, or over, are refused. -/
theorem ends_serve_refuses {port : UInt16} (hc : b.stack.isConnected port = false)
    (ticket : Nat) (bytes : Bytes) :
    (serve ticket (.send port bytes)).Ends b
      (fun _ c => ∃ e, Proceeds none none Unqueued
        { b with outcomes := b.outcomes ++ [(ticket, .error e)] } c)
      (fun _ c => ∃ e, Proceeds none none Unqueued
        { b with outcomes := b.outcomes ++ [(ticket, .error e)] } c) := by
  have hnot : ∀ l, b.stack.links.get? port = some l → l.status ≠ .connected := by
    intro l hl hs
    rw [Stack.isConnected_iff.2 ⟨l, hl, hs⟩] at hc
    cases hc
  rw [serve, onStack, ends_bind, ends_attempt, ends_zoom, ends_bind]
  refine (Stack.ends_queue_of_not hnot bytes).mono (fun _ _ => False.elim) fun h t ht => ?_
  obtain ⟨rfl, rfl⟩ := ht
  dsimp only
  rw [ends_bind, conclude, ends_modify]
  exact (proceeds_dispatch _).mono (fun _ _ hc => ⟨_, hc⟩) fun _ _ hc => ⟨_, hc⟩

/-! ### All turns -/

/-- A switchboard that runs, before and after a turn. -/
inductive Turned (b : Switchboard) : Turn → Switchboard → Prop
  /-- A request is served that is not one to send. -/
  | serves {ticket : Nat} {request : Request} {later : List (Nat × Request)} {c : Switchboard}
    (hr : b.requests = (ticket, request) :: later) (h : ∀ port bytes, request ≠ .send port bytes)
    (hc : Proceeds (some ticket) (some b.stack.ledger.accounts.length) Unqueued
      { b with requests := later } c) : Turned b .atRequests c
  /-- A request to send is served, and its connection is open. -/
  | admits {ticket : Nat} {port : UInt16} {bytes : Bytes} {later : List (Nat × Request)}
    {t : Stack} {r : Except TunnelError Nat} {c : Switchboard}
    (hr : b.requests = (ticket, .send port bytes) :: later)
    (hopen : b.stack.isConnected port = true) (ht : Admits port bytes b.stack t)
    (hc : Proceeds none none Unqueued
      { b with requests := later, stack := t, outcomes := b.outcomes ++ [(ticket, r)] } c) :
    Turned b .atRequests c
  /-- A request to send is served, and its connection is not open. -/
  | refuses {ticket : Nat} {port : UInt16} {bytes : Bytes} {later : List (Nat × Request)}
    {e : TunnelError} {c : Switchboard}
    (hr : b.requests = (ticket, .send port bytes) :: later)
    (hopen : b.stack.isConnected port = false)
    (hc : Proceeds none none Unqueued
      { b with requests := later, outcomes := b.outcomes ++ [(ticket, .error e)] } c) :
    Turned b .atRequests c
  /-- No request is served. -/
  | passes {turn : Turn} {c : Switchboard} (hr : turn = .atRequests → b.requests = [])
    (hc : Proceeds none none Unqueued b c) : Turned b turn c

theorem ends_serveNext_turned (hk : b.stack.Kept) :
    serveNext.Ends b (fun _ => Turned b .atRequests) (fun _ => Turned b .atRequests) := by
  rw [serveNext, ends_bind, ends_get]
  split
  · next ticket request later hr =>
    rw [ends_bind, ends_modify]
    by_cases hsend : ∃ port bytes, request = .send port bytes
    · obtain ⟨port, bytes, rfl⟩ := hsend
      cases hopen : b.stack.isConnected port with
      | true =>
        refine (ends_serve_admits (b := { b with requests := later }) hk hopen ticket bytes).mono
          (fun _ c hc => ?_) fun _ c hc => ?_
        all_goals
          obtain ⟨t, r, ht, hc⟩ := hc
          exact .admits hr hopen ht hc
      | false =>
        refine (ends_serve_refuses (b := { b with requests := later }) hopen ticket bytes).mono
          (fun _ c hc => ?_) fun _ c hc => ?_
        all_goals
          obtain ⟨e, hc⟩ := hc
          exact .refuses hr hopen hc
    · have hnone : ∀ port bytes, request ≠ .send port bytes :=
        fun port bytes h => hsend ⟨port, bytes, h⟩
      exact (ends_serve_proceeds (b := { b with requests := later }) hk ticket hnone).mono
        (fun _ _ hc => .serves hr hnone hc) fun _ _ hc => .serves hr hnone hc
  · next hr =>
    rw [ends_bind, ends_get]
    split
    · exact .passes (fun _ => hr) (refl_of (Proceeds none none Unqueued) b)
    · exact (proceeds_stop b).mono (fun _ _ hc => .passes (fun _ => hr) hc)
        fun _ _ hc => .passes (fun _ => hr) hc

theorem ends_take_turned (hk : b.stack.Kept) (turn : Turn) :
    (take turn).Ends b (fun _ => Turned b turn) (fun _ => Turned b turn) := by
  cases turn with
  | atRequests => exact ends_serveNext_turned hk
  | atTunnel =>
    exact (proceeds_listen b).mono (fun _ _ hc => .passes nofun hc) fun _ _ hc => .passes nofun hc

theorem Turned.grows {turn : Turn} (h : Turned b turn c) :
    Stack.Grows (fun _ => True) b.stack c.stack := by
  cases h with
  | serves _ _ hc => exact hc.grows.mono fun _ _ => trivial
  | admits _ _ ht hc => exact ht.grows.trans (hc.grows.mono fun _ _ => trivial)
  | refuses _ _ hc => exact hc.grows.mono fun _ _ => trivial
  | passes _ hc => exact hc.grows.mono fun _ _ => trivial

theorem Turned.streams {turn : Turn} (h : Turned b turn c) {i : Nat} {s : Stream}
    (hs : b.streams[i]? = some s) : ∃ t, c.streams[i]? = some t ∧ s.Kin t := by
  cases h with
  | serves _ _ hc => exact hc.streams i s hs
  | admits _ _ _ hc => exact hc.streams i s hs
  | refuses _ _ hc => exact hc.streams i s hs
  | passes _ hc => exact hc.streams i s hs

end Switchboard

/-! ## Sessions -/

namespace Session

open Switchboard

variable {w : Session}

/-- What users do, and what the world does, says nothing to the device. -/
theorem grows_idle (w : Session) {act : Act} (h : ∀ t, act ≠ .turn t) :
    Stack.Grows (fun _ => False) w.board.stack (w.step act).board.stack := by
  cases act with
  | read i most hm =>
    cases hs : w.board.streams[i]? with
    | none =>
      have hb : (w.step (.read i most hm)).board = w.board := state_read_none hs hm
      rw [hb]
      exact .refl _
    | some s =>
      have hb : (w.step (.read i most hm)).board =
          { w.board with streams := w.board.streams.set i (s.reading most).1 } :=
        state_read hs hm
      rw [hb]
      exact .refl _
  | turn t => exact absurd rfl (h t)
  | world | tick => exact .of_idle rfl rfl rfl rfl rfl
  | _ =>
    rw [(asks_step w rfl).stack]
    exact .refl _

/-- A turn, if one is taken. -/
theorem Sound.turned (hw : w.Sound) (t : Turn) (hr : w.board.isRunning = true) :
    Turned w.board t (w.step (.turn t)).board :=
  hw.step_turn t (fun h => absurd (hr.symm.trans h) Bool.noConfusion)
    fun _ hd => ends_take_turned hd.kept t

theorem board_step_of_stopped (hr : w.board.isRunning = false) (t : Turn) :
    (w.step (.turn t)).board = w.board := by
  refine Call.Ends.state (P := fun c => c = w.board) ?_
  rw [Act.call, ends_bind, ends_get, if_neg (by simp [hr])]
  rfl

theorem Sound.grows_step (hw : w.Sound) (act : Act) :
    Stack.Grows (fun _ => True) w.board.stack (w.step act).board.stack := by
  by_cases hturn : ∃ t, act = .turn t
  · obtain ⟨t, rfl⟩ := hturn
    cases hr : w.board.isRunning with
    | true => exact (hw.turned t hr).grows
    | false =>
      rw [board_step_of_stopped hr]
      exact .refl _
  · exact (grows_idle w fun t ht => hturn ⟨t, ht⟩).mono fun _ _ => trivial

theorem Sound.grows_play (hw : w.Sound) (acts : List Act) :
    Stack.Grows (fun _ => True) w.board.stack (w.play acts).board.stack := by
  induction acts generalizing w with
  | nil => exact .refl _
  | cons act acts ih => exact (hw.grows_step act).trans (ih (hw.step act))

/-- All that went into the tunnel in a session, and before it. -/
theorem grows_run (e : Tunnel.Ends) (before : List Stack.Act) (acts : List Act) :
    Stack.Grows (fun _ => True) (Stack.ofEnds e) (run e before acts).board.stack :=
  (Stack.grows_play before _).trans ((sound_start (Stack.kept_play e before)).grows_play acts)

end Session

end Tunnel

end Tether
