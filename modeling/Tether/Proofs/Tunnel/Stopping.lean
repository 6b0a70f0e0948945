import Tether.Proofs.Transport
import Tether.Proofs.Tunnel.Proceeding
import Tether.Proofs.Tunnel.Separation
import Tether.Proofs.Tunnel.Tickets

/-!
# The end of a switchboard

A switchboard that stops closes all its connections, one after another, and then the tunnel. An
open connection sends what is queued on it and then its farewell; what the closings that follow
send is sent for other connections.

* `Stack.ends_close_utters`: closing one connection, as its account has it;
* `Stops`, `ends_stop`: what is left of a switchboard that has stopped;
* `Session.hushed_run`: a switchboard that has stopped has no connections.
-/

namespace Tether.Tunnel

open Net Call

/-! ## Accounts that are not held -/

namespace Ledger

variable {es j : Journal} {n : Nat} {p : UInt16} {a : Account}

/-- Nothing happens to an account any more for which no port stands. -/
theorem getElem?_append_of_not_held (hn : n < (ofJournal j).accounts.length)
    (h : ∀ p, (ofJournal j).holder p ≠ some n) (es : Journal) :
    (ofJournal (es ++ j)).accounts[n]? = (ofJournal j).accounts[n]? := by
  induction es with
  | nil => rfl
  | cons e es ih =>
    rw [List.cons_append, ofJournal, getElem?_note_of_ne, ih]
    · exact Nat.lt_of_lt_of_le hn (length_accounts_le es j)
    · exact fun hp => h _ (holder_of_append hp hn)

/-- What happens at other ports leaves the account of a port alone. -/
theorem getElem?_append_of_ne (h : (ofJournal j).holder p = some n) (hes : ∀ e ∈ es, e.port ≠ p) :
    (ofJournal (es ++ j)).accounts[n]? = (ofJournal j).accounts[n]? := by
  obtain ⟨a, -, ha, -⟩ := (sound_ofJournal j).exists_at? h
  induction es with
  | nil => rfl
  | cons e es ih =>
    have ih := ih fun e he => hes e (List.mem_cons_of_mem _ he)
    have hholder : (ofJournal (es ++ j)).holder p = some n :=
      (holder_append fun e he _ => hes e (List.mem_cons_of_mem _ he)).trans h
    rw [List.cons_append, ofJournal, getElem?_note_of_ne, ih]
    · exact (List.getElem?_eq_some_iff.1 (ih.trans ha)).1
    · exact fun hp => hes e List.mem_cons_self ((sound_ofJournal _).holder_inj hp hholder)

/-- To be forgotten changes no account. -/
theorem accounts_append_of_forgotten (hes : ∀ e ∈ es, ∃ q, e = .forgotten q) :
    (ofJournal (es ++ j)).accounts = (ofJournal j).accounts := by
  induction es with
  | nil => rfl
  | cons e es ih =>
    obtain ⟨q, rfl⟩ := hes e List.mem_cons_self
    exact ih fun e he => hes e (List.mem_cons_of_mem _ he)

theorem not_held_forgotten (h : (ofJournal j).holder p = some n) (q : UInt16) :
    (ofJournal (.forgotten p :: j)).holder q ≠ some n := by
  intro hq
  rw [ofJournal, note] at hq
  dsimp only at hq
  split at hq
  · cases hq
  · next hne => exact hne ((sound_ofJournal j).holder_inj hq h)

end Ledger

/-! ## Closing -/

/-- An account before and after some segments were sent. -/
structure Account.Utters (xs : List Segment) (a b : Account) : Prop where
  sent : b.sent = a.sent ++ xs
  queued : b.queued = a.queued

/-- Segments that are sent on a connection are entered in its account. -/
theorem Ledger.utters_append {j : Journal} {p : UInt16} {n : Nat} {a : Account} {xs : List Segment}
    (hn : (ofJournal j).holder p = some n) (ha : (ofJournal j).accounts[n]? = some a)
    (hxs : ∀ x ∈ xs, x.source = p) :
    (ofJournal ((xs.map Event.sent).reverse ++ j)).holder p = some n ∧
      ∃ b, (ofJournal ((xs.map Event.sent).reverse ++ j)).accounts[n]? = some b ∧ a.Utters xs b := by
  induction xs using List.reverseRecOn with
  | nil => exact ⟨hn, a, ha, (List.append_nil _).symm, rfl⟩
  | append_singleton xs x ih =>
    obtain ⟨hn', b, hb, hutters⟩ := ih fun y hy => hxs y (List.mem_append_left _ hy)
    have hx : (Event.sent x).port = p := hxs x (List.mem_append_right _ List.mem_cons_self)
    rw [List.map_append, List.reverse_append, List.map_singleton, List.reverse_singleton,
      List.singleton_append, List.cons_append, ofJournal]
    refine ⟨(congrFun (holder_change _ _ _) p).trans hn', b.note (.sent x), ?_, ?_, hutters.queued⟩
    · rw [getElem?_note hb, hx, if_pos hn']
    · rw [Account.note, hutters.sent, List.append_assoc]

theorem Link.source_of_mem_parting {l : Link} {port : UInt16} {size : Nat} {x : Segment}
    (h : x ∈ l.parting port size) : x.source = port := by
  rw [parting] at h
  split at h
  · rcases List.mem_append.1 h with h | h
    · exact source_of_mem_volley h
    · rw [List.mem_singleton.1 h]
      rfl
  · cases h

theorem Link.parting_eq_farewell {l : Link} (hs : l.status = .connected) (hq : l.queued = [])
    (port : UInt16) (size : Nat) : l.parting port size = [l.segment port farewell []] := by
  rw [parting, if_pos (by simp [Stack.saysFarewell, hs]), burst_of_queued_eq_nil hq,
    flushed_of_queued_eq_nil hq]
  rfl

namespace Stack

variable {s t : Stack} {port : UInt16} {l : Link} {n : Nat} {a : Account}

/-- What closing all connections makes them send. -/
def partings (s : Stack) : List Segment :=
  s.links.flatMap fun entry => entry.2.parting entry.1 s.segmentSize

/-- What a connection says when it is closed. Nothing happens to it any more. -/
theorem ends_close_utters (hk : s.Kept) (hl : s.links.get? port = some l)
    (hn : s.ledger.holder port = some n) (ha : s.ledger.accounts[n]? = some a) :
    (close port).Ends s
      (fun _ t => (∀ q, t.ledger.holder q ≠ some n) ∧
        ∃ b, t.ledger.accounts[n]? = some b ∧ a.Utters (l.parting port s.segmentSize) b)
      (fun h t => h ≠ .waiting ∧ ¬ t.journal.Lossless) := by
  refine (ends_close hk hl).mono (fun _ t ht => ?_) fun _ _ ht => ⟨ht.1, ht.2.2.1⟩
  obtain ⟨hn', hutters⟩ := Ledger.utters_append hn ha fun x hx => Link.source_of_mem_parting hx
  rw [ledger, ht.2]
  exact ⟨Ledger.not_held_forgotten hn', hutters⟩

/-! ### Shutting down -/

/-- Whether the tunnel can be shut down is the same. -/
abbrev Closable (s t : Stack) : Prop :=
  t.transport.shutFault = s.transport.shutFault

instance : IsPreorder Stack Closable where
  refl _ := rfl
  trans _ _ _ h h' := h'.trans h

theorem closable_linkAt (port : UInt16) : Respects Closable (linkAt port) :=
  Respects.get.bind fun _ => .ofOption _

theorem closable_setLink (port : UInt16) (link : Link) : Respects Closable (setLink port link) :=
  Respects.modify fun _ => rfl

theorem closable_put (x : Segment) : Respects Closable (put x) := by
  exact Respects.get.bind fun _ => (Respects.ofExcept _).bind fun packet =>
    Respects.bind (Respects.modify fun _ => rfl) fun _ =>
      (Transport.keepsShut_writeAll packet).zoom fun _ _ h => h.shutFault

theorem closable_transmit (port : UInt16) (control : Control) (payload : Bytes) :
    Respects Closable (transmit port control payload) := by
  refine (closable_linkAt port).bind fun _ => (closable_put _).attempt.bind fun outcome => ?_
  cases outcome with
  | ok _ => exact Respects.modify fun _ => rfl
  | error e => exact Respects.bind (Respects.modify fun _ => rfl) fun _ => .fail _

theorem closable_close (port : UInt16) : Respects Closable (close port) := by
  have hflush : Respects Closable (flushLink port) :=
    (closable_linkAt port).bind fun _ => (closable_setLink port _).bind fun _ =>
      Respects.get.bind fun _ => .forM fun _ _ => (closable_transmit port _ _).bind fun _ =>
        (closable_linkAt port).bind fun _ => closable_setLink port _
  refine (closable_linkAt port).bind fun link => Respects.bind (Respects.attempt ?_) fun _ =>
    Respects.bind (Respects.bind (.modify fun _ => rfl) fun _ => .modify fun _ => rfl) fun _ =>
      .ofExcept _
  split
  · exact hflush.bind fun _ => closable_transmit port _ _
  · exact .pure _

/-- However shutting down ends, no connection is left; and a tunnel that can be shut down is. -/
theorem ends_shutdown_links (s : Stack) :
    shutdown.Ends s
      (fun _ t => t.links = [] ∧ (s.transport.shutFault = none → t.transport.isShut = true))
      (fun h t => h ≠ .waiting ∧ t.links = [] ∧ s.transport.shutFault ≠ none) := by
  rw [shutdown, ends_bind, ends_modify, onTransport, ends_zoom]
  unfold Call.Ends Transport.shutdown
  cases hs : s.transport.shutFault with
  | none => exact ⟨rfl, fun _ => rfl⟩
  | some fault => exact ⟨Halt.failed_ne_waiting _, rfl, Option.some_ne_none fault⟩

end Stack

namespace Switchboard

variable {b c : Switchboard}

/-- What has become of some connections, once they are closed. -/
structure Parts (entries : Table) (b : Switchboard) (t : Stack) : Prop where
  kept : t.Kept
  grows : Stack.Grows Unqueued b.stack t
  posts : t.journal.Lossless → t.journal.posts = b.stack.journal.posts ++
    entries.flatMap fun entry => entry.2.parting entry.1 b.stack.segmentSize
  utters : t.journal.Lossless → ∀ p l n a, (p, l) ∈ entries →
    b.stack.ledger.holder p = some n → b.stack.ledger.accounts[n]? = some a →
    ∃ a', t.ledger.accounts[n]? = some a' ∧ a.Utters (l.parting p b.stack.segmentSize) a'

theorem ends_closeAll (entries : Table) (hk : b.stack.Kept) (hnodup : entries.ports.Nodup)
    (hl : ∀ p l, (p, l) ∈ entries → b.stack.links.get? p = some l) :
    (entries.ports.forM fun port => tryOnStack (Stack.close port)).Ends b
      (fun _ c => ∃ t, c = { b with stack := t } ∧ Parts entries b t) (fun _ _ => False) := by
  induction entries generalizing b with
  | nil => exact ⟨b.stack, rfl, hk, .refl _, fun _ => (List.append_nil _).symm,
      fun _ _ _ _ _ hm => absurd hm List.not_mem_nil⟩
  | cons entry entries ih =>
    obtain ⟨p, l⟩ := entry
    rw [Table.ports_cons, List.nodup_cons] at hnodup
    have hp := hl p l List.mem_cons_self
    -- The first is closed, then the others; what follows leaves its account alone.
    have hrest {t : Stack} (hkt : t.Kept)
        (hg : Stack.Grows (fun e => Stack.PostsOf p e ∨ e = .forgotten p) b.stack t)
        (hapart : Stack.Apart p b.stack t)
        (hposts : t.journal.Lossless → t.journal.posts = b.stack.journal.posts ++
          l.parting p b.stack.segmentSize)
        (hfirst : t.journal.Lossless → ∀ n a, b.stack.ledger.holder p = some n →
          b.stack.ledger.accounts[n]? = some a → (∀ q, t.ledger.holder q ≠ some n) ∧
            ∃ a', t.ledger.accounts[n]? = some a' ∧
              a.Utters (l.parting p b.stack.segmentSize) a') :
        ((Table.ports entries).forM fun port => tryOnStack (Stack.close port)).Ends
          { b with stack := t }
          (fun _ c => ∃ t, c = { b with stack := t } ∧ Parts ((p, l) :: entries) b t)
          (fun _ _ => False) := by
      have hne : ∀ q k, (q, k) ∈ entries → q ≠ p := by
        rintro q k hq rfl
        exact hnodup.1 (List.mem_map.2 ⟨_, hq, rfl⟩)
      obtain ⟨es, hj, hes, -⟩ := hg.events
      have hes : ∀ e ∈ es, e.port = p := by
        intro e he
        rcases hes e he with ⟨-, he⟩ | rfl
        · exact he
        · rfl
      refine (ih (b := { b with stack := t }) hkt hnodup.2 fun q k hq =>
        (hapart q (hne q k hq)).trans (hl q k (List.mem_cons_of_mem _ hq))).mono
        (fun _ c hc => ?_) fun _ _ => id
      obtain ⟨u, rfl, hu⟩ := hc
      refine ⟨u, rfl, hu.kept, (hg.mono fun _ => unqueued_close).trans hu.grows, fun hless => ?_,
        fun hless q k n a hm hn ha => ?_⟩
      · rw [hu.posts hless, hposts (hu.grows.lossless hless), List.flatMap_cons, List.append_assoc,
          hg.segmentSize]
      · obtain ⟨es', hj', -⟩ := hu.grows.events
        rcases List.mem_cons.1 hm with heq | hm
        · obtain ⟨rfl, rfl⟩ := Prod.mk.inj heq
          obtain ⟨hfree, a', hacc, hutters⟩ := hfirst (hu.grows.lossless hless) n a hn ha
          refine ⟨a', ?_, hutters⟩
          rw [Stack.ledger, hj']
          exact (Ledger.getElem?_append_of_not_held (List.getElem?_eq_some_iff.1 hacc).1 hfree
            es').trans hacc
        · have hq := hne q k hm
          rw [← hg.segmentSize]
          refine hu.utters hless q k n a hm ?_ ?_
          · dsimp only
            rw [Stack.ledger, hj, Ledger.holder_append fun e he _ => hes e he ▸ hq.symm]
            exact hn
          · dsimp only
            rw [Stack.ledger, hj, Ledger.getElem?_append_of_ne hn fun e he => hes e he ▸ hq.symm]
            exact ha
    rw [Table.ports_cons, List.forM, ends_bind, tryOnStack, onStack, ends_bind, ends_attempt,
      ends_zoom]
    refine (((Stack.ends_closing hk p).and (Stack.apart_close p b.stack)).and
      ((ends_self _ _).and (Stack.ends_close hk hp))).mono (fun _ t ht => ?_) fun h' t ht => ?_
    · obtain ⟨⟨⟨⟨hkt, hg⟩, -⟩, hapart⟩, hself, -, hj⟩ := ht
      refine hrest hkt hg hapart (fun _ => ?_) fun _ n a hn ha => ?_
      · rw [hj, Journal.posts_cons, Journal.posts_append, Journal.posts_sent]
        exact List.append_nil _
      · have hutters := Stack.ends_close_utters hk hp hn ha
        rw [Call.Ends, hself] at hutters
        exact hutters
    · obtain ⟨⟨⟨hw, ⟨hkt, hg⟩, -⟩, hapart⟩, -, -, -, hless, -⟩ := ht
      cases h' with
      | waiting => exact absurd rfl hw
      | failed e =>
        exact hrest hkt hg hapart (fun h => absurd h hless) fun h => absurd h hless

/-- What is left of a switchboard that has stopped. Each of its connections has sent what it had
to. -/
structure Stops (b c : Switchboard) : Prop where
  kept : c.stack.Kept
  links : c.stack.links = []
  routes : c.routes = []
  requests : c.requests = []
  isRunning : c.isRunning = false
  isShut : b.stack.transport.shutFault = none → c.stack.transport.isShut = true
  posts : c.stack.journal.Lossless →
    c.stack.journal.posts = b.stack.journal.posts ++ b.stack.partings
  utters : c.stack.journal.Lossless → ∀ p l n a, b.stack.links.get? p = some l →
    b.stack.ledger.holder p = some n → b.stack.ledger.accounts[n]? = some a →
    ∃ a', c.stack.ledger.accounts[n]? = some a' ∧ a.Utters (l.parting p b.stack.segmentSize) a'

theorem ends_unrouteAll (ports : List UInt16) :
    (ports.forM unroute).Ends b
      (fun _ c => c.stack = b.stack ∧ c.routes = unused b.routes ports) (fun _ _ => False) := by
  induction ports generalizing b with
  | nil => exact ⟨rfl, (unused_nil _).symm⟩
  | cons port ports ih =>
    rw [List.forM, ends_bind, unroute, ends_modify]
    refine ih.mono (fun _ c hc => ⟨hc.1, ?_⟩) fun _ _ => id
    have hroutes : (b.routes.filter fun r => r.1 ≠ port) = unused b.routes [port] := by
      simp [unused]
    rw [hc.2]
    dsimp only
    rw [hroutes, unused_unused]
    rfl

theorem unused_all (routes : List (UInt16 × Nat)) : unused routes (routes.map Prod.fst) = [] := by
  refine List.filter_eq_nil_iff.2 fun r hr => ?_
  simpa using ⟨r.2, hr⟩

theorem ends_stop (hk : b.stack.Kept) : stop.Ends b (fun _ => Stops b) (fun _ _ => False) := by
  have hclosable : Respects (fun b c : Switchboard => Stack.Closable b.stack c.stack)
      (b.stack.links.ports.forM fun port => tryOnStack (Stack.close port)) := by
    have : IsPreorder Switchboard fun b c : Switchboard => Stack.Closable b.stack c.stack :=
      { refl := fun _ => rfl, trans := fun _ _ _ h h' => h'.trans h }
    refine Respects.forM fun port _ => Respects.bind (Respects.attempt ?_) fun _ => .pure _
    exact (Stack.closable_close port).zoom fun _ _ h => h
  rw [stop, ends_bind, ends_get, ends_bind]
  refine ((ends_closeAll b.stack.links hk hk.nodup fun p l hm => Table.get?_of_mem hk.nodup hm).and
    (hclosable b)).mono (fun _ c hc => ?_) fun _ _ hc => hc.1
  obtain ⟨⟨t, rfl, hparts⟩, hclosable⟩ := hc
  rw [ends_bind, ends_get, ends_bind]
  refine (ends_unrouteAll _).mono (fun _ c hc => ?_) fun _ _ => id
  obtain ⟨hstack, hroutes⟩ := hc
  rw [unused_all] at hroutes
  have hkc : c.stack.Kept := hstack ▸ hparts.kept
  -- Nothing is sent by shutting down, and the accounts stay as they are.
  have hdone {u : Stack} (hku : u.Kept)
      (hg : Stack.Grows (fun e => ∃ port, e = .forgotten port) c.stack u) (hlinks : u.links = [])
      (hshut : c.stack.transport.shutFault = none → u.transport.isShut = true) :
      Stops b { c with stack := u, isRunning := false, requests := [] } := by
    obtain ⟨es, hj, hes, -⟩ := hg.events
    rw [hstack] at hj
    have hless : u.journal.Lossless → t.journal.Lossless := by
      rw [hj]
      exact fun h e he => h e (List.mem_append_right es he)
    have hposts : es.posts = [] := by
      refine List.filterMap_eq_nil_iff.2 fun e he => ?_
      obtain ⟨port, rfl⟩ := hes e (List.mem_reverse.1 he)
      rfl
    refine ⟨hku, hlinks, hroutes, rfl, rfl, fun h => hshut ?_, fun h => ?_,
      fun h p l n a hl hn ha => ?_⟩
    · exact (congrArg (fun s : Stack => s.transport.shutFault) hstack).trans (hclosable.trans h)
    · dsimp only
      rw [hj, Journal.posts_append, hposts, List.append_nil]
      exact hparts.posts (hless h)
    · have hutters := hparts.utters (hless h) p l n a (Table.mem_of_get? hl) hn ha
      dsimp only
      rw [Stack.ledger, hj, Ledger.accounts_append_of_forgotten hes]
      exact hutters
  rw [ends_bind, tryOnStack, onStack, ends_bind, ends_attempt, ends_zoom]
  refine ((Stack.ends_shutdown hkc).and (Stack.ends_shutdown_links c.stack)).mono
    (fun _ u hu => ?_) fun h' u hu => ?_
  · exact hdone hu.1.1 hu.1.2 hu.2.1 hu.2.2
  · cases h' with
    | waiting => exact absurd rfl hu.2.1
    | failed e => exact hdone hu.1.2.1 hu.1.2.2 hu.2.2.1 fun h => absurd h hu.2.2.2

/-! ## Turns -/

/-- The switchboard runs as before. -/
abbrev Runs (b c : Switchboard) : Prop :=
  c.isRunning = b.isRunning

instance : IsPreorder Switchboard Runs where
  refl _ := rfl
  trans _ _ _ h h' := h'.trans h

theorem runs_of_quiet {α : Type} {d : Call TunnelError Switchboard α} (hd : Respects Quiet d) :
    Respects Runs d := by
  refine hd.mono fun b c hq => ?_
  obtain ⟨_, _, _, rfl⟩ := hq
  rfl

theorem runs_conclude_dispatch (ticket : Nat) (outcome : Except TunnelError Nat) :
    Respects Runs (do conclude ticket outcome; dispatch) :=
  Respects.bind (.modify fun _ => rfl) fun _ => runs_of_quiet quiet_dispatch

/-- Only a request for the end of the switchboard ends it. -/
theorem runs_serve {request : Request} (ticket : Nat) (h : request ≠ .shutdown) :
    Respects Runs (serve ticket request) := by
  cases request with
  | connect peerPort draws first =>
    refine (runs_of_quiet (quiet_onStack _)).attempt.bind fun outcome => ?_
    cases outcome with
    | error e => exact runs_conclude_dispatch ticket _
    | ok port =>
      refine Respects.get.bind fun b => ?_
      split
      · exact (runs_of_quiet (quiet_hangUp port)).bind fun _ => runs_of_quiet quiet_dispatch
      · exact (runs_of_quiet (quiet_openStream port)).bind fun _ => runs_conclude_dispatch ticket _
  | send | capture =>
    exact (runs_of_quiet (quiet_onStack _)).attempt.bind fun _ => runs_conclude_dispatch ticket _
  | close port =>
    refine Respects.get.bind fun b => ?_
    split
    · exact (runs_of_quiet (quiet_hangUp port)).bind fun _ => runs_of_quiet quiet_dispatch
    · exact runs_of_quiet quiet_dispatch
  | shutdown => exact absurd rfl h

/-- A switchboard that has stopped has no connections. -/
abbrev Hushed (b : Switchboard) : Prop :=
  b.isRunning = false → b.stack.links = []

theorem hushed_of_isRunning (h : b.isRunning = true) : Hushed b :=
  fun hs => absurd (h.symm.trans hs) Bool.noConfusion

/-- What the end of a switchboard leaves when a request asked for it. -/
theorem ends_serve_shutdown (hk : b.stack.Kept) (ticket : Nat) :
    (serve ticket .shutdown).Ends b
      (fun _ c => ∃ d, Stops b d ∧ c = { d with outcomes := d.outcomes ++ [(ticket, .ok 0)] })
      (fun _ _ => False) := by
  rw [serve, ends_bind]
  exact (ends_stop hk).mono (fun _ d hd => ⟨d, hd, rfl⟩) fun _ _ => id

theorem ends_take_hushed (hk : b.stack.Kept) (hr : b.isRunning = true) (turn : Turn) :
    (take turn).Ends b (fun _ => Hushed) (fun _ => Hushed) := by
  have hstop {c : Switchboard} (hkc : c.stack.Kept) :
      stop.Ends c (fun _ => Hushed) (fun _ => Hushed) :=
    (ends_stop hkc).mono (fun _ _ hd _ => hd.links) fun _ _ => False.elim
  cases turn with
  | atRequests =>
    rw [take, serveNext, ends_bind, ends_get]
    split
    · next ticket request later _ =>
      rw [ends_bind, ends_modify]
      by_cases hshut : request = .shutdown
      · subst hshut
        refine (ends_serve_shutdown (b := { b with requests := later }) hk ticket).mono
          (fun _ c hc => ?_) fun _ _ => False.elim
        obtain ⟨d, hd, rfl⟩ := hc
        exact fun _ => hd.links
      · exact (runs_serve ticket hshut { b with requests := later }).mono
          (fun _ _ hc => hushed_of_isRunning (hc.trans hr)) fun _ _ hc =>
            hushed_of_isRunning (hc.trans hr)
    · rw [ends_bind, ends_get]
      split
      · exact hushed_of_isRunning hr
      · exact hstop hk
  | atTunnel =>
    rw [take, listen, onStack, ends_bind, ends_attempt, ends_zoom]
    refine (Stack.keeps_process b.stack).mono (fun _ t ht => ?_) fun h' t ht => ?_
    · exact (runs_of_quiet quiet_dispatch _).mono
        (fun _ _ hc => hushed_of_isRunning (hc.trans hr)) fun _ _ hc =>
          hushed_of_isRunning (hc.trans hr)
    · cases h' with
      | waiting => exact hushed_of_isRunning hr
      | failed e =>
        dsimp only
        rw [ends_bind, ends_get, ends_bind]
        refine (ends_forM (P := fun c => c.stack = t) rfl fun r _ c hc => ?_).mono
          (fun _ c hc => hstop (hc.symm ▸ ht hk)) fun _ _ => False.elim
        rw [ends_bind]
        exact (ends_deliver_stack r.2 _ c).mono (fun _ _ hd => hd.1.trans hc) fun _ _ => id

end Switchboard

/-! ## Sessions -/

namespace Session

open Switchboard

variable {w : Session}

theorem Sound.hushed_step (hw : w.Sound) (h : Hushed w.board) (act : Act) :
    Hushed (w.step act).board := by
  by_cases hturn : ∃ t, act = .turn t
  · obtain ⟨t, rfl⟩ := hturn
    exact hw.step_turn t (fun _ => h) fun hr hd => ends_take_hushed hd.kept hr t
  · obtain ⟨hlinks, -, -, -, hrun⟩ := stands_step w fun t ht => hturn ⟨t, ht⟩
    rw [Hushed, hlinks, hrun]
    exact h

theorem hushed_run (e : Tunnel.Ends) (before : List Stack.Act) (acts : List Act) :
    Hushed (run e before acts).board := by
  have hsound := sound_start (Stack.kept_play e before)
  have hhushed : Hushed (start (Stack.play before (Stack.ofEnds e))).board :=
    hushed_of_isRunning rfl
  rw [run]
  generalize start (Stack.play before (Stack.ofEnds e)) = w at hsound hhushed
  induction acts generalizing w with
  | nil => exact hhushed
  | cons act acts ih => exact ih _ (hsound.step act) (hsound.hushed_step hhushed act)

end Session

end Tether.Tunnel
