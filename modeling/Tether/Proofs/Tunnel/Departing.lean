import Tether.Proofs.Tunnel.Draining

/-!
# Streams off their routes

Between turns, what was accepted for a stream on a route is with the stream. This is also true of a
stream whose connection the host has closed: nothing more comes for such a connection, and by the
time it is closed all that was accepted on it was passed on. So a stream that somebody has lacks
nothing, unless the device has ended its connection.

* `Parted`: a stream for which nothing more comes;
* `Tended.dispatch`, `Tended.attend`: each stream is on a route or has parted, throughout a turn;
* `Session.passed_eq_accepted`: what a stream has passed, if the device has not ended its
  connection.
-/

namespace Tether.Tunnel

open Net Call

namespace Switchboard

variable {m m' : Notes} {live live' : List (UInt16 × Nat)} {b c : Switchboard} {s u : Stream}
  {port : UInt16} {i : Nat} {l : Link}

/-- Nothing more comes for a stream: the device has ended its connection, or no port stands for the
connection any more and all that was accepted on it was passed on. -/
inductive Parted (m : Notes) (b : Switchboard) (i : Nat) (s : Stream) : Prop
  | ended {a : Account} {fault : Fault}
    (ha : b.stack.ledger.accounts[m.owner i]? = some a) (hs : a.heard.status = .ended fault)
  | closed {a : Account} (ha : b.stack.ledger.accounts[m.owner i]? = some a)
    (hfree : ∀ p, b.stack.ledger.holder p ≠ some (m.owner i)) (he : s.hasEnded = false)
    (hp : Stream.IsPlain s.inbox) (hall : s.passed (m.reads i) = a.accepted)

/-- Each stream that somebody has is on a route in use, or nothing more comes for it. -/
def Tended (m : Notes) (live : List (UInt16 × Nat)) (b : Switchboard) : Prop :=
  ∀ (i : Nat) s, b.streams[i]? = some s → s.isHeld = true → (∃ p, (p, i) ∈ live) ∨ Parted m b i s

/-! ## What gives a stream nothing and takes nothing from it -/

/-- A switchboard before and after something by which no stream gets or loses anything. -/
structure Goes (b c : Switchboard) : Prop where
  streams : ∀ (i : Nat) t, c.streams[i]? = some t → ∃ s, b.streams[i]? = some s ∧ s.Like t
  journal : b.stack.journal <:+ c.stack.journal

theorem Goes.of_eq (hs : c.streams = b.streams) (hj : b.stack.journal <:+ c.stack.journal) :
    Goes b c :=
  ⟨fun _ t ht => ⟨t, hs ▸ ht, .refl t⟩, hj⟩

instance : IsPreorder Switchboard Goes where
  refl _ := .of_eq rfl List.suffix_rfl
  trans _ _ _ h h' := by
    refine ⟨fun i u hu => ?_, h.journal.trans h'.journal⟩
    obtain ⟨t, ht, htu⟩ := h'.streams i u hu
    obtain ⟨s, hs, hst⟩ := h.streams i t ht
    exact ⟨s, hs, hst.trans htu⟩

theorem Goes.of_grows {P : Event → Prop} {t : Stack} (h : Stack.Grows P b.stack t) :
    Goes b { b with stack := t } := by
  obtain ⟨es, hj, -⟩ := h.events
  exact .of_eq rfl ⟨es, hj.symm⟩

theorem goes_unroute (port : UInt16) : Respects Goes (unroute port) := by
  refine Respects.modify fun b => ⟨fun i t ht => ?_, List.suffix_rfl⟩
  dsimp only at ht
  rw [List.getElem?_mapIdx, Option.map_eq_some_iff] at ht
  obtain ⟨s, hs, rfl⟩ := ht
  refine ⟨s, hs, ?_⟩
  split
  · exact ⟨rfl, rfl, rfl, rfl, id, nofun⟩
  · exact .refl s

theorem goes_hangUp (port : UInt16) : Respects Goes (hangUp port) := by
  have hclose : Respects Goes (onStack (Stack.close port)) :=
    (Stack.grows_close port).zoom fun _ _ hg => .of_grows hg
  exact (goes_unroute port).bind fun _ => hclose.attempt.bind fun _ => .pure _

theorem Asks.goes (h : Asks b c) : Goes b c :=
  ⟨h.streams, h.stack ▸ List.suffix_rfl⟩

/-- Nothing comes later either. -/
theorem Parted.goes (h : Parted m b i s) (hj : b.stack.journal <:+ c.stack.journal)
    (hlike : s.Like u) : Parted m c i u := by
  obtain ⟨es, hes⟩ := hj
  have hledger : c.stack.ledger = Ledger.ofJournal (es ++ b.stack.journal) := by
    rw [Stack.ledger, hes]
  rcases h with @⟨a, fault, ha, hs⟩ | ⟨ha, hfree, he, hp, hall⟩
  · obtain ⟨a', ha', hprec, -⟩ := Ledger.exists_precedes ha es
    have hstatus : a'.heard.status = .ended fault := by rw [hprec.ended _ hs, hs]
    exact .ended (hledger ▸ ha') hstatus
  · have hn := (List.getElem?_eq_some_iff.1 ha).1
    refine .closed (hledger ▸ (Ledger.getElem?_append_of_not_held hn hfree es).trans ha)
      (fun p hheld => ?_) (hlike.hasEnded.trans he) (hlike.inbox ▸ hp) ?_
    · rw [hledger] at hheld
      exact hfree p (Ledger.holder_of_append hheld hn)
    · rw [Stream.passed, hlike.rest, hlike.inbox]
      exact hall

theorem Tended.goes (h : Tended m live b) (hg : Goes b c) (hl : ∀ r ∈ live, r ∈ live') :
    Tended m live' c := by
  intro i t ht hheld
  obtain ⟨s, hs, hlike⟩ := hg.streams i t ht
  rcases h i s hs (hlike.isHeld hheld) with ⟨p, hp⟩ | hparted
  · exact .inl ⟨p, hl _ hp⟩
  · exact .inr (hparted.goes hg.journal hlike)

/-- Only the stack and the streams matter. -/
theorem Tended.of_eq (h : Tended m live b) (hs : c.stack = b.stack) (ht : c.streams = b.streams) :
    Tended m live c :=
  h.goes (.of_eq ht (hs ▸ List.suffix_rfl)) fun _ => id

/-! ## Passing on -/

/-- What is told to one stream, if the link of its connection is over. -/
theorem ends_passEnd_apart (hl : b.stack.links.get? port = some l) (i : Nat) :
    (passEnd (port, i)).Ends b
      (fun isLast c => (∀ k, k ≠ i → c.streams[k]? = b.streams[k]?) ∧ c.stack = b.stack ∧
        (isLast = true → ∃ fault, l.status = .ended fault))
      (fun _ _ => False) := by
  rw [passEnd, ends_bind, ends_get, hl]
  split
  · next peerPort sequence expected received queued fault heq =>
    obtain rfl := Option.some.inj heq
    have hothers (k : Nat) (hk : k ≠ i) :
        (deliver i (lastPiece fault)).Ends b (fun _ c => c.streams[k]? = b.streams[k]?)
          (fun _ _ => False) :=
      ends_deliver_ne (Ne.symm hk) _ b
    rw [ends_bind]
    refine ((ends_deliver_stack i _ b).and (ends_self _ b)).mono (fun _ c hc => ?_)
      fun _ _ hc => hc.1
    obtain ⟨hstack, hself⟩ := hc
    refine ⟨fun k hk => ?_, hstack.1, fun _ => ⟨fault, rfl⟩⟩
    have hk := hothers k hk
    rwa [Call.Ends, hself] at hk
  · exact ⟨fun _ _ => rfl, rfl, fun h => absurd h Bool.false_ne_true⟩

/-- Passing on for one stream leaves the others alone, and is the last for a stream that somebody
has only if the link of its connection is over. -/
theorem ends_passOn_apart (hk : b.stack.Kept) (hl : b.stack.links.get? port = some l)
    (hs : b.streams[i]? = some s) :
    (passOn (port, i)).Ends b
      (fun isLast c => (∀ k, k ≠ i → c.streams[k]? = b.streams[k]?) ∧
        b.stack.journal <:+ c.stack.journal ∧
        (isLast = true → (∀ u, c.streams[i]? = some u → u.isHeld = false) ∨
          ∃ fault, l.status = .ended fault))
      (fun _ _ => False) := by
  rw [passOn_eq, onStack, ends_bind, ends_attempt, ends_zoom]
  refine (Stack.ends_take hk hl).mono (fun bytes t ht => ?_) fun _ _ => False.elim
  obtain ⟨rfl, -, hj, hlinks⟩ := ht
  have hl' : t.links.get? port = some { l with received := [] } := by
    rw [hlinks, Table.get?_update_self hl]
  have hsuffix : b.stack.journal <:+ t.journal := ⟨[_], hj.symm⟩
  dsimp only
  split
  · refine (ends_passEnd_apart (b := { b with stack := t }) hl' i).mono (fun isLast c hc => ?_)
      fun _ _ => id
    exact ⟨hc.1, hc.2.1 ▸ hsuffix, fun hlast => .inr (hc.2.2 hlast)⟩
  · rw [ends_bind]
    refine (ends_deliver (b := { b with stack := t }) hs _).mono (fun isHeld c hc => ?_)
      fun _ _ => id
    obtain ⟨rfl, hc⟩ := hc
    have hothers : ∀ k, k ≠ i → c.streams[k]? = b.streams[k]? := by
      intro k hk
      rw [hc]
      dsimp only
      split
      · exact List.getElem?_set_ne (Ne.symm hk)
      · rfl
    have hstack : c.stack = t := hc ▸ rfl
    split
    · refine (ends_passEnd_apart (hstack ▸ hl') i).mono (fun isLast d hd => ?_) fun _ _ => id
      exact ⟨fun k hk => (hd.1 k hk).trans (hothers k hk), hd.2.1 ▸ hstack ▸ hsuffix,
        fun hlast => .inr (hd.2.2 hlast)⟩
    · next hheld =>
      -- Nobody has the stream.
      refine ⟨hothers, hstack ▸ hsuffix, fun _ => .inl fun u hu => ?_⟩
      rw [hc] at hu
      dsimp only at hu
      rw [if_neg hheld, hs] at hu
      obtain rfl := Option.some.inj hu
      simpa using hheld

namespace Tended

theorem passOn (h : Tended m live b) (hd : Delivers m live b) (hr : (port, i) ∈ live) :
    (passOn (port, i)).Ends b
      (fun isLast c => Tended m (unused live (if isLast then [port] else [])) c)
      (fun _ _ => False) := by
  obtain ⟨l, hl⟩ := hd.exists_link hr
  obtain ⟨s, hs⟩ := hd.exists_stream hr
  obtain ⟨a, hat, ha, -⟩ := (Ledger.sound_ofJournal _).exists_at? (hd.held _ hr)
  obtain ⟨a', hat', htells⟩ := hd.kept.exists_account hl
  obtain rfl : a = a' := Option.some.inj (hat.symm.trans hat')
  refine (ends_passOn_apart hd.kept hl hs).mono (fun isLast c hc => ?_) fun _ _ => id
  obtain ⟨hothers, ⟨es, hes⟩, hlast⟩ := hc
  intro k u hu hheld
  by_cases hk : k = i
  · subst hk
    rcases isLast with _ | _
    · exact .inl ⟨port, List.mem_filter.2 ⟨hr, by simp⟩⟩
    · -- The stream is told the last piece, since the device has ended the connection.
      obtain ⟨fault, hfault⟩ := (hlast rfl).resolve_left fun hnone => by
        simp [hnone u hu] at hheld
      have hstatus : a.heard.status = .ended fault := htells.status ▸ hfault
      obtain ⟨a', ha', hprec, -⟩ := Ledger.exists_precedes ha es
      have hstatus' : a'.heard.status = .ended fault := by rw [hprec.ended _ hstatus, hstatus]
      have hledger : c.stack.ledger = Ledger.ofJournal (es ++ b.stack.journal) := by
        rw [Stack.ledger, hes]
      exact .inr (.ended (hledger ▸ ha') hstatus')
  · rw [hothers k hk] at hu
    rcases h k u hu hheld with ⟨p, hp⟩ | hparted
    · -- Another stream has another port.
      have hne : p ≠ port := by
        rintro rfl
        exact hk (hd.eq_of_owner hp hr (Option.some.inj ((hd.held _ hp).symm.trans (hd.held _ hr))))
      refine .inl ⟨p, List.mem_filter.2 ⟨hp, ?_⟩⟩
      rcases isLast with _ | _
      · simp
      · simpa using hne
    · exact .inr (hparted.goes ⟨es, hes⟩ (.refl u))

theorem passOnAll (todo : List (UInt16 × Nat)) (h : Tended m live b) (hd : Delivers m live b)
    (hsub : ∀ r ∈ todo, r ∈ live) (hnodup : (todo.map Prod.fst).Nodup) :
    (passOnAll todo).Ends b
      (fun finished c => Tended m (unused live finished) c) (fun _ _ => False) := by
  induction todo generalizing live b with
  | nil =>
    rw [Switchboard.passOnAll, ends_pure, unused_nil]
    exact h
  | cons r todo ih =>
    obtain ⟨port, i⟩ := r
    rw [List.map_cons, List.nodup_cons] at hnodup
    rw [Switchboard.passOnAll, ends_bind]
    refine ((h.passOn hd (hsub _ List.mem_cons_self)).and
      (hd.passOn (hsub _ List.mem_cons_self))).mono (fun isLast c hc => ?_) fun _ _ hc => hc.1
    have hsub' : ∀ r ∈ todo, r ∈ unused live (if isLast then [port] else []) := by
      intro r hr
      refine List.mem_filter.2 ⟨hsub r (List.mem_cons_of_mem _ hr), ?_⟩
      have hne : r.1 ≠ port := fun hp => hnodup.1 (List.mem_map.2 ⟨r, hr, hp⟩)
      cases isLast <;> simp [hne]
    rw [ends_bind]
    refine (ih hc.1 hc.2.1 hsub' hnodup.2).mono (fun finished d hd => ?_) fun _ _ => id
    rw [unused_unused] at hd
    cases isLast <;> exact hd

/-- Passing on leaves each stream on a route, or parted. -/
theorem dispatch (h : Tended m b.routes b) (hd : Delivers m b.routes b) :
    dispatch.Ends b (fun _ c => Tended m c.routes c) (fun _ _ => False) := by
  rw [Switchboard.dispatch, ends_bind, ends_get, ends_bind]
  refine ((h.passOnAll b.routes hd (fun _ hr => hr) hd.nodup).and
    (hd.passOnAll b.routes (fun _ hr => hr) hd.nodup)).mono (fun finished c hc => ?_)
      fun _ _ hc => hc.1
  obtain ⟨htended, hdelivers, hroutes⟩ := hc
  have hgoes : Respects Goes (finished.forM Switchboard.hangUp) :=
    .forM fun port _ => goes_hangUp port
  refine ((hdelivers.hangUpAll finished fun r hr => ?_).and (hgoes c)).mono (fun _ d hd => ?_)
    fun _ _ hd => hd.1
  · simpa using (List.mem_filter.1 hr).2
  · rw [hd.1.2, hroutes]
    exact htended.goes hd.2 fun _ => id

/-! ## Serving -/

/-- A connection is closed on which nothing is left: its stream has parted. -/
theorem hangUp (h : Tended m b.routes b) (hd : Delivers m b.routes b) (he : Emptied b)
    (port : UInt16) :
    (hangUp port).Ends b (fun _ c => Tended m c.routes c) (fun _ _ => False) := by
  have hclosed {t : Stack} {c : Switchboard} (hs : c.stack = t)
      (hg : Stack.Grows (fun e => Stack.PostsOf port e ∨ e = .forgotten port) b.stack t)
      (hat : t.ledger.at? port = none)
      (hr : c.routes = b.routes.filter fun r => r.1 ≠ port) (hgoes : Goes b c) :
      Tended m c.routes c := by
    obtain ⟨es, hj, hes, -⟩ := hg.events
    have hledger : c.stack.ledger = Ledger.ofJournal (es ++ b.stack.journal) := by
      rw [hs, Stack.ledger, hj]
    intro i u hu hheld
    obtain ⟨s, hstream, hlike⟩ := hgoes.streams i u hu
    rcases h i s hstream (hlike.isHeld hheld) with ⟨p, hp⟩ | hparted
    · by_cases hport : p = port
      · subst hport
        obtain ⟨a, ha, -, hfaith⟩ := hd.streams i s hstream
        obtain ⟨hended, hplain⟩ := hfaith.phase.of_live ⟨p, hp⟩
        have hn := (List.getElem?_eq_some_iff.1 ha).1
        -- What was accepted was taken, and what was taken was passed on.
        have hall : s.passed (m.reads i) = a.accepted :=
          (hfaith.whole ⟨p, hp⟩ (hlike.isHeld hheld)).trans
            (he _ hp a (Ledger.at?_eq_some_iff.2 ⟨_, hd.held _ hp, ha⟩))
        obtain ⟨a', ha', -⟩ := Ledger.exists_precedes ha es
        have hheard : a'.heard = a.heard := by
          refine Ledger.account_append (P := fun x => x.heard = a.heard)
            (fun hle => absurd hn (Nat.not_lt.2 hle)) (fun x hx => ?_) (fun x e he hx => ?_) a' ha'
          · rw [Option.some.inj (hx.symm.trans ha)]
          · rcases hes e he with ⟨hpost, -⟩ | rfl
            · cases e with
              | sent | lost => exact hx
              | _ => cases hpost
            · exact hx
        refine .inr (.closed (hledger ▸ ha') (fun q hq => ?_) (hlike.hasEnded.trans hended)
          (hlike.inbox ▸ hplain) ?_)
        · rw [hledger] at hq
          have hqp := (Ledger.sound_ofJournal _).holder_inj (Ledger.holder_of_append hq hn)
            (hd.held _ hp)
          obtain rfl : q = p := hqp
          rw [← hledger, hs, Stack.holder_eq_none_of_at? hat] at hq
          cases hq
        · rw [Stream.passed, hlike.rest, hlike.inbox, Account.accepted, hheard]
          exact hall
      · exact .inl ⟨p, hr ▸ List.mem_filter.2 ⟨hp, by simpa using hport⟩⟩
    · exact .inr (hparted.goes hgoes.journal hlike)
  have hgoes := goes_hangUp port b
  rw [Switchboard.hangUp, tryOnStack, onStack, unroute, ends_bind, ends_modify, ends_bind,
    ends_attempt, ends_zoom] at hgoes ⊢
  refine ((Stack.ends_closing hd.kept port).and hgoes).mono (fun _ t ht => ?_) fun h' t ht => ?_
  · exact hclosed rfl ht.1.1.2 ht.1.2 rfl ht.2
  · cases h' with
    | failed e => exact hclosed rfl ht.1.2.1.2 ht.1.2.2 rfl ht.2
    | waiting => exact absurd rfl ht.1.1

/-- A call on the stack gives no stream anything. -/
theorem onCall {d : Call TunnelError Stack Unit} {P : Event → Prop} (h : Tended m b.routes b)
    (ticket : Nat) (hg : Respects (Stack.Grows P) d) :
    (do
      let outcome : Except TunnelError Unit ← Call.attempt (onStack d)
      conclude ticket (outcome.map fun _ => 0)).Ends b (fun _ c => Tended m c.routes c)
      (fun _ c => Tended m c.routes c) := by
  have hstack {t : Stack} (ht : Stack.Grows P b.stack t) : Tended m b.routes { b with stack := t } :=
    h.goes (.of_grows ht) fun _ => id
  rw [onStack, ends_bind, ends_attempt, ends_zoom]
  refine (hg b.stack).mono (fun _ t ht => ?_) fun h' t ht => ?_
  · exact (hstack ht).of_eq rfl rfl
  · cases h' with
    | waiting => exact hstack ht
    | failed e => exact (hstack ht).of_eq rfl rfl

/-- A stream is opened, with a route of its own. -/
theorem openStream (h : Tended m b.routes b) (port : UInt16) :
    (openStream port).Ends b (fun _ c => Tended m c.routes c) (fun _ _ => False) := by
  rw [Switchboard.openStream, ends_bind, ends_get, ends_bind, ends_set, ends_pure]
  intro i s hs hheld
  dsimp only at hs ⊢
  rcases Nat.lt_trichotomy i b.streams.length with hi | rfl | hi
  · rw [List.getElem?_append_left hi] at hs
    rcases h i s hs hheld with ⟨p, hp⟩ | hparted
    · exact .inl ⟨p, List.mem_append_left _ hp⟩
    · exact .inr (hparted.goes List.suffix_rfl (.refl s))
  · exact .inl ⟨port, List.mem_append_right _ List.mem_cons_self⟩
  · rw [List.getElem?_eq_none (by rw [List.length_append]; exact hi)] at hs
    cases hs

/-- Serving a request, up to passing on. -/
theorem attend (h : Tended m b.routes b) (hd : Delivers m b.routes b) (he : Emptied b)
    (ticket : Nat) (request : Request) :
    (attend ticket request).Ends b (fun _ c => Tended m c.routes c)
      (fun _ c => Tended m c.routes c) := by
  cases request with
  | connect peerPort draws first =>
    rw [Switchboard.attend, onStack, ends_bind, ends_attempt, ends_zoom]
    refine ((Stack.ends_connect hd.kept peerPort draws first).and
      (Stack.grows_connect peerPort draws first b.stack)).mono (fun port t ht => ?_)
        fun h' t ht => ?_
    · obtain ⟨⟨hk, hdial, -⟩, hg⟩ := ht
      have hstack : Tended m b.routes { b with stack := t } := h.goes (.of_grows hg) fun _ => id
      dsimp only
      rw [ends_bind, ends_get]
      split
      · -- The port of the connection that nobody waits for was free, so no route has it.
        have hfree := hd.ne_of_free hdial.1
        obtain ⟨es, hj, hes⟩ := hdial.events
        have hroutes : unused b.routes [port] = b.routes :=
          List.filter_eq_self.2 fun r hr => by simpa using hfree r hr
        refine (((hd.dial hk hdial.1 hj hes).hangUp hfree).and
          (goes_hangUp port { b with stack := t })).mono (fun _ c hc => ?_) fun _ _ hc => hc.1.elim
        rw [hc.1.2, hroutes]
        exact hstack.goes hc.2 fun _ => id
      · rw [ends_bind]
        exact (Tended.openStream (b := { b with stack := t }) hstack port).mono
          (fun i c hc => hc.of_eq rfl rfl) fun _ _ => False.elim
    · have hstack : Tended m b.routes { b with stack := t } :=
        h.goes (.of_grows ht.2) fun _ => id
      cases h' with
      | waiting => exact hstack
      | failed e => exact hstack.of_eq rfl rfl
  | send port bytes => exact h.onCall ticket (Stack.grows_send port bytes)
  | close port =>
    rw [Switchboard.attend, ends_bind, ends_get]
    split
    · exact (h.hangUp hd he port).mono (fun _ _ => id) fun _ _ => False.elim
    · exact h
  | capture file => exact h.onCall ticket (Stack.grows_startCapture (P := fun _ => True) file)
  | shutdown => exact h

/-! ## Turns -/

theorem serveNext (h : Tended m b.routes b) (hd : Delivers m b.routes b) (he : Emptied b)
    (hnew : m.owner b.streams.length = b.stack.ledger.accounts.length) :
    serveNext.Ends b (fun _ c => c.isRunning = true → Tended m c.routes c)
      (fun _ c => c.isRunning = true → Tended m c.routes c) := by
  rw [Switchboard.serveNext, ends_bind, ends_get]
  split
  · next ticket request later _ =>
    rw [ends_bind, ends_modify]
    have hd' : Delivers m b.routes { b with requests := later } := hd.of_eq rfl rfl rfl
    have he' : Emptied { b with requests := later } := he
    by_cases hshut : request = .shutdown
    · subst hshut
      refine (ends_serve_shutdown hd'.kept ticket).mono (fun _ c hc hr => ?_) fun _ _ => False.elim
      obtain ⟨d, hstops, rfl⟩ := hc
      exact absurd (hr.symm.trans hstops.isRunning) Bool.noConfusion
    · have h' : Tended m b.routes { b with requests := later } := h.of_eq rfl rfl
      rw [serve_eq hshut, ends_bind]
      refine ((attend h' hd' he' ticket request).and
        (Delivers.attend (b := { b with requests := later }) hd' hnew ticket request)).mono
          (fun _ c hc => ?_) fun _ _ hc _ => hc.1
      exact (hc.1.dispatch hc.2).mono (fun _ _ hd _ => hd) fun _ _ => False.elim
  · rw [ends_bind, ends_get]
    split
    · exact fun _ => h
    · refine (Ready.stop_rests hd).mono (fun _ c hc hr => ?_) fun _ _ => False.elim
      exact absurd (hr.symm.trans hc) Bool.noConfusion

theorem listen (h : Tended m b.routes b) (hd : Delivers m b.routes b) :
    listen.Ends b (fun _ c => c.isRunning = true → Tended m c.routes c)
      (fun _ c => c.isRunning = true → Tended m c.routes c) := by
  by_cases hfails : ∃ e t, Stack.process b.stack = .error (.failed e) t
  · obtain ⟨e, t, hfails⟩ := hfails
    refine (ends_listen_failed hd hfails).mono (fun _ c hc hr => ?_) fun _ _ => False.elim
    exact absurd (hr.symm.trans hc) Bool.noConfusion
  · rw [Switchboard.listen, onStack, ends_bind, ends_attempt, ends_zoom]
    refine (((Stack.keeps_process b.stack).and (Stack.grows_process b.stack)).and
      (ends_self _ _)).mono (fun _ t ht => ?_) fun h' t ht => ?_
    · have hstack : Tended m b.routes { b with stack := t } :=
        h.goes (.of_grows ht.1.2) fun _ => id
      exact (Tended.dispatch (b := { b with stack := t }) hstack
        (hd.traffic (ht.1.1 hd.kept) ht.1.2)).mono (fun _ _ hd _ => hd) fun _ _ => False.elim
    · cases h' with
      | failed e => exact absurd ⟨e, t, ht.2⟩ hfails
      | waiting => exact fun _ => h.goes (.of_grows ht.1.2) fun _ => id

theorem take (h : Tended m b.routes b) (hd : Delivers m b.routes b) (he : Emptied b)
    (hnew : m.owner b.streams.length = b.stack.ledger.accounts.length) (turn : Turn) :
    (take turn).Ends b (fun _ c => c.isRunning = true → Tended m c.routes c)
      (fun _ c => c.isRunning = true → Tended m c.routes c) := by
  cases turn with
  | atRequests => exact h.serveNext hd he hnew
  | atTunnel => exact h.listen hd

/-! ## Users -/

/-- Streams that are not open play no part. -/
theorem congr (h : Tended m live b) (ho : ∀ i < b.streams.length, m'.owner i = m.owner i)
    (hr : ∀ i, m'.reads i = m.reads i) : Tended m' live b := by
  intro i s hs hheld
  refine (h i s hs hheld).imp_right fun hparted => ?_
  have howner := ho i (List.getElem?_eq_some_iff.1 hs).1
  rcases hparted with ⟨ha, hstatus⟩ | ⟨ha, hfree, he, hp, hall⟩
  · exact .ended (howner.symm ▸ ha) hstatus
  · exact .closed (howner.symm ▸ ha) (howner.symm ▸ hfree) he hp (hr i ▸ hall)

/-- A stream is read. -/
theorem read {most : Nat} (h : Tended m live b) (hs : b.streams[i]? = some s)
    (hi : m'.reads i = m.reads i ++ (s.reading most).2.toList)
    (hr : ∀ k, k ≠ i → m'.reads k = m.reads k) (ho : m'.owner = m.owner) :
    Tended m' live { b with streams := b.streams.set i (s.reading most).1 } := by
  intro k u hu hheld
  by_cases hk : k = i
  · subst hk
    dsimp only at hu
    rw [List.getElem?_set_self (List.getElem?_eq_some_iff.1 hs).1] at hu
    obtain rfl := Option.some.inj hu
    rw [Stream.isHeld_reading] at hheld
    refine (h k s hs hheld).imp_right fun hparted => ?_
    rcases hparted with ⟨ha, hstatus⟩ | ⟨ha, hfree, he, hp, hall⟩
    · exact .ended (ho.symm ▸ ha) hstatus
    · obtain ⟨he', hp'⟩ := Stream.plain_reading he hp most
      refine .closed (ho.symm ▸ ha) (ho.symm ▸ hfree) he' hp' ?_
      rw [hi, Stream.passed_reading]
      exact hall
  · have hu : b.streams[k]? = some u := (List.getElem?_set_ne (Ne.symm hk)).symm.trans hu
    refine (h k u hu hheld).imp_right fun hparted => ?_
    rcases hparted with ⟨ha, hstatus⟩ | ⟨ha, hfree, he, hp, hall⟩
    · exact .ended (ho.symm ▸ ha) hstatus
    · exact .closed (ho.symm ▸ ha) (ho.symm ▸ hfree) he hp (hr k hk ▸ hall)

end Tended

end Switchboard

/-! ## Sessions -/

namespace Session

open Switchboard

variable {w : Session} {i n : Nat} {s : Stream} {a : Account}

/-- Between turns, each stream that somebody has is on a route, or nothing more comes for it. -/
def Tends (w : Session) : Prop :=
  w.board.isRunning = true → Tended (w.notes 0) w.board.routes w.board

theorem Sound.tends_step (hw : w.Sound) (he : Empties w.board) (h : w.Tends) (act : Act) :
    (w.step act).Tends := by
  have hlength := (hw.step act).owners
  have howner : ∀ i < (w.step act).board.streams.length, ((w.step act).notes 0).owner i =
      (w.notes w.board.stack.ledger.accounts.length).owner i :=
    fun i hi => hw.owner_step act (hlength ▸ hi) 0
  have hcongr (hr : w.board.isRunning = true) :
      Tended (w.notes w.board.stack.ledger.accounts.length) w.board.routes w.board := by
    refine (h hr).congr (fun i hi => ?_) fun _ => rfl
    dsimp only [notes]
    rw [List.getElem?_eq_getElem (hw.owners ▸ hi)]
    rfl
  have hidle (hgoes : Goes w.board (w.step act).board)
      (hroutes : (w.step act).board.routes = w.board.routes)
      (hrunning : (w.step act).board.isRunning = w.board.isRunning)
      (hresult : act.result w.board = []) : (w.step act).Tends := by
    intro hr
    rw [hroutes]
    exact ((hcongr (hrunning ▸ hr)).goes hgoes fun _ => id).congr howner
      fun i => readsOf_step_of_nil hresult i
  have hasks (ha : act.isAsking = true) : (w.step act).Tends :=
    hidle (asks_step w ha).goes (asks_step w ha).routes (asks_step w ha).isRunning
      (Act.result_of_isAsking ha _)
  cases act with
  | turn t =>
    intro hr
    have hrun : w.board.isRunning = true := by
      refine Bool.of_not_eq_false fun hstopped => ?_
      rw [board_step_of_stopped hstopped, hstopped] at hr
      cases hr
    obtain ⟨live, hlive, hd⟩ := hw.serves w.board.stack.ledger.accounts.length
    obtain rfl := hlive hrun
    have hnew : (w.notes w.board.stack.ledger.accounts.length).owner w.board.streams.length =
        w.board.stack.ledger.accounts.length := by
      dsimp only [notes]
      rw [List.getElem?_eq_none (Nat.le_of_eq hw.owners)]
      rfl
    have hstep : (w.step (.turn t)).board.isRunning = true →
        Tended (w.notes w.board.stack.ledger.accounts.length) (w.step (.turn t)).board.routes
          (w.step (.turn t)).board := by
      refine Call.Ends.state (P := fun c : Switchboard => c.isRunning = true →
        Tended (w.notes w.board.stack.ledger.accounts.length) c.routes c) ?_
      rw [Act.call, ends_bind, ends_get, if_pos hrun]
      exact (hcongr hrun).take hd (he hrun) hnew t
    exact (hstep hr).congr howner fun i => readsOf_step_of_nil rfl i
  | read k most hm =>
    cases hs : w.board.streams[k]? with
    | none =>
      have hb : (w.step (.read k most hm)).board = w.board := state_read_none hs hm
      have hnone : (Act.read k most hm).result w.board = [] :=
        if_neg (Nat.not_lt.2 (List.getElem?_eq_none_iff.1 hs))
      exact hidle (hb ▸ refl_of Goes _) (hb ▸ rfl) (hb ▸ rfl) hnone
    | some s =>
      have hb : (w.step (.read k most hm)).board =
          { w.board with streams := w.board.streams.set k (s.reading most).1 } :=
        state_read hs hm
      intro hr
      rw [hb] at hr howner ⊢
      have hread : Tended { w.notes w.board.stack.ledger.accounts.length with
            reads := (w.step (.read k most hm)).readsOf } w.board.routes
          { w.board with streams := w.board.streams.set k (s.reading most).1 } := by
        refine (hcongr hr).read hs ?_ (fun j hj => ?_) rfl
        · dsimp only [notes]
          rw [readsOf_step, result_read hs hm]
          cases (s.reading most).2 <;> simp
        · dsimp only [notes]
          rw [readsOf_step, result_read hs hm]
          cases (s.reading most).2 <;> simp [Ne.symm hj]
      exact hread.congr howner fun _ => rfl
  | world | tick => exact hidle (.of_eq rfl List.suffix_rfl) rfl rfl rfl
  | _ => exact hasks rfl

theorem tends_run (e : Tunnel.Ends) (before : List Stack.Act) (acts : List Act) :
    (run e before acts).Tends := by
  induction acts using List.reverseRecOn with
  | nil =>
    intro _ i s hs
    cases hs
  | append_singleton acts act ih =>
    have hstep : run e before (acts ++ [act]) = (run e before acts).step act :=
      List.foldl_concat ..
    rw [hstep]
    exact (sound_run e before acts).tends_step emptied_run ih act

/-- What a stream that somebody has has passed, as long as the switchboard runs and the device has
not ended the connection: all that was accepted from the device. -/
theorem passed_eq_accepted {e : Tunnel.Ends} {before : List Stack.Act} {acts : List Act}
    (hr : (run e before acts).board.isRunning = true)
    (hs : (run e before acts).board.streams[i]? = some s) (hheld : s.isHeld = true)
    (hn : (run e before acts).owners[i]? = some n)
    (ha : (run e before acts).board.stack.ledger.accounts[n]? = some a)
    (hstatus : ∀ fault, a.heard.status ≠ .ended fault) :
    s.hasEnded = false ∧ Stream.IsPlain s.inbox ∧
      s.passed ((run e before acts).readsOf i) = a.accepted := by
  have hsound := sound_run e before acts
  have hempty := emptied_run hr
  have htends := tends_run e before acts hr
  generalize run e before acts = w at *
  obtain ⟨live, hlive, hd⟩ := hsound.serves 0
  obtain rfl := hlive hr
  have howner : (w.notes 0).owner i = n := by
    dsimp only [notes]
    rw [hn]
    rfl
  rcases htends i s hs hheld with ⟨p, hp⟩ | @⟨a', fault, ha', hs'⟩ | ⟨ha', -, he, hplain, hall⟩
  · -- On a route, what was accepted was taken, and what was taken was passed on.
    obtain ⟨a', ha', -, hfaith⟩ := hd.streams i s hs
    rw [howner] at ha'
    obtain rfl := Option.some.inj (ha.symm.trans ha')
    obtain ⟨he, hplain⟩ := hfaith.phase.of_live ⟨p, hp⟩
    refine ⟨he, hplain, (hfaith.whole ⟨p, hp⟩ hheld).trans (hempty _ hp a ?_)⟩
    exact Ledger.at?_eq_some_iff.2 ⟨n, howner ▸ hd.held _ hp, ha⟩
  · rw [howner] at ha'
    obtain rfl := Option.some.inj (ha.symm.trans ha')
    exact absurd hs' (hstatus fault)
  · rw [howner] at ha'
    obtain rfl := Option.some.inj (ha.symm.trans ha')
    exact ⟨he, hplain, hall⟩

end Session

end Tether.Tunnel
