import Tether.Proofs.Tunnel.Calm
import Tether.Proofs.Tunnel.Tickets

/-!
# Isolation of streams

A request to send or to close names a host port. Until it is served, the connection that it was
meant for may be forgotten, and its port be given to another one. As long as that has not come
about, the request reaches the connection that it was meant for, or none.

* `Ledger.spares`: which accounts are left alone by what happens at one port;
* `Calm.serve_send`, `Calm.serve_close`: what serving such a request does;
* `Session.isolated_of_holder_le`: streams are isolated from each other.
-/

namespace Tether.Tunnel

open Net Call

namespace Event

/-- Whether an event begins an account. -/
def isOpened : Event → Bool
  | opened .. => true
  | _ => false

/-- Whether an event says no more than that no bytes were taken. -/
def isVoid : Event → Bool
  | taken _ bytes => bytes.isEmpty
  | _ => false

/-- Something happens to the connection of a port, or nothing at all. -/
def Concerns (port : UInt16) (e : Event) : Prop :=
  e.isVoid = true ∨ e.port = port ∧ e.isOpened = false

theorem sent?_of_isVoid {e : Event} (h : e.isVoid = true) : e.sent? = none := by
  cases e <;> first | rfl | cases h

end Event

/-! ## Accounts that are left alone -/

namespace Ledger

variable {l : Ledger} {p port : UInt16} {n k : Nat} {e : Event} {es j : Journal} {a : Account}

theorem note_of_isVoid (l : Ledger) (h : e.isVoid = true) : l.note e = l := by
  cases e with
  | taken port bytes =>
    obtain rfl : bytes = [] := List.isEmpty_iff.1 h
    have hid : (fun a : Account => a.note (.taken port [])) = id := by
      funext a
      simp [Account.note]
    rw [note_eq_change rfl, hid, change]
    split
    · rw [List.modify_id]
    · rfl
  | _ => cases h

theorem ofJournal_append_of_isVoid (h : ∀ e ∈ es, e.isVoid = true) :
    ofJournal (es ++ j) = ofJournal j := by
  induction es with
  | nil => rfl
  | cons e es ih =>
    rw [List.cons_append, ofJournal, note_of_isVoid _ (h e List.mem_cons_self)]
    exact ih fun e he => h e (List.mem_cons_of_mem _ he)

/-- A port stands for the latest of its accounts, or for none. -/
def Latest (l : Ledger) : Prop :=
  ∀ p k n a, l.holder p = some k → l.accounts[n]? = some a → a.port = p → n ≤ k

theorem Latest.change (h : l.Latest) (port : UInt16) {f : Account → Account}
    (hf : ∀ a, (f a).port = a.port) : (l.change port f).Latest := by
  intro p k n a hk ha hp
  rw [holder_change] at hk
  rw [getElem?_change] at ha
  split at ha
  · obtain ⟨b, hb, rfl⟩ := Option.map_eq_some_iff.1 ha
    exact h p k n b hk hb ((hf b).symm.trans hp)
  · exact h p k n a hk ha hp

theorem Latest.note (h : l.Latest) (e : Event) : (l.note e).Latest := by
  cases e with
  | opened port peerPort first =>
    intro p k n a hk ha hp
    have hn : n < (l.accounts ++ [{ port, peerPort, first : Account }]).length :=
      (List.getElem?_eq_some_iff.1 ha).1
    rw [List.length_append, List.length_singleton] at hn
    simp only [Ledger.note] at hk ha
    split at hk
    · rw [← Option.some.inj hk]
      exact Nat.le_of_lt_succ hn
    · next hne =>
      rcases Nat.lt_or_eq_of_le (Nat.le_of_lt_succ hn) with hn | rfl
      · rw [List.getElem?_append_left hn] at ha
        exact h p k n a hk ha hp
      · rw [List.getElem?_concat_length] at ha
        obtain rfl := Option.some.inj ha
        exact absurd hp.symm hne
  | forgotten port =>
    intro p k n a hk ha hp
    simp only [Ledger.note] at hk ha
    split at hk
    · cases hk
    · exact h p k n a hk ha hp
  | _ => exact h.change _ fun a => Account.port_note a _

theorem latest_ofJournal (j : Journal) : (ofJournal j).Latest := by
  induction j with
  | nil => intro p k n a hk; cases hk
  | cons e j ih => exact ih.note e

theorem holder_note_self (h : e.isOpened = false) :
    (l.note e).holder e.port = l.holder e.port ∨ (l.note e).holder e.port = none := by
  cases e with
  | opened => cases h
  | forgotten => exact .inr (if_pos rfl)
  | _ => exact .inl (congrFun (holder_change _ _ _) _)

theorem getElem?_note_of_isOpened (ho : e.isOpened = false) (h : l.holder e.port ≠ some k) :
    (l.note e).accounts[k]? = l.accounts[k]? := by
  cases e with
  | opened => cases ho
  | forgotten => rfl
  | _ => exact (getElem?_change _ _ _ _).trans (if_neg h)

/-- Two ledgers that differ in one account at most, which is that of a port if the port has one. -/
structure Spares (port : UInt16) (n : Nat) (l l' : Ledger) : Prop where
  accounts : ∀ k, k ≠ n → l'.accounts[k]? = l.accounts[k]?
  holder : ∀ p, p ≠ port → l'.holder p = l.holder p
  own : ∀ k, l'.holder port = some k → k = n

/-- What happens at one port leaves all accounts alone that the port does not stand for. -/
theorem spares_append (hes : ∀ e ∈ es, e.Concerns port)
    (hn : ∀ k, (ofJournal j).holder port = some k → k = n) :
    Spares port n (ofJournal j) (ofJournal (es ++ j)) := by
  induction es with
  | nil => exact ⟨fun _ _ => rfl, fun _ _ => rfl, hn⟩
  | cons e es ih =>
    have ih := ih fun e he => hes e (List.mem_cons_of_mem _ he)
    rw [List.cons_append, ofJournal]
    rcases hes e List.mem_cons_self with hvoid | ⟨rfl, ho⟩
    · rwa [note_of_isVoid _ hvoid]
    · refine ⟨fun k hk => ?_, fun p hp => ?_, fun k hk => ?_⟩
      · rw [getElem?_note_of_isOpened ho fun h => hk (ih.own k h)]
        exact ih.accounts k hk
      · rw [holder_note_of_ne hp.symm]
        exact ih.holder p hp
      · rcases holder_note_self ho with h | h
        · exact ih.own k (h ▸ hk)
        · rw [h] at hk
          cases hk

theorem Spares.at? {l' : Ledger} (h : Spares port n l l') (hl : l.Sound) (hp : p ≠ port)
    (hn : ∀ a, l.accounts[n]? = some a → a.port = port) : l'.at? p = l.at? p := by
  rw [Ledger.at?, Ledger.at?, h.holder p hp]
  cases hk : l.holder p with
  | none => rfl
  | some k =>
    obtain ⟨a, ha, hport⟩ := hl p k hk
    refine h.accounts k ?_
    rintro rfl
    exact hp (hport.symm.trans (hn a ha))

end Ledger

/-- An account tells of one link only. -/
theorem Account.Tells.link_eq {a : Account} {l l' : Link} (h : a.Tells l) (h' : a.Tells l') :
    l' = l := by
  have hreceived : l'.received = l.received :=
    List.append_cancel_left (h'.received.trans h.received.symm)
  obtain ⟨hp, hs, he, -, hq, hn, -⟩ := h
  obtain ⟨hp', hs', he', -, hq', hn', -⟩ := h'
  cases l
  cases l'
  rw [Link.mk.injEq]
  exact ⟨hp'.trans hp.symm, hn'.trans hn.symm, he'.trans he.symm, hreceived, hq'.trans hq.symm,
    hs'.trans hs.symm⟩

namespace Stack

variable {s t : Stack} {p : UInt16}

theorem Kept.get?_eq (hs : s.Kept) (ht : t.Kept) (hat : t.ledger.at? p = s.ledger.at? p) :
    t.links.get? p = s.links.get? p := by
  cases ha : s.ledger.at? p with
  | none => rw [hs.get?_eq_none_iff.2 ha, ht.get?_eq_none_iff.2 (hat.trans ha)]
  | some a =>
    obtain ⟨l, hl, htells⟩ := hs.exists_link ha
    obtain ⟨l', hl', htells'⟩ := ht.exists_link (hat.trans ha)
    rw [hl, hl', htells.link_eq htells']

/-- The one event that the journal has grown by is as in `Q`. -/
theorem Grows.of_cons {P Q : Event → Prop} {e : Event} (h : Grows P s t)
    (hj : t.journal = e :: s.journal) (he : Q e) : Grows Q s t := by
  obtain ⟨hh, hd, hs, es, hj', -, hw⟩ := h
  obtain rfl : es = [e] := List.append_cancel_right (hj'.symm.trans hj)
  exact ⟨hh, hd, hs, [e], hj', fun e' he' => List.mem_singleton.1 he' ▸ he, hw⟩

/-- Nothing happens to any connection, and nothing is sent. -/
structure Leaves (s t : Stack) : Prop where
  ledger : t.ledger = s.ledger
  links : ∀ p, t.links.get? p = s.links.get? p
  sent : t.transport.sent = s.transport.sent

theorem Kept.leaves (hs : s.Kept) (ht : t.Kept) (h : Grows (Event.isVoid ·) s t) : s.Leaves t := by
  obtain ⟨es, hj, hes, hsent⟩ := h.events
  have hledger : t.ledger = s.ledger := by
    rw [ledger, hj]
    exact Ledger.ofJournal_append_of_isVoid hes
  have hlossless : es.Lossless := by
    intro e he
    have hvoid := hes e he
    cases e <;> first | rfl | cases hvoid
  have hposts : es.posts = [] :=
    List.filterMap_eq_nil_iff.2 fun e he => Event.sent?_of_isVoid (hes e (List.mem_reverse.1 he))
  refine ⟨hledger, fun p => hs.get?_eq ht (by rw [hledger]), ?_⟩
  obtain ⟨packets, hpackets, hs⟩ := hsent hlossless
  rw [hposts] at hpackets
  cases hpackets
  exact hs.trans (List.append_nil _)

end Stack

namespace Switchboard

variable {b c d : Switchboard} {port : UInt16} {i : Nat}

/-! ## Serving one connection -/

/-- Nothing has happened, but it may have been noted that no bytes were taken. -/
def Undisturbed (b c : Switchboard) : Prop :=
  ∃ t, c = { b with stack := t } ∧ t.Kept ∧ Stack.Grows (Event.isVoid ·) b.stack t

/-- What may happen when one connection is served. -/
structure Touches (port : UInt16) (b c : Switchboard) : Prop where
  kept : c.stack.Kept
  grows : Stack.Grows (Event.Concerns port) b.stack c.stack
  streams : ∀ i, (port, i) ∉ b.routes → c.streams[i]? = b.streams[i]?

theorem Undisturbed.trans (h : Undisturbed b c) (h' : Undisturbed c d) : Undisturbed b d := by
  obtain ⟨t, rfl, -, hg⟩ := h
  obtain ⟨u, rfl, hk, hg'⟩ := h'
  exact ⟨u, rfl, hk, hg.trans hg'⟩

theorem Touches.undisturbed (h : Touches port b c) (hu : Undisturbed c d) : Touches port b d := by
  obtain ⟨t, rfl, hk, hg⟩ := hu
  exact ⟨hk, h.grows.trans (hg.mono fun _ => .inl), h.streams⟩

namespace Ready

/-- Between turns there is nothing to pass on. -/
theorem passOn_calm (h : Calm b) (hr : (port, i) ∈ b.routes) :
    (Switchboard.passOn (port, i)).Ends b
      (fun isLast c => isLast = false ∧ Undisturbed b c) (fun _ _ => False) := by
  obtain ⟨a, ha, -, hcalm⟩ := h.settled.routed _ hr
  obtain ⟨htaken, hstatus⟩ := hcalm id
  obtain ⟨l, hl, htells⟩ := h.kept.exists_link ha
  have hnone : l.received = [] := by
    have hreceived := htells.received
    rwa [htaken, List.append_right_eq_self] at hreceived
  have hconnected : l.status = .connected := htells.status.trans hstatus
  rw [passOn_eq]
  unfold onStack
  rw [ends_bind, ends_attempt, ends_zoom]
  refine ((Stack.ends_take h.kept hl).and (Stack.grows_take port b.stack)).mono
    (fun bytes t ht => ?_) fun _ _ ht => ht.1.elim
  obtain ⟨⟨rfl, hk, hj, hlinks⟩, hg⟩ := ht
  rw [hnone] at hj
  have hvoid : Stack.Grows (Event.isVoid ·) b.stack t := hg.of_cons hj rfl
  have hl' : t.links.get? port = some { l with received := [] } := by
    rw [hlinks, Table.get?_update_self hl]
  dsimp only
  rw [if_pos (List.isEmpty_iff.2 hnone)]
  unfold Switchboard.passEnd
  rw [ends_bind, ends_get]
  dsimp only
  rw [hl']
  split
  · next heq =>
    rw [Option.some.injEq, Link.mk.injEq] at heq
    cases hconnected.symm.trans heq.2.2.2.2.2
  · exact ⟨rfl, t, rfl, hk, hvoid⟩

theorem passOnAll_calm (routes : List (UInt16 × Nat)) (h : Calm b)
    (hsub : ∀ r ∈ routes, r ∈ b.routes) :
    (Switchboard.passOnAll routes).Ends b
      (fun finished c => finished = [] ∧ Undisturbed b c) (fun _ _ => False) := by
  induction routes generalizing b with
  | nil => exact ⟨rfl, b.stack, rfl, h.kept, .refl _⟩
  | cons r routes ih =>
    obtain ⟨port, i⟩ := r
    have hr := hsub _ List.mem_cons_self
    unfold Switchboard.passOnAll
    rw [ends_bind]
    refine ((h.passOn_calm hr).and (h.passOn hr)).mono (fun isLast c hc => ?_) fun _ _ hc => hc.1
    obtain ⟨⟨rfl, hu⟩, hready, hroutes⟩ := hc
    have hcalm : Calm c := by
      refine ⟨hready.kept, hready.settled.mono (fun _ hr => hr) fun r _ ht => ?_⟩
      split at ht
      · cases ht
      · exact ht
    rw [ends_bind]
    refine (ih hcalm fun r hr => hroutes ▸ hsub r (List.mem_cons_of_mem _ hr)).mono
      (fun finished d hd => ?_) fun _ _ => id
    obtain ⟨rfl, hu'⟩ := hd
    exact ⟨rfl, hu.trans hu'⟩

theorem dispatch_calm (h : Calm b) :
    Switchboard.dispatch.Ends b (fun _ => Undisturbed b) (fun _ _ => False) := by
  unfold Switchboard.dispatch
  rw [ends_bind, ends_get, ends_bind]
  refine (h.passOnAll_calm b.routes fun _ hr => hr).mono (fun finished c hc => ?_) fun _ _ => id
  obtain ⟨rfl, hu⟩ := hc
  exact hu

theorem hangUp_touches (hk : b.stack.Kept) (port : UInt16) :
    (Switchboard.hangUp port).Ends b (fun _ => Touches port b) (fun _ _ => False) := by
  have hclosed {t : Stack} (hk : t.Kept)
      (hg : Stack.Grows (fun e => Stack.PostsOf port e ∨ e = .forgotten port) b.stack t)
      {c : Switchboard} (hs : c.stack = t) (hc : c.streams = b.streams.mapIdx fun i s =>
        if (port, i) ∈ b.routes then { s with isFed := false } else s) : Touches port b c := by
    refine ⟨hs ▸ hk, hs ▸ hg.mono fun e he => ?_, fun i hi => ?_⟩
    · rcases he with ⟨hpost, hp⟩ | rfl
      · refine .inr ⟨hp, ?_⟩
        cases e <;> first | rfl | cases hpost
      · exact .inr ⟨rfl, rfl⟩
    · rw [hc, List.getElem?_mapIdx]
      cases b.streams[i]? with
      | none => rfl
      | some s => exact congrArg some (if_neg hi)
  unfold Switchboard.hangUp tryOnStack Switchboard.onStack unroute
  rw [ends_bind, ends_modify, ends_bind, ends_attempt, ends_zoom]
  refine (Stack.ends_closing hk port).mono (fun _ t ht => ?_) fun h' t ht => ?_
  · exact hclosed ht.1.1 ht.1.2 rfl rfl
  · cases h' with
    | failed e => exact hclosed ht.2.1.1 ht.2.1.2 rfl rfl
    | waiting => exact absurd rfl ht.1

theorem serve_send (h : Calm b) (ticket : Nat) (port : UInt16) (bytes : Bytes) :
    (Switchboard.serve ticket (.send port bytes)).Ends b (fun _ => Touches port b)
      (fun _ _ => False) := by
  have hsent {t : Stack} (ht : t.Kept ∧ t.IsIdle port ∧
      Stack.Grows (fun e => e = .queued port bytes ∨ Stack.PostsOf port e) b.stack t)
      {c : Switchboard} (hs : c.stack = t) (hr : c.routes = b.routes)
      (hstreams : c.streams = b.streams) :
      Switchboard.dispatch.Ends c (fun _ => Touches port b) (fun _ _ => False) := by
    obtain ⟨hk, hidle, hg⟩ := ht
    have hcalm : Calm c := (h.sent hk hidle hg).of_eq hs hr
    have htouches : Touches port b c := by
      refine ⟨hs ▸ hk, hs ▸ hg.mono fun e he => ?_, fun i _ => by rw [hstreams]⟩
      rcases he with rfl | ⟨hpost, hp⟩
      · exact .inr ⟨rfl, rfl⟩
      · refine .inr ⟨hp, ?_⟩
        cases e <;> first | rfl | cases hpost
    exact hcalm.dispatch_calm.mono (fun _ _ hd => htouches.undisturbed hd) fun _ _ => id
  unfold Switchboard.serve Switchboard.onStack
  rw [ends_bind, ends_attempt, ends_zoom]
  refine (Stack.ends_send h.kept h.isIdle port bytes).mono (fun _ t ht => ?_) fun h' t ht => ?_
  · exact hsent ht rfl rfl rfl
  · cases h' with
    | waiting => exact absurd rfl ht.1
    | failed e => exact hsent ht.2 rfl rfl rfl

theorem serve_close (h : Calm b) (ticket : Nat) (port : UInt16) :
    (Switchboard.serve ticket (.close port)).Ends b (fun _ => Touches port b)
      (fun _ _ => False) := by
  unfold Switchboard.serve
  rw [ends_bind, ends_get]
  split
  · rw [ends_bind]
    refine ((hangUp_touches h.kept port).and (h.hangUp port)).mono (fun _ c hc => ?_)
      fun _ _ hc => hc.1
    have hcalm : Calm c := ⟨hc.2.kept, hc.2.settled.mono (fun _ hr => hr) fun _ _ ht => ht.1⟩
    exact hcalm.dispatch_calm.mono (fun _ _ hd => hc.1.undisturbed hd) fun _ _ => id
  · have htouches : Touches port b b := ⟨h.kept, .refl _, fun _ _ => rfl⟩
    exact h.dispatch_calm.mono (fun _ _ hd => htouches.undisturbed hd) fun _ _ => id

/-! ### A connection that is gone -/

theorem serve_send_free (h : Calm b) (hfree : b.stack.links.get? port = none) (ticket : Nat)
    (bytes : Bytes) :
    (Switchboard.serve ticket (.send port bytes)).Ends b
      (fun _ => Undisturbed { b with
        outcomes := b.outcomes ++ [(ticket, .error (.bare .notConnected))] })
      (fun _ _ => False) := by
  unfold Switchboard.serve Switchboard.onStack
  rw [ends_bind, ends_attempt, ends_zoom, ends_bind]
  refine (Stack.ends_queue_of_not (fun l hl => ?_) bytes).mono (fun _ _ => False.elim)
    fun h' t ht => ?_
  · rw [hfree] at hl
    cases hl
  · obtain ⟨rfl, rfl⟩ := ht
    rw [hfree]
    exact dispatch_calm (h.of_eq rfl rfl)

theorem serve_close_free (h : Calm b) (hfree : b.stack.links.get? port = none) (ticket : Nat) :
    (Switchboard.serve ticket (.close port)).Ends b (fun _ => Undisturbed b)
      (fun _ _ => False) := by
  unfold Switchboard.serve
  rw [ends_bind, ends_get]
  split
  · next hany =>
    obtain ⟨r, hr, hp⟩ := List.any_eq_true.1 hany
    exact absurd (of_decide_eq_true hp) (h.ne_of_free hfree r hr)
  · exact h.dispatch_calm

end Ready

/-! ## Asking -/

/-- The switchboard once a request was posted. One that has stopped takes none. -/
def posted (b : Switchboard) (request : Request) : Switchboard :=
  if b.isRunning then
    { b with
      requests := b.requests ++ [(b.nextTicket, request)]
      nextTicket := b.nextTicket + 1 }
  else b

theorem streams_posted (b : Switchboard) (request : Request) :
    (b.posted request).streams = b.streams := by
  unfold posted
  split <;> rfl

theorem ends_post (b : Switchboard) (request : Request) :
    (post request).Ends b
      (fun ticket c => b.isRunning = true ∧ ticket = b.nextTicket ∧ c = b.posted request)
      (fun h c => b.isRunning = false ∧ h = .failed closed ∧ c = b) := by
  unfold post posted
  rw [ends_bind, ends_get]
  cases hr : b.isRunning with
  | false => exact ⟨rfl, rfl, rfl⟩
  | true => exact ⟨rfl, rfl, rfl⟩

variable {s : Stream}

theorem ends_write (hs : b.streams[i]? = some s) (bytes : Bytes) :
    (Stream.write i bytes).Ends b
      (fun count c => b.isRunning = true ∧ count = bytes.length ∧
        c = { b.posted (.send s.port bytes) with
          streams := b.streams.set i { s with writes := s.writes ++ [b.nextTicket] } })
      (fun h c => b.isRunning = false ∧ h = .failed closed ∧ c = b) := by
  unfold Stream.write
  rw [ends_bind]
  refine (Stream.ends_find hs).mono (fun t c hc => ?_) fun _ _ => False.elim
  obtain ⟨rfl, rfl⟩ := hc
  rw [ends_bind]
  refine (ends_post _ _).mono (fun ticket d hd => ?_) fun _ _ => id
  obtain ⟨hr, rfl, rfl⟩ := hd
  rw [ends_bind]
  refine (Stream.ends_find ((streams_posted _ _).symm ▸ hs)).mono (fun u d hd => ?_)
    fun _ _ => False.elim
  obtain ⟨rfl, rfl⟩ := hd
  refine ⟨hr, rfl, ?_⟩
  dsimp only
  rw [streams_posted]

theorem ends_close (hs : b.streams[i]? = some s) :
    (Stream.close i).Ends b (fun _ c => c = b.posted (.close s.port)) (fun _ _ => False) := by
  unfold Stream.close
  rw [ends_bind]
  refine (Stream.ends_find hs).mono (fun t c hc => ?_) fun _ _ => False.elim
  obtain ⟨rfl, rfl⟩ := hc
  rw [ends_bind, ends_attempt]
  refine (ends_post _ _).mono (fun _ d hd => hd.2.2) fun h d hd => ?_
  obtain ⟨hr, rfl, rfl⟩ := hd
  rw [posted, hr]
  rfl

theorem ends_release (hs : b.streams[i]? = some s) :
    (Stream.release i).Ends b
      (fun _ c => c = { b.posted (.close s.port) with
        streams := b.streams.set i { s with isHeld := false } })
      (fun _ _ => False) := by
  unfold Stream.release
  rw [ends_bind]
  refine (ends_close hs).mono (fun _ c hc => ?_) fun _ _ => False.elim
  rw [hc, ends_bind]
  refine (Stream.ends_find ((streams_posted _ _).symm ▸ hs)).mono (fun u d hd => ?_)
    fun _ _ => False.elim
  obtain ⟨rfl, rfl⟩ := hd
  refine Eq.trans (b := { b.posted (.close u.port) with
    streams := (b.posted (.close u.port)).streams.set i { u with isHeld := false } }) rfl ?_
  rw [streams_posted]

end Switchboard

/-! ## Streams are isolated -/

/-- What a stream asks of the switchboard. -/
def Stream.Sends (s : Stream) (request : Request) : Prop :=
  request = .close s.port ∨ ∃ bytes, request = .send s.port bytes

namespace Session

open Switchboard

/-- A session before and after something has happened to one connection and its stream. -/
structure Spares (port : UInt16) (n : Nat) (w w' : Session) : Prop where
  grows : Stack.Grows (Event.Concerns port) w.board.stack w'.board.stack
  accounts : ∀ k, k ≠ n → w'.board.stack.ledger.accounts[k]? = w.board.stack.ledger.accounts[k]?
  links : ∀ p, p ≠ port → w'.board.stack.links.get? p = w.board.stack.links.get? p
  streams : ∀ k : Nat, w.owners[k]? ≠ some n → w'.board.streams[k]? = w.board.streams[k]?

variable {w : Session} {s : Stream} {i n ticket : Nat} {request : Request}
  {later : List (Nat × Request)}

/-- The requests are served in turn. -/
theorem board_serveNext {P : Switchboard → Prop} (hr : w.board.isRunning = true)
    (hrequests : w.board.requests = (ticket, request) :: later)
    (h : (serve ticket request).Ends { w.board with requests := later } (fun _ => P)
      (fun _ _ => False)) : P (w.step (.turn .atRequests)).board := by
  refine Call.Ends.state (P := P) ?_
  unfold Act.call
  rw [ends_bind, ends_get, if_pos hr]
  change serveNext.Ends _ _ _
  unfold serveNext
  rw [ends_bind, ends_get, hrequests]
  dsimp only
  rw [ends_bind, ends_modify]
  exact h.mono (fun _ _ => id) fun _ _ => False.elim

theorem Sound.exists_account (hw : w.Sound) (hs : w.board.streams[i]? = some s)
    (hn : w.owners[i]? = some n) :
    ∃ a, w.board.stack.ledger.accounts[n]? = some a ∧ a.port = s.port := by
  obtain ⟨live, -, hd⟩ := hw.serves 0
  obtain ⟨a, ha, hport, -⟩ := hd.streams i s hs
  have howner : (w.notes 0).owner i = n := by
    dsimp only [notes]
    rw [hn]
    rfl
  exact ⟨a, howner ▸ ha, hport⟩

/-- A port that no later connection has is that of the stream's own connection, if of any. -/
theorem Sound.holder_eq (hw : w.Sound) (hs : w.board.streams[i]? = some s)
    (hn : w.owners[i]? = some n)
    (hport : ∀ k, w.board.stack.ledger.holder s.port = some k → k ≤ n) :
    ∀ k, w.board.stack.ledger.holder s.port = some k → k = n := by
  intro k hk
  obtain ⟨a, ha, hp⟩ := hw.exists_account hs hn
  exact Nat.le_antisymm (hport k hk)
    (Ledger.latest_ofJournal w.board.stack.journal s.port k n a hk ha hp)

theorem Sound.spares (hw : w.Sound) (hcalm : Calm w.board) (hr : w.board.isRunning = true)
    (hs : w.board.streams[i]? = some s) (hn : w.owners[i]? = some n)
    (hrequests : w.board.requests = (ticket, request) :: later) (hsends : s.Sends request)
    (hown : ∀ k, w.board.stack.ledger.holder s.port = some k → k = n) :
    Spares s.port n w (w.step (.turn .atRequests)) := by
  have hcalm' : Calm { w.board with requests := later } := hcalm.of_eq rfl rfl
  have htouches : Touches s.port { w.board with requests := later }
      (w.step (.turn .atRequests)).board := by
    refine board_serveNext hr hrequests ?_
    rcases hsends with rfl | ⟨bytes, rfl⟩
    · exact hcalm'.serve_close ticket s.port
    · exact hcalm'.serve_send ticket s.port bytes
  obtain ⟨hk, hg, hstreams⟩ := htouches
  obtain ⟨a, ha, hp⟩ := hw.exists_account hs hn
  obtain ⟨es, hj, hes, -⟩ := hg.events
  have hspares : Ledger.Spares s.port n w.board.stack.ledger
      (w.step (.turn .atRequests)).board.stack.ledger := by
    rw [Stack.ledger, Stack.ledger, hj]
    exact Ledger.spares_append hes hown
  refine ⟨hg, hspares.accounts, fun p hne => ?_, fun k hne => hstreams k fun hroute => hne ?_⟩
  · refine hcalm.kept.get?_eq hk (hspares.at? (Ledger.sound_ofJournal _) hne fun b hb => ?_)
    rw [ha] at hb
    rw [← Option.some.inj hb, hp]
  · obtain ⟨live, hl, hd⟩ := hw.serves 0
    obtain rfl := hl hr
    have hk : k < w.owners.length := hw.owners ▸ hd.known _ hroute
    have hheld := hd.held _ hroute
    dsimp only [notes] at hheld
    rw [List.getElem?_eq_getElem hk] at hheld ⊢
    exact congrArg some (hown _ hheld)

theorem leaves_of_holder (hcalm : Calm w.board) (hr : w.board.isRunning = true)
    (hnum : w.board.Numbered) (hrequests : w.board.requests = (ticket, request) :: later)
    (hsends : s.Sends request) (hnone : w.board.stack.ledger.holder s.port = none) :
    w.board.stack.Leaves (w.step (.turn .atRequests)).board.stack ∧
      (w.step (.turn .atRequests)).board.streams = w.board.streams ∧
      ∀ bytes, request = .send s.port bytes →
        (outcome ticket).Ends (w.step (.turn .atRequests)).board (fun _ _ => False)
          (fun h _ => h = .failed (.bare .notConnected)) := by
  have hcalm' : Calm { w.board with requests := later } := hcalm.of_eq rfl rfl
  have hfree : w.board.stack.links.get? s.port = none := by
    rw [hcalm.kept.get?_eq_none_iff, Ledger.at?, hnone]
    rfl
  rcases hsends with rfl | ⟨bytes, rfl⟩
  · obtain ⟨t, ht, hk, hg⟩ := board_serveNext hr hrequests
      (hcalm'.serve_close_free hfree ticket)
    rw [ht]
    exact ⟨hcalm.kept.leaves hk hg, rfl, fun _ hn => Request.noConfusion hn⟩
  · obtain ⟨t, ht, hk, hg⟩ := board_serveNext hr hrequests
      (hcalm'.serve_send_free hfree ticket bytes)
    rw [ht]
    refine ⟨hcalm.kept.leaves hk hg, rfl, fun _ _ => ?_⟩
    have hmem : (ticket, Request.send s.port bytes) ∈ w.board.requests :=
      hrequests ▸ List.mem_cons_self
    refine (hnum.ends_outcome hmem rfl).mono (fun _ _ hc => by cases hc.1) fun h d hc => ?_
    obtain ⟨e, he, rfl, -⟩ := hc
    cases he
    rfl

/-- Streams are isolated from each other, under any schedule. A stream belongs to the connection
that was begun when it was opened, the one with account `n`. What its user asks for waits as a
request, and fails at once if the switchboard has stopped. When the request is served, no
connection and no stream is touched but the stream's own, as long as no later connection has got
its port. If the stream's own connection is forgotten then, nothing is touched at all, and what
was to be sent fails, as it is not connected.

The stack may have been in use before, but nothing may have been left in the queues: what is
queued on any connection goes with the bytes that are sent next. -/
theorem isolated_of_holder_le {e : Tunnel.Ends} {before : List Stack.Act} {acts : List Act}
    (hw : w = run e before acts)
    (hidle : ∀ p l, (Stack.play before (Stack.ofEnds e)).links.get? p = some l → l.queued = [])
    (hs : w.board.streams[i]? = some s) (hn : w.owners[i]? = some n) :
    (∀ bytes, (Stream.write i bytes).Ends w.board
      (fun count c => w.board.isRunning = true ∧ count = bytes.length ∧
        c = { w.board.posted (.send s.port bytes) with
          streams := w.board.streams.set i { s with writes := s.writes ++ [w.board.nextTicket] } })
      (fun h c => w.board.isRunning = false ∧ h = .failed closed ∧ c = w.board)) ∧
    (Stream.close i).Ends w.board (fun _ c => c = w.board.posted (.close s.port))
      (fun _ _ => False) ∧
    (Stream.release i).Ends w.board
      (fun _ c => c = { w.board.posted (.close s.port) with
        streams := w.board.streams.set i { s with isHeld := false } })
      (fun _ _ => False) ∧
    ∀ ticket request later, w.board.isRunning = true →
      w.board.requests = (ticket, request) :: later → s.Sends request →
      (∀ k, w.board.stack.ledger.holder s.port = some k → k ≤ n) →
      Spares s.port n w (w.step (.turn .atRequests)) ∧
      (w.board.stack.ledger.holder s.port ≠ some n →
        w.board.stack.Leaves (w.step (.turn .atRequests)).board.stack ∧
        (w.step (.turn .atRequests)).board.streams = w.board.streams ∧
        ∀ bytes, request = .send s.port bytes →
          (outcome ticket).Ends (w.step (.turn .atRequests)).board (fun _ _ => False)
            (fun h _ => h = .failed (.bare .notConnected))) := by
  have hsound : w.Sound := hw ▸ sound_run e before acts
  have hrests : Rests w.board := hw ▸ rests_run hidle acts
  have hnum : w.board.Numbered := hw ▸ numbered_run e before acts
  refine ⟨ends_write hs, ends_close hs, ends_release hs, ?_⟩
  intro ticket request later hr hrequests hsends hport
  have hown := hsound.holder_eq hs hn hport
  refine ⟨hsound.spares (hrests hr) hr hs hn hrequests hsends hown, fun hgone => ?_⟩
  refine leaves_of_holder (hrests hr) hr hnum hrequests hsends ?_
  exact Option.eq_none_iff_forall_not_mem.2 fun k hk => hgone (hown k hk ▸ hk)

/-! ### A port that is used again -/

/-- A connection is finished by the device and forgotten; its stream is the first. -/
def finishing : List Act :=
  serving.take 5

/-- What the user of that stream sends then. -/
def refusing : List Act :=
  finishing ++ [.write 0 [9]]

/-- The same, but another connection gets the port first. -/
def reusing : List Act :=
  finishing ++ [.world ((Stack.replies.take 1).flatMap Ends.sample.packet) .silent none,
    .connect 80 [0] 7, .turn .atRequests, .write 0 [9]]

/-- Bytes are queued on a connection before the session, in which there is another one. -/
def queueing : List Act :=
  [.world (Ends.sample.packet { Stack.reply 0xfffffffe { syn := true, ack := true } [] 56191 with
      destination := 49153 }) .silent none,
    .connect 80 [1] 7, .turn .atRequests, .write 0 [9]]

theorem refusing_sends :
    (run Ends.sample [] refusing).board.streams[0]? = some
      { port := 49152, inbox := [.ok [1, 2, 3], .ok []], isFed := false, writes := [1] } ∧
    (run Ends.sample [] refusing).owners = [0] ∧
    (run Ends.sample [] refusing).board.isRunning = true ∧
    (run Ends.sample [] refusing).board.requests = [(1, .send 49152 [9])] ∧
    (run Ends.sample [] refusing).board.stack.ledger.holder 49152 = none := by
  refine ⟨?_, ?_, ?_, ?_, ?_⟩
  all_goals cbv

theorem outcome_refusing :
    (run Ends.sample [] refusing).board.stack.ledger.holder 49152 = none ∧
      (outcome 1).Ends ((run Ends.sample [] refusing).step (.turn .atRequests)).board
        (fun _ _ => False) (fun h _ => h = .failed (.bare .notConnected)) := by
  obtain ⟨hs, ho, hr, hrequests, hnone⟩ := refusing_sends
  refine ⟨hnone, ?_⟩
  generalize hw : run Ends.sample [] refusing = w at *
  obtain ⟨-, -, -, hserve⟩ :=
    isolated_of_holder_le hw.symm (fun _ _ hl => nomatch hl) hs (ho ▸ rfl : w.owners[0]? = some 0)
  obtain ⟨-, hgone⟩ := hserve 1 _ [] hr hrequests (.inr ⟨[9], rfl⟩)
    fun k hk => nomatch hnone.symm.trans hk
  exact (hgone fun h => nomatch hnone.symm.trans h).2.2 [9] rfl

/-- Streams are not isolated in each case: once the switchboard has stopped, a write for a
connection that is gone does not fail as it is not connected; once the port has another
connection, it reaches that one; and it takes along what was queued before the session. -/
theorem not_isolated :
    (Stream.write 0 [9]).Ends
      (run Ends.sample [] (finishing ++ [.shutdown, .turn .atRequests])).board
      (fun _ _ => False) (fun h _ => h = .failed closed ∧ closed ≠ .bare .notConnected) ∧
    ((run Ends.sample [] reusing).owners = [0, 1] ∧
      (run Ends.sample [] reusing).board.stack.ledger.accounts.map Account.carried = [[], []] ∧
      ((run Ends.sample [] reusing).step
        (.turn .atRequests)).board.stack.ledger.accounts.map Account.carried = [[], [9]]) ∧
    (run Ends.sample (Stack.hearing.take 2 ++ [.queue 49152 [5]]) queueing).owners = [1] ∧
      (run Ends.sample (Stack.hearing.take 2 ++ [.queue 49152 [5]])
        queueing).board.stack.ledger.accounts.map Account.carried = [[], []] ∧
      ((run Ends.sample (Stack.hearing.take 2 ++ [.queue 49152 [5]]) queueing).step
        (.turn .atRequests)).board.stack.ledger.accounts.map Account.carried = [[5], [9]] := by
  refine ⟨?_, ⟨?_, ?_, ?_⟩, ?_, ?_, ?_⟩
  case refine_1 =>
    cbv
    intro h
    cases h
  all_goals cbv

end Session

end Tether.Tunnel
