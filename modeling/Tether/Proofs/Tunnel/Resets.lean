import Tether.Proofs.Tunnel.Lifecycle
import Tether.Proofs.Tunnel.Sending
import Tether.Proofs.Tunnel.Stopping

/-!
# What is sent after a reset

A connection that is over is silent: what still comes for it is not acknowledged, and nothing can
be queued on it. But bytes that were queued before are kept, and a flush sends them, whatever the
status of the connection is. So the device, once it has reset a connection, may still be sent what
was pending then.

* `Account.Lingers`: an account before and after such bytes are sent;
* `sent_act`: of all calls, only a flush, and closing a connection that the device has finished,
  send anything for a connection that is over;
* `lingers_of_reset`: what is sent after a reset.
-/

namespace Tether.Tunnel

open Net Call

/-! ## Accounts -/

namespace Account

variable {a b : Account} {e : Event} {size : Nat} {xs : List Segment}

/-- The device has refused the connection, or has reset it. -/
def IsReset (a : Account) : Prop :=
  a.heard.status = .ended .connectionRefused ∨ a.heard.status = .ended .connectionReset

/-- A reset resets a connection, unless the device has finished it. -/
theorem IsReset.arrived {x : Segment} (h : a.heard.status ≠ .ended .unexpectedEof)
    (hx : x.control.rst = true) : (a.note (.arrived x)).IsReset := by
  rw [IsReset, heard_note_arrived]
  rcases (Stack.leads_heard a).of_connecting with hs | hs | hs | hs | hs
  · left
    simp [Link.accept, hs, hx]
  · right
    simp [Link.accept, hs, hx]
  · right
    rw [Link.accept_ended hs, hs]
  · exact absurd hs h
  · left
    rw [Link.accept_ended hs, hs]

/-- A connection that was reset, and later, when these segments have been sent on it. They carry
bytes that were pending, in their order; of these, what is not sent and not pending any more was
dropped. -/
structure Lingers (a b : Account) (xs : List Segment) : Prop where
  heard : b.heard = a.heard
  sent : b.sent = a.sent ++ xs
  carrying : ∀ x ∈ xs, x.control = Link.carrying ∧ x.payload ≠ []
  pending : xs.flatMap Segment.payload ++ b.pending <+: a.pending

theorem Lingers.refl (a : Account) : a.Lingers a [] :=
  ⟨rfl, (List.append_nil _).symm, nofun, List.prefix_rfl⟩

/-- Nothing is sent if nothing was pending. -/
theorem Lingers.eq_nil (h : a.Lingers b xs) (ha : a.pending = []) : xs = [] := by
  have hnil := List.prefix_nil.1 (ha ▸ h.pending)
  refine List.eq_nil_iff_forall_not_mem.2 fun x hx => (h.carrying x hx).2 ?_
  exact List.flatMap_eq_nil_iff.1 (List.append_eq_nil_iff.1 hnil).1 x hx

/-- The only segments that may be sent on such a connection carry pending bytes. -/
theorem IsReset.sends (h : a.IsReset) {x : Segment} (hx : a.Sends size x) :
    a.pending ≠ [] ∧ x = a.segment Link.carrying (a.pending.take size) := by
  -- Acknowledgements and farewells are for a connection that the device has met.
  have hmet : ¬ a.IsMet := by
    rintro (hm | hm) <;> rcases h with h | h <;> cases hm.symm.trans h
  cases hx with
  | greeting hs ha =>
    have hheard : a.heard.status = .connecting := by rw [Account.heard, ha]; rfl
    rcases h with h | h <;> cases hheard.symm.trans h
  | acknowledgement ho hm => exact absurd hm hmet
  | farewell ho hm hp => exact absurd hm hmet
  | piece ho hp => exact ⟨hp, rfl⟩

/-- One event after a reset. -/
theorem Lingers.note (h : a.Lingers b xs) (ha : a.IsReset) (hsize : 0 < size)
    (hallow : b.Allows size e) : ∃ ys, a.Lingers (b.note e) ys := by
  have hb : b.IsReset := by rwa [IsReset, h.heard]
  cases e with
  | arrived y =>
    refine ⟨xs, ?_, h.sent, h.carrying, h.pending⟩
    rw [heard_note_arrived]
    rcases hb with hs | hs <;> rw [Link.accept_ended hs, h.heard]
  | queued port bytes => rcases hb with hs | hs <;> cases hallow.1.symm.trans hs
  | sent x =>
    obtain ⟨hp, rfl⟩ := hb.sends hallow
    refine ⟨xs ++ [b.segment Link.carrying (b.pending.take size)], h.heard, ?_, fun y hy => ?_, ?_⟩
    · rw [Account.note, h.sent, List.append_assoc]
    · rcases List.mem_append.1 hy with hy | hy
      · exact h.carrying y hy
      · rw [List.mem_singleton.1 hy]
        refine ⟨rfl, fun hnil => ?_⟩
        rcases List.take_eq_nil_iff.1 hnil with hzero | hnil
        · exact absurd hzero (Nat.ne_of_gt hsize)
        · exact hp hnil
    · have htake := List.prefix_iff_eq_append.1 (List.take_prefix size b.pending)
      rw [List.flatMap_append, List.append_assoc, List.flatMap_singleton, Account.note]
      exact htake.symm ▸ h.pending
  | lost x =>
    refine ⟨xs, h.heard, h.sent, h.carrying, List.IsPrefix.trans ?_ h.pending⟩
    rw [Account.note, List.prefix_append_right_inj]
    split
    · exact List.prefix_rfl
    · exact List.nil_prefix
  | _ => exact ⟨xs, h.heard, h.sent, h.carrying, h.pending⟩

theorem sent_note (a : Account) (h : e.isPost = false) : (a.note e).sent = a.sent := by
  cases e <;> first | rfl | cases h

end Account

/-- Events that send nothing from its port leave what was sent on a connection as it is. -/
theorem Ledger.sent_append {es j : Journal} {n : Nat} {a : Account}
    (ha : (ofJournal j).accounts[n]? = some a) (hes : ∀ e ∈ es, ¬ Stack.PostsOf a.port e) :
    ∃ b : Account, (ofJournal (es ++ j)).accounts[n]? = some b ∧ b.port = a.port ∧
      b.sent = a.sent := by
  induction es with
  | nil => exact ⟨a, ha, rfl, rfl⟩
  | cons e es ih =>
    obtain ⟨b, hb, hport, hsent⟩ := ih fun e he => hes e (List.mem_cons_of_mem _ he)
    rw [List.cons_append, ofJournal, getElem?_note hb]
    refine ⟨_, rfl, ?_⟩
    split
    · next hn =>
      refine ⟨(Account.port_note b e).trans hport, ?_⟩
      obtain ⟨c, hc, hp⟩ := sound_ofJournal _ _ _ hn
      obtain rfl := Option.some.inj (hb.symm.trans hc)
      rw [Account.sent_note, hsent]
      cases hpost : e.isPost with
      | false => rfl
      | true => exact absurd ⟨hpost, hp.symm.trans hport⟩ (hes e List.mem_cons_self)
    · exact ⟨hport, hsent⟩

/-! ## Calls -/

namespace Stack

variable {s t : Stack} {port p : UInt16} {α : Type}

/-- The connection of a port is over. -/
def IsOver (port : UInt16) (s : Stack) : Prop :=
  ∃ l fault, s.links.get? port = some l ∧ l.status = .ended fault

/-- A connection that is over stays so, and nothing is sent on it. -/
def Silent (port : UInt16) (s t : Stack) : Prop :=
  s.IsOver port → t.IsOver port ∧ ∃ es, t.journal = es ++ s.journal ∧ ∀ e ∈ es, ¬ PostsOf port e

instance : IsPreorder Stack (Silent port) where
  refl _ h := ⟨h, [], rfl, List.forall_mem_nil _⟩
  trans := by
    intro s t u h h' hover
    obtain ⟨hover, es, hj, hes⟩ := h hover
    obtain ⟨hover, es', hj', hes'⟩ := h' hover
    refine ⟨hover, es' ++ es, by rw [hj', hj, List.append_assoc], fun e he => ?_⟩
    exact (List.mem_append.1 he).elim (hes' e) (hes e)

theorem Ages.isOver (h : Ages s t) (hover : s.IsOver port) : t.IsOver port := by
  obtain ⟨l, fault, hl, hs⟩ := hover
  have hages := h port
  rw [hl] at hages
  obtain ⟨l', hl', hages⟩ := hages
  exact ⟨l', fault, hl', Link.Status.Leads.of_ended (hs ▸ hages.leads)⟩

theorem silent_of_ages {P : Event → Prop} {c : Call TunnelError Stack α} (hc : Respects Ages c)
    (hg : Respects (Grows P) c) (hP : ∀ e, P e → ¬ PostsOf port e) : Respects (Silent port) c := by
  refine fun s => ((hc s).and (hg s)).mono (fun _ t ht hover => ?_) fun _ t ht hover => ?_
  all_goals
    obtain ⟨es, hj, hes, -⟩ := ht.2.events
    exact ⟨ht.1.isOver hover, es, hj, fun e he => hP e (hes e he)⟩

/-- What happens at another port. -/
theorem silent_of_apart {P : Event → Prop} {c : Call TunnelError Stack α}
    (hc : Respects (Apart p) c) (hg : Respects (Grows P) c) (hP : ∀ e, P e → e.port = p)
    (hp : port ≠ p) : Respects (Silent port) c := by
  refine fun s => ((hc s).and (hg s)).mono (fun _ t ht hover => ?_) fun _ t ht hover => ?_
  all_goals
    obtain ⟨es, hj, hes, -⟩ := ht.2.events
    obtain ⟨l, fault, hl, hs⟩ := hover
    refine ⟨⟨l, fault, (ht.1 port hp).trans hl, hs⟩, es, hj, fun e he hpost => hp ?_⟩
    exact hpost.2.symm.trans (hP e (hes e he))

/-- What comes for a connection that is over is not acknowledged. -/
theorem silent_accept (x : Segment) : Respects (Silent port) (accept x) := by
  by_cases hp : port = x.destination
  · subst hp
    refine fun s => Ends.imp fun ⟨l, fault, hl, hs⟩ => ?_
    unfold accept
    rw [ends_bind, ends_get, hl]
    dsimp only
    split
    · unfold record setLink
      rw [ends_bind, ends_modify, ends_bind, ends_modify, Link.accept_ended hs]
      refine ⟨⟨l, fault, Table.get?_update_self hl, hs⟩, [.arrived x], rfl, fun e he hpost => ?_⟩
      rw [List.mem_singleton.1 he] at hpost
      cases hpost.1
    · exact ⟨⟨l, fault, hl, hs⟩, [], rfl, List.forall_mem_nil _⟩
  · -- What may be sent is an acknowledgement of the other connection.
    have hg : Respects (Grows fun e => e.port = x.destination) (accept x) :=
      grows_accept_of rfl fun _ hy _ => ⟨hy, hy⟩
    exact silent_of_ages (ages_accept x) hg fun _ he hpost => hp (hpost.2.symm.trans he)

theorem silent_handlePackets (fuel : Nat) : Respects (Silent port) (handlePackets fuel) := by
  induction fuel with
  | zero => exact .pure _
  | succ fuel ih =>
    refine Respects.get.bind fun s => ?_
    dsimp only
    split
    · exact .pure _
    · exact Respects.bind (fun _ hover => ⟨hover, [], rfl, List.forall_mem_nil _⟩) fun _ => .fail _
    · refine Respects.bind (fun _ hover => ⟨hover, [], rfl, List.forall_mem_nil _⟩) fun _ =>
        Respects.bind (fun _ hover => ⟨hover, [], rfl, List.forall_mem_nil _⟩) fun _ =>
          Respects.bind (Respects.get.bind fun s => ?_) fun _ => ih
      split
      · exact silent_accept _
      · exact .pure _

theorem silent_handleBuffered : Respects (Silent port) handleBuffered :=
  Respects.get.bind fun _ => silent_handlePackets _

theorem silent_process : Respects (Silent port) process :=
  (silent_of_ages (P := fun _ => False) ages_fill grows_fill fun _ => False.elim).bind fun _ =>
    silent_handleBuffered

theorem silent_linkAt (p : UInt16) : Respects (Silent port) (linkAt p) :=
  silent_of_ages (P := fun _ => False) (ages_linkAt p) (grows_linkAt p) fun _ => False.elim

theorem silent_awaitAnswer (p : UInt16) (fuel : Nat) :
    Respects (Silent port) (awaitAnswer p fuel) := by
  induction fuel with
  | zero => exact .throw _
  | succ fuel ih =>
    refine (silent_linkAt p).bind fun link => ?_
    cases link.status with
    | connecting => exact silent_process.bind fun _ => ih
    | connected => exact .pure _
    | ended fault => exact .fail _

theorem silent_forget (hp : port ≠ p) : Respects (Silent port) (forget p) :=
  silent_of_apart (apart_forget p) (grows_forget (P := fun e => e.port = p) rfl) (fun _ => id) hp

/-- A connection at another port is made, or given up. -/
theorem silent_greet_or_forget (hp : port ≠ p) :
    Respects (Silent port) (do
      let answer : Except TunnelError Unit ← Call.attempt (greet p)
      match answer with
      | .ok () => return p
      | .error e =>
        forget p
        Call.fail e : Call TunnelError Stack UInt16) := by
  have hgreet : Respects (Silent port) (greet p) :=
    (silent_of_ages (ages_transmit p _ _) (grows_transmit p _ _) fun _ he hpost =>
      hp (hpost.2.symm.trans he.2)).bind fun _ =>
        (Respects.get.bind fun _ => silent_awaitAnswer p _).within
  refine hgreet.attempt.bind fun answer => ?_
  cases answer with
  | ok _ => exact .pure _
  | error e => exact (silent_forget hp).bind fun _ => .fail _

theorem silent_connect (peerPort : UInt16) (draws : List Draw) (first : UInt32) :
    Respects (Silent port) (connect peerPort draws first) := by
  refine fun s => Ends.imp fun hover => ?_
  unfold connect
  rw [ends_bind, ends_get]
  cases hfree : freePort? s.links draws with
  | none => exact ⟨hover, [], rfl, List.forall_mem_nil _⟩
  | some p =>
    -- The new connection is at another port.
    have hp : port ≠ p := by
      rintro rfl
      obtain ⟨l, -, hl, -⟩ := hover
      cases (get?_freePort? hfree).1.symm.trans hl
    have hinsert : Respects (Silent port) (modify fun s : Stack =>
        { s with links := s.links.insert p { peerPort, sequence := first } } :
        Call TunnelError Stack PUnit) := by
      rintro t ⟨l, fault, hl, hs⟩
      exact ⟨⟨l, fault, (Table.get?_insert_of_ne hp).trans hl, hs⟩, [], rfl,
        List.forall_mem_nil _⟩
    have hopened : Respects (Silent port) (record (.opened p peerPort first)) := by
      refine fun t hover => ⟨hover, [.opened p peerPort first], rfl, fun e he hpost => ?_⟩
      rw [List.mem_singleton.1 he] at hpost
      cases hpost.1
    have hrest := hinsert.bind fun _ => hopened.bind fun _ => silent_greet_or_forget hp
    exact (hrest s).mono (fun _ _ ht => ht hover) fun _ _ ht => ht hover

/-- Closing a connection that says no farewell forgets it, and does nothing else. -/
theorem ends_close_mute {l : Link} (hl : s.links.get? port = some l)
    (hmute : saysFarewell l = false) :
    (close port).Ends s (fun _ t => t.journal = .forgotten port :: s.journal)
      (fun _ _ => False) := by
  unfold close
  rw [ends_bind]
  refine (ends_linkAt hl).mono (fun l' t ht => ?_) fun _ _ => id
  obtain ⟨rfl, rfl⟩ := ht
  rw [ends_bind, ends_attempt, hmute]
  exact rfl

/-- The acts that send nothing for a connection that is over. -/
theorem quiet_act (act : Act) (hover : s.IsOver port) (hflush : act ≠ .flush)
    (hclose : act = .close port → ∀ l, s.links.get? port = some l → saysFarewell l = false) :
    ∃ es, (act.call.state s).journal = es ++ s.journal ∧ ∀ e ∈ es, ¬ PostsOf port e := by
  have of_silent {c : Call TunnelError Stack Unit} (h : Respects (Silent port) c) :
      ∃ es, (c.state s).journal = es ++ s.journal ∧ ∀ e ∈ es, ¬ PostsOf port e :=
    (h.state s hover).2
  have unposted {c : Call TunnelError Stack Unit} {P : Event → Prop} (h : Respects (Grows P) c)
      (hP : ∀ e, P e → e.isPost = false) :
      ∃ es, (c.state s).journal = es ++ s.journal ∧ ∀ e ∈ es, ¬ PostsOf port e := by
    obtain ⟨es, hj, hes, -⟩ := (h.state s).events
    exact ⟨es, hj, fun e he hpost => Bool.noConfusion (hpost.1.symm.trans (hP e (hes e he)))⟩
  cases act with
  | connect peerPort draws first =>
    exact of_silent ((silent_connect peerPort draws first).bind fun _ => .pure _)
  | queue p bytes => exact unposted (grows_queue p bytes) fun _ he => he ▸ rfl
  | flush => exact absurd rfl hflush
  | fill => exact unposted (P := fun _ => False) grows_fill fun _ => False.elim
  | handleBuffered => exact of_silent silent_handleBuffered
  | process => exact of_silent silent_process
  | take p =>
    exact unposted ((grows_take p).bind fun _ => .pure _) fun _ ⟨_, he⟩ => he ▸ rfl
  | status p =>
    exact unposted (P := fun _ => False)
      (((grows_linkAt p).bind fun _ => .pure _).bind fun _ => .pure _) fun _ => False.elim
  | shutdown => exact unposted grows_shutdown fun _ ⟨_, he⟩ => he ▸ rfl
  | startCapture file =>
    exact unposted (P := fun _ => False) (grows_startCapture file) fun _ => False.elim
  | world | tick => exact ⟨[], rfl, List.forall_mem_nil _⟩
  | close p =>
    by_cases hp : port = p
    · subst hp
      obtain ⟨l, fault, hl, -⟩ := hover
      have hjournal := Ends.state ((ends_close_mute hl (hclose rfl l hl)).mono
        (fun _ _ => id) fun _ _ => False.elim)
      refine ⟨[.forgotten port], hjournal, fun e he hpost => ?_⟩
      rw [List.mem_singleton.1 he] at hpost
      cases hpost.1
    · refine of_silent (silent_of_apart (apart_close p) (grows_close p) ?_ hp)
      rintro e (he | rfl)
      · exact he.2
      · rfl

/-- For a connection that is over, only flushing sends anything, and closing if the device has
finished it. -/
theorem sent_act (hk : s.Kept) {n : Nat} {a : Account} {fault : Fault} {act : Act}
    (ha : s.ledger.accounts[n]? = some a) (hs : a.heard.status = .ended fault)
    (hflush : act ≠ .flush) (hclose : act = .close a.port → fault ≠ .unexpectedEof) :
    ∃ b : Account, (act.call.state s).ledger.accounts[n]? = some b ∧ b.sent = a.sent := by
  by_cases hn : s.ledger.holder a.port = some n
  · obtain ⟨l, hl, htells⟩ := hk.exists_link (Ledger.at?_eq_some_iff.2 ⟨n, hn, ha⟩)
    have hl' : l.status = .ended fault := htells.status.trans hs
    obtain ⟨es, hj, hes⟩ := quiet_act act ⟨l, fault, hl, hl'⟩ hflush fun hact l' hl'' => by
      obtain rfl := Option.some.inj (hl.symm.trans hl'')
      simp [saysFarewell, hl', hclose hact]
    obtain ⟨b, hb, -, hsent⟩ := Ledger.sent_append ha hes
    rw [ledger, hj]
    exact ⟨b, hb, hsent⟩
  · -- Nothing is entered any more into the account of a connection that is forgotten.
    have hfree : ∀ p, s.ledger.holder p ≠ some n := by
      intro p hp
      obtain ⟨b, hb, rfl⟩ := Ledger.sound_ofJournal s.journal p n hp
      obtain rfl := Option.some.inj (ha.symm.trans hb)
      exact hn hp
    obtain ⟨es, hj, -⟩ := ((grows_act act).state s).events
    rw [ledger, hj, Ledger.getElem?_append_of_not_held (List.getElem?_eq_some_iff.1 ha).1 hfree]
    exact ⟨a, ha, rfl⟩

/-- What is sent for a connection after a reset, from the moment on at which it comes, in any play:

* if the device had finished the connection, the reset changes nothing;
* otherwise the connection is over as reset, and only bytes that were pending when the reset came
  are sent, in their order, and no other segment; so nothing is sent if none were pending;
* only a flush sends anything, or closing a connection that the device had finished. -/
theorem lingers_of_reset {e : Ends} {acts : List Act} {s : Stack} {x : Segment} {j : Journal}
    (hs : s = play acts (ofEnds e)) (hx : .arrived x :: j <:+ s.journal)
    (hr : x.control.rst = true) :
    ∃ n a b, (Ledger.ofJournal j).holder x.destination = some n ∧
      (Ledger.ofJournal j).accounts[n]? = some a ∧ s.ledger.accounts[n]? = some b ∧
      (a.heard.status = .ended .unexpectedEof → b.heard = a.heard) ∧
      (a.heard.status ≠ .ended .unexpectedEof → b.IsReset ∧
        (∃ xs, (a.note (.arrived x)).Lingers b xs) ∧ (a.pending = [] → b.sent = a.sent)) ∧
      ∀ act : Act, act ≠ .flush → (act = .close x.destination → b.IsReset) →
        ∃ c, (act.call.state s).ledger.accounts[n]? = some c ∧ c.sent = b.sent := by
  have hk : s.Kept := hs ▸ kept_play e acts
  obtain ⟨es, hj⟩ := hx
  have hvalid : Journal.Valid s.segmentSize (es ++ .arrived x :: j) := hj ▸ hk.valid
  obtain ⟨a, hat, -⟩ := (hvalid.of_suffix (List.suffix_append _ _)).1
  obtain ⟨n, hn, ha⟩ := Ledger.at?_eq_some_iff.1 hat
  have harrived : (Ledger.ofJournal (.arrived x :: j)).accounts[n]? =
      some (a.note (.arrived x)) := by
    rw [Ledger.ofJournal, Ledger.getElem?_note ha, if_pos hn]
  obtain ⟨b, hb, hprecedes, -⟩ := Ledger.exists_precedes harrived es
  have hb' : s.ledger.accounts[n]? = some b := by rw [ledger, ← hj]; exact hb
  have hport : b.port = x.destination := by
    obtain ⟨c, hc, hp⟩ := Ledger.sound_ofJournal j _ _ hn
    obtain rfl := Option.some.inj (ha.symm.trans hc)
    exact hprecedes.port.trans ((Account.port_note a _).trans hp)
  -- The status of a connection that is over never changes, so a reset comes too late.
  have hfinished (hs : a.heard.status = .ended .unexpectedEof) : b.heard = a.heard := by
    have hheard : (a.note (.arrived x)).heard = a.heard := by
      rw [Account.heard_note_arrived, Link.accept_ended hs]
    exact (hprecedes.ended _ (hheard.symm ▸ hs)).trans hheard
  have hreset (hs : a.heard.status ≠ .ended .unexpectedEof) :
      b.IsReset ∧ ∃ xs, (a.note (.arrived x)).Lingers b xs := by
    have hreset := Account.IsReset.arrived hs hr
    -- From the reset on, each event that the journal has room for keeps `Lingers`.
    obtain ⟨xs, hlingers⟩ := hvalid.extend
      (Q := fun c => ∃ xs, (a.note (.arrived x)).Lingers c xs)
      (fun hnone => by cases harrived.symm.trans hnone)
      (fun c _ _ hc hallow => hc.elim fun _ hc => hc.note hreset hk.sized hallow)
      (fun c hc => Option.some.inj (harrived.symm.trans hc) ▸ ⟨[], .refl _⟩) hb
    exact ⟨by rwa [Account.IsReset, hlingers.heard], xs, hlingers⟩
  refine ⟨n, a, b, hn, ha, hb', hfinished, fun hs => ?_, fun act hflush hclose => ?_⟩
  · obtain ⟨hb, xs, hlingers⟩ := hreset hs
    refine ⟨hb, ⟨xs, hlingers⟩, fun hnil => ?_⟩
    rw [hlingers.sent, hlingers.eq_nil hnil]
    exact List.append_nil _
  · by_cases hs : a.heard.status = .ended .unexpectedEof
    · have hs' : b.heard.status = .ended .unexpectedEof := hfinished hs ▸ hs
      refine sent_act hk hb' hs' hflush fun hact => ?_
      rcases hclose (hport ▸ hact) with h | h <;> cases hs'.symm.trans h
    · rcases (hreset hs).1 with h | h
      · exact sent_act hk hb' h hflush fun _ => by simp
      · exact sent_act hk hb' h hflush fun _ => by simp

/-- The segment with which the device resets the connection that it accepted. -/
def resetNotice : Segment :=
  reply 1 { rst := true } [] 56204

/-- Bytes are queued on a connection, the device resets it, and they are flushed. -/
def resetting : List Act :=
  [.world (Ends.sample.packet acceptance) .silent none, .connect 80 [0] 7, .queue 49152 [1, 2, 3],
    .world (Ends.sample.packet resetNotice) .silent none, .process, .flush]

theorem journal_resetting :
    (play resetting (ofEnds Ends.sample)).journal = .sent
      { source := 49152, destination := 80, sequence := 8, acknowledgement := 1,
        control := Link.carrying, window := Link.window, payload := [1, 2, 3] } ::
      .arrived resetNotice :: (play resetting (ofEnds Ends.sample)).journal.drop 2 := by
  cbv

/-- A segment with bytes is sent on a connection that the device has reset. -/
theorem sent_resetting :
    ∃ x y j, (play resetting (ofEnds Ends.sample)).journal = .sent y :: .arrived x :: j ∧
      x.control.rst = true ∧ y.source = x.destination ∧ y.payload = [1, 2, 3] :=
  ⟨resetNotice, _, _, journal_resetting, rfl, rfl, rfl⟩

/-- The bytes were pending when the reset came. -/
theorem lingers_resetting :
    .arrived resetNotice :: (play resetting (ofEnds Ends.sample)).journal.drop 2 <:+
        (play resetting (ofEnds Ends.sample)).journal ∧ resetNotice.control.rst = true ∧
      ∃ (n : Nat) (a b : Account),
        (play resetting (ofEnds Ends.sample)).ledger.accounts[n]? = some b ∧
          b.IsReset ∧ ∃ xs, a.Lingers b xs := by
  have hx : .arrived resetNotice :: (play resetting (ofEnds Ends.sample)).journal.drop 2 <:+
      (play resetting (ofEnds Ends.sample)).journal := by
    conv_rhs => rw [journal_resetting]
    exact List.suffix_cons _ _
  have hbefore :
      ((Ledger.ofJournal ((play resetting (ofEnds Ends.sample)).journal.drop 2)).accounts.map
        fun a => a.heard.status) = [.connected] := by
    cbv
  obtain ⟨n, a, b, hn, ha, hb, -, hreset, -⟩ := lingers_of_reset rfl hx rfl
  have hmem := List.mem_map_of_mem (f := fun a : Account => a.heard.status)
    (List.mem_of_getElem? ha)
  rw [hbefore] at hmem
  obtain ⟨hb', ⟨xs, hxs⟩, -⟩ := hreset (by simp [List.mem_singleton.1 hmem])
  exact ⟨hx, rfl, n, _, b, hb, hb', xs, hxs⟩

end Stack

end Tether.Tunnel
