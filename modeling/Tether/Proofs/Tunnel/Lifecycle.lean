import Tether.Proofs.Tunnel.Idle
import Tether.Proofs.Tunnel.Receiving

/-!
# The life of a connection

An entry of the table is made by a connect at a port that is not in use, and stays until its port
is closed or the stack is shut down. In between only its status moves, and only forward: it is
accepted or refused, and an accepted connection is finished or reset by the device. Whatever else
fails, no entry is lost or replaced, and none is left behind.

* `Link.Status.Moves`: the moves there are, one for a segment;
* `Stack.Ages`: the same entries, each as far or further; all calls but three respect it;
* `Stack.ends_connect_entry`, `Stack.ends_close_entry`: the two that make and remove one entry;
* `Stack.ages_run`: an entry over a whole run;
* `Stack.lifecycle`: all of this, for every stack that can be reached.
-/

namespace Tether.Tunnel

open Net

/-! ## Statuses -/

namespace Link

/-- What a segment may do to the status of a connection. -/
inductive Status.Moves : Status → Status → Prop where
  | accepted : Moves .connecting .connected
  | refused : Moves .connecting (.ended .connectionRefused)
  | reset : Moves .connected (.ended .connectionReset)
  | finished : Moves .connected (.ended .unexpectedEof)

/-- One status comes of another, by any number of moves. -/
abbrev Status.Leads : Status → Status → Prop :=
  Relation.ReflTransGen Status.Moves

variable {l l' l'' : Link}

/-- A connection that is over stays as it is. -/
theorem Status.Leads.of_ended {fault : Fault} {status : Status}
    (h : Leads (.ended fault) status) : status = .ended fault := by
  rcases Relation.ReflTransGen.cases_head h with h | ⟨_, h, -⟩
  · exact h.symm
  · cases h

/-- The two ways of a connection: it is accepted and may then end, or it is refused. -/
theorem Status.Leads.of_connecting {status : Status} (h : Leads .connecting status) :
    status = .connecting ∨ status = .connected ∨ status = .ended .connectionReset ∨
      status = .ended .unexpectedEof ∨ status = .ended .connectionRefused := by
  induction h with
  | refl => exact .inl rfl
  | tail _ hmove _ => cases hmove <;> simp

/-- A segment makes one move, or none. -/
theorem leads_accept (l : Link) (x : Segment) : Status.Leads l.status (l.accept x).1.status := by
  unfold accept
  cases h : l.status with
  | connecting =>
    dsimp only
    split
    · exact .single .refused
    · split
      · exact .single .accepted
      · rw [h]
  | connected =>
    dsimp only
    split
    · exact .single .reset
    · split
      · rw [h]
      · split
        · exact .single .finished
        · simp only [takeIn, h]
          exact .refl
  | ended fault =>
    dsimp only
    rw [h]

/-- The same connection, as far or further. -/
structure Ages (l l' : Link) : Prop where
  peerPort : l'.peerPort = l.peerPort
  leads : Status.Leads l.status l'.status

theorem Ages.refl (l : Link) : Ages l l :=
  ⟨rfl, .refl⟩

theorem Ages.trans (h : Ages l l') (h' : Ages l' l'') : Ages l l'' :=
  ⟨h'.peerPort.trans h.peerPort, h.leads.trans h'.leads⟩

/-- The same at a port, which may be free. -/
def AgesAt : Option Link → Option Link → Prop
  | none, o => o = none
  | some l, o => ∃ l', o = some l' ∧ Ages l l'

theorem AgesAt.refl (o : Option Link) : AgesAt o o := by
  cases o with
  | none => exact rfl
  | some l => exact ⟨l, rfl, .refl l⟩

theorem AgesAt.trans {o o' o'' : Option Link} (h : AgesAt o o') (h' : AgesAt o' o'') :
    AgesAt o o'' := by
  cases o with
  | none =>
    obtain rfl : o' = none := h
    exact h'
  | some l =>
    obtain ⟨l', rfl, hl⟩ := h
    obtain ⟨l'', rfl, hl'⟩ := h'
    exact ⟨l'', rfl, hl.trans hl'⟩

end Link

namespace Stack

open Call Link

variable {s t : Stack} {p q port : UInt16} {l l' : Link} {α : Type}

/-! ## Calls that neither make nor remove an entry -/

/-- The entries are the same, each as far or further. -/
def Ages (s t : Stack) : Prop :=
  ∀ p, AgesAt (s.links.get? p) (t.links.get? p)

instance isPreorder_ages : IsPreorder Stack Ages where
  refl _ _ := .refl _
  trans _ _ _ h h' p := (h p).trans (h' p)

theorem Ages.of_eq (h : t.links = s.links) : Ages s t :=
  fun p => h ▸ .refl (s.links.get? p)

theorem Ages.update (hl : s.links.get? p = some l) (hlinks : t.links = s.links.update p l')
    (h : Link.Ages l l') : Ages s t := by
  intro q
  rw [hlinks, Table.get?_update]
  split
  · next hq =>
    rw [hq, hl]
    exact ⟨l', rfl, h⟩
  · exact .refl _

theorem ages_linkAt (port : UInt16) : Respects Ages (linkAt port) :=
  Respects.get.bind fun _ => .ofOption _

/-- What is done with the link of a port may depend on the link being there. -/
theorem ages_linkAt_bind {f : Link → Call TunnelError Stack α}
    (hf : ∀ s l, s.links.get? port = some l →
      (f l).Ends s (fun _ t => Ages s t) (fun _ t => Ages s t)) :
    Respects Ages (linkAt port >>= f) := by
  intro s
  rw [ends_bind]
  cases hl : s.links.get? port with
  | none =>
    refine (ends_linkAt_none hl).mono (fun _ _ => False.elim) ?_
    rintro _ t ⟨-, rfl⟩
    exact refl_of Ages t
  | some l =>
    refine (ends_linkAt hl).mono ?_ fun _ _ => False.elim
    rintro _ t ⟨rfl, rfl⟩
    exact hf t _ hl

theorem ages_transmit (port : UInt16) (control : Control) (payload : Bytes) :
    Respects Ages (transmit port control payload) := by
  intro s
  cases hl : s.links.get? port with
  | none =>
    unfold transmit
    rw [ends_bind]
    refine (ends_linkAt_none hl).mono (fun _ _ => False.elim) ?_
    rintro _ t ⟨-, rfl⟩
    exact refl_of Ages t
  | some l =>
    refine (ends_transmit hl control payload).mono ?_ ?_
    · rintro _ _ ⟨_, _, _, -, -, rfl⟩
      exact .of_eq rfl
    · rintro _ _ ⟨-, _, _, rfl⟩
      exact .of_eq rfl

theorem ages_accept (x : Segment) : Respects Ages (accept x) := by
  intro s
  rw [accept, ends_bind, ends_get]
  cases hl : s.links.get? x.destination with
  | none => exact refl_of Ages s
  | some l =>
    dsimp only
    split
    · rw [record, setLink, ends_bind, ends_modify, ends_bind, ends_modify]
      have hages : Ages s
          { s with
            links := s.links.update x.destination (l.accept x).1
            journal := .arrived x :: s.journal } :=
        .update hl rfl ⟨peerPort_accept l x, leads_accept l x⟩
      split
      · refine (ages_transmit x.destination acknowledgement [] _).mono ?_ ?_
        · exact fun _ _ ht => trans_of Ages hages ht
        · exact fun _ _ ht => trans_of Ages hages ht
      · exact hages
    · exact refl_of Ages s

theorem ages_acceptPacket (packet : IpPacket) : Respects Ages (acceptPacket packet) := by
  refine Respects.get.bind fun s => ?_
  cases s.segmentOf? packet with
  | none => exact .pure _
  | some x => exact ages_accept x

theorem ages_handlePackets (fuel : Nat) : Respects Ages (handlePackets fuel) := by
  induction fuel with
  | zero => exact .pure _
  | succ fuel ih =>
    refine Respects.get.bind fun s => ?_
    dsimp only
    split
    · exact .pure _
    · exact Respects.bind (fun _ => .of_eq rfl) fun _ => .fail _
    · exact Respects.bind (fun _ => .of_eq rfl) fun _ =>
        Respects.bind (fun _ => .of_eq rfl) fun _ => (ages_acceptPacket _).bind fun _ => ih

theorem ages_onTransport (c : Call Fault Transport α) : Respects Ages (onTransport c) :=
  (Respects.top c).zoom fun _ _ _ => .of_eq rfl

theorem ages_fill : Respects Ages fill := by
  refine (ages_onTransport _).bind fun bs => ?_
  dsimp only
  split
  · exact (Respects.fail _).bind fun _ => fun _ => .of_eq rfl
  · exact fun _ => .of_eq rfl

theorem ages_handleBuffered : Respects Ages handleBuffered :=
  Respects.get.bind fun _ => ages_handlePackets _

theorem ages_process : Respects Ages process :=
  ages_fill.bind fun _ => ages_handleBuffered

theorem ages_awaitAnswer (port : UInt16) (fuel : Nat) : Respects Ages (awaitAnswer port fuel) := by
  induction fuel with
  | zero => exact .throw _
  | succ fuel ih =>
    refine (ages_linkAt port).bind fun l => ?_
    cases l.status with
    | connecting => exact ages_process.bind fun _ => ih
    | connected => exact .pure _
    | ended fault => exact .fail _

theorem ages_greet (port : UInt16) : Respects Ages (greet port) :=
  (ages_transmit port _ _).bind fun _ =>
    (Respects.get.bind fun _ => ages_awaitAnswer port _).within

theorem ages_queue (port : UInt16) (bytes : Bytes) : Respects Ages (queue port bytes) := by
  refine ages_linkAt_bind fun s l hl => ?_
  cases hs : l.status with
  | connected => exact .update hl rfl ⟨rfl, by rw [hs]⟩
  | connecting => exact refl_of Ages s
  | ended fault => exact refl_of Ages s

theorem ages_sendPiece (port : UInt16) (piece : Bytes) : Respects Ages (sendPiece port piece) :=
  (ages_transmit port _ _).bind fun _ => ages_linkAt_bind fun _ _ hl => .update hl rfl ⟨rfl, .refl⟩

theorem ages_flushLink (port : UInt16) : Respects Ages (flushLink port) := by
  refine ages_linkAt_bind fun s l hl => ?_
  have hemptied : Ages s { s with links := s.links.update port { l with queued := [] } } :=
    .update hl rfl ⟨rfl, .refl⟩
  rw [ends_bind, setLink, ends_modify, ends_bind, ends_get]
  refine (Respects.forM (fun piece _ => ages_sendPiece port piece) _).mono ?_ ?_
  · exact fun _ _ ht => trans_of Ages hemptied ht
  · exact fun _ _ ht => trans_of Ages hemptied ht

theorem ages_flush : Respects Ages flush :=
  Respects.get.bind fun _ => .forM fun port _ => ages_flushLink port

theorem ages_take (port : UInt16) : Respects Ages (take port) :=
  ages_linkAt_bind fun _ _ hl => .update hl rfl ⟨rfl, .refl⟩

/-! ## The calls that do -/

/-- The entries of all other ports are the same, each as far or further. -/
def AgesBut (port : UInt16) (s t : Stack) : Prop :=
  ∀ q, q ≠ port → AgesAt (s.links.get? q) (t.links.get? q)

theorem prompt_greet (port : UInt16) : Prompt (greet port) := by
  refine (prompt_transmit port _ _).bind fun _ s => ?_
  rw [ends_within]
  refine (Respects.top _ s).mono (fun _ _ _ => trivial) fun h _ _ => ?_
  cases h <;> exact nofun

/-- An entry that a connect leaves is new and connected. One that fails leaves none. -/
theorem ends_connect_entry (peerPort : UInt16) (draws : List Draw) (first : UInt32) (s : Stack) :
    (connect peerPort draws first).Ends s
      (fun port t => s.links.get? port = none ∧ 49152 ≤ port.toNat ∧
        (∃ l, t.links.get? port = some l ∧ l.peerPort = peerPort ∧ l.status = .connected) ∧
        AgesBut port s t)
      (fun _ t => Ages s t) := by
  rw [connect, ends_bind, ends_get]
  cases hfree : freePort? s.links draws with
  | none => exact refl_of Ages s
  | some port =>
    obtain ⟨hport, hhigh⟩ := get?_freePort? hfree
    dsimp only
    rw [record, ends_bind, ends_modify, ends_bind, ends_modify, ends_bind, ends_attempt]
    generalize hu : ({ s with
      links := s.links.insert port { peerPort, sequence := first }
      journal := .opened port peerPort first :: s.journal } : Stack) = u
    have hlink (q : UInt16) : u.links.get? q =
        if q = port then some { peerPort, sequence := first } else s.links.get? q := by
      rw [← hu]
      exact Table.get?_insert _ _ _ _ hport
    have hbut {t : Stack} (ht : Ages u t) : AgesBut port s t := by
      intro q hq
      have hq' := ht q
      rwa [hlink q, if_neg hq] at hq'
    have hgreet : (greet port).Ends u
        (fun _ t => Ages u t ∧ ∃ l, t.links.get? port = some l ∧ l.status = .connected)
        (fun h t => Ages u t ∧ h ≠ .waiting) := by
      have hconnected : (greet port).Ends u
          (fun _ t => ∃ l, t.links.get? port = some l ∧ l.status = .connected)
          (fun _ _ => True) := by
        rw [greet, ends_bind]
        refine (Respects.top _ u).mono (fun _ v _ => ?_) fun _ _ _ => trivial
        rw [ends_within, ends_bind, ends_get]
        exact (ends_awaitAnswer port _ v).mono (fun _ _ h => h) fun h _ _ => by cases h <;> trivial
      exact ((ages_greet port u).and (hconnected.and (prompt_greet port u))).mono
        (fun _ _ h => ⟨h.1, h.2.1⟩) fun _ _ h => ⟨h.1, h.2.2⟩
    refine hgreet.mono ?_ ?_
    · rintro _ t ⟨ht, l, hl, hstatus⟩
      refine ⟨hport, hhigh, ⟨l, hl, ?_, hstatus⟩, hbut ht⟩
      have hp := ht port
      rw [hlink port, if_pos rfl, hl] at hp
      obtain ⟨l', hl', hages⟩ := hp
      obtain rfl := Option.some.inj hl'
      exact hages.peerPort
    · rintro h t ⟨ht, hne⟩
      cases h with
      | waiting => exact absurd rfl hne
      | failed e =>
        -- The entry that was made for the connect is forgotten again.
        show Ages s { t with links := t.links.erase port, journal := .forgotten port :: t.journal }
        intro q
        rw [Table.get?_erase]
        split
        · next hq =>
          rw [hq, hport]
          exact rfl
        · next hq => exact hbut ht q hq

/-- A connection is forgotten whether closing it succeeds or not, and no other one is touched. -/
theorem ends_close_entry (port : UInt16) (s : Stack) :
    (close port).Ends s (fun _ t => t.links.get? port = none ∧ Apart port s t)
      (fun _ t => t.links.get? port = none ∧ Apart port s t) := by
  have hgone : (close port).Ends s (fun _ t => t.links.get? port = none)
      (fun _ t => t.links.get? port = none) := by
    cases hl : s.links.get? port with
    | none =>
      refine (ends_close_none hl).mono (fun _ _ => False.elim) ?_
      rintro _ t ⟨-, rfl⟩
      exact hl
    | some l =>
      have hprompt : Prompt (do
          if saysFarewell l then
            flushLink port
            transmit port farewell []) := by
        split
        · exact (prompt_flushLink port).bind fun _ => prompt_transmit port _ _
        · exact .pure _
      rw [close, ends_bind]
      refine (ends_linkAt hl).mono ?_ fun _ _ => False.elim
      rintro _ t ⟨rfl, rfl⟩
      rw [ends_bind, ends_attempt]
      have hforget (outcome : Except TunnelError Unit) (u : Stack) :
          (do forget port; Call.ofExcept outcome : Call TunnelError Stack Unit).Ends u
            (fun _ v => v.links.get? port = none) (fun _ v => v.links.get? port = none) := by
        have herase : (u.links.erase port).get? port = none := by rw [Table.get?_erase, if_pos rfl]
        cases outcome <;> exact herase
      refine (hprompt t).mono (fun _ u _ => hforget _ u) fun h u hne => ?_
      cases h with
      | waiting => exact absurd rfl hne
      | failed e => exact hforget (.error e) u
  exact hgone.and (apart_close port s)

/-- The act may remove the entry of a port. -/
def Act.Drops (p : UInt16) : Act → Prop
  | close port => port = p
  | shutdown => True
  | _ => False

/-- An entry that an act drops is gone. -/
theorem Act.gone (a : Act) (s : Stack) {p : UInt16} (h : a.Drops p) :
    (a.call.state s).links.get? p = none := by
  cases a with
  | close port =>
    obtain rfl : port = p := h
    exact (ends_close_entry port s).state.1
  | shutdown =>
    have hkept : Respects (fun s t : Stack => t.links = s.links) (onTransport Transport.shutdown) :=
      (Respects.top _).zoom fun _ _ _ => rfl
    have hempty : Stack.shutdown.Ends s (fun _ t => t.links = []) (fun _ t => t.links = []) :=
      hkept { s with links := [], journal := s.links.ports.map Event.forgotten ++ s.journal }
    rw [Act.call, hempty.state]
    rfl
  | _ => exact h.elim

/-- What an act does to the entry of a port, unless it drops it: the entry is as far or further,
or it is new, made by a connect that returned its port. -/
theorem Act.entry (a : Act) (s : Stack) (p : UInt16) (hdrops : ¬ a.Drops p) :
    AgesAt (s.links.get? p) ((a.call.state s).links.get? p) ∨
      ∃ peerPort draws first, a = .connect peerPort draws first ∧
        (Stack.connect peerPort draws first).result s = .ok p ∧ s.links.get? p = none ∧
          ∃ l, (a.call.state s).links.get? p = some l ∧ l.status = .connected := by
  have hstate {c : Call TunnelError Stack Unit} (hc : Respects Ages c) :
      AgesAt (s.links.get? p) ((c.state s).links.get? p) :=
    hc.state s p
  cases a with
  | queue port bytes => exact .inl (hstate (ages_queue port bytes))
  | flush => exact .inl (hstate ages_flush)
  | fill => exact .inl (hstate ages_fill)
  | handleBuffered => exact .inl (hstate ages_handleBuffered)
  | process => exact .inl (hstate ages_process)
  | take port => exact .inl (hstate ((ages_take port).bind fun _ => .pure _))
  | status port =>
    exact .inl (hstate (((ages_linkAt port).bind fun _ => .pure _).bind fun _ => .pure _))
  | startCapture file =>
    exact .inl (hstate ((Respects.ofExcept _).bind fun _ => fun _ => .of_eq rfl))
  | world unread ending allowance => exact .inl (hstate fun _ => .of_eq rfl)
  | tick clock => exact .inl (hstate fun _ => .of_eq rfl)
  | shutdown => exact absurd trivial hdrops
  | close port =>
    refine .inl ?_
    have hclose := (ends_close_entry port s).state
    rw [Act.call, hclose.2 p fun h => hdrops h.symm]
    exact .refl _
  | connect peerPort draws first =>
    have hconnect := Ends.of_result (P := fun r t =>
      AgesAt (s.links.get? p) (t.links.get? p) ∨ (r = .ok p ∧ s.links.get? p = none ∧
        ∃ l, t.links.get? p = some l ∧ l.status = .connected))
      ((ends_connect_entry peerPort draws first s).mono
        (fun port t ht => by
          obtain ⟨hfree, -, ⟨l, hl, -, hstatus⟩, hbut⟩ := ht
          by_cases hp : p = port
          · subst hp
            exact .inr ⟨rfl, hfree, l, hl, hstatus⟩
          · exact .inl (hbut p hp))
        fun _ t ht => .inl (ht p))
    rw [Act.call, state_drop]
    exact hconnect.imp id fun h => ⟨peerPort, draws, first, rfl, h⟩

/-! ## Over whole runs -/

/-- An entry that no act drops stays, as far or further. -/
theorem ages_run {acts : List Act} (hl : s.links.get? p = some l) (h : ∀ a ∈ acts, ¬ a.Drops p) :
    ∃ l', (play acts s).links.get? p = some l' ∧ l.Ages l' := by
  induction acts generalizing s l with
  | nil => exact ⟨l, hl, .refl l⟩
  | cons a acts ih =>
    rcases a.entry s p (h a List.mem_cons_self) with hages | ⟨_, _, _, -, -, hnone, -⟩
    · rw [hl] at hages
      obtain ⟨l', hl', hll'⟩ := hages
      obtain ⟨l'', hl'', hl'l''⟩ := ih hl' fun b hb => h b (List.mem_cons_of_mem a hb)
      exact ⟨l'', hl'', hll'.trans hl'l''⟩
    · rw [hl] at hnone
      cases hnone

/-- All entries are at high ports. -/
def High (s : Stack) : Prop :=
  ∀ p l, s.links.get? p = some l → 49152 ≤ p.toNat

theorem High.act (h : s.High) (a : Act) : (a.call.state s).High := by
  intro p l hl
  by_cases hdrops : a.Drops p
  · rw [a.gone s hdrops] at hl
    cases hl
  rcases a.entry s p hdrops with hages | ⟨peerPort, draws, first, -, hr, -, -⟩
  · cases hs : s.links.get? p with
    | some l' => exact h p l' hs
    | none =>
      rw [hs, hl] at hages
      cases hages
  · exact Ends.of_result (P := fun r _ => ∀ port, r = .ok port → 49152 ≤ port.toNat)
      ((ends_connect_entry peerPort draws first s).mono
        (fun _ _ h _ hq => Except.ok.inj hq ▸ h.2.1) fun _ _ _ _ => nofun) p hr

theorem high_play (e : Tunnel.Ends) (acts : List Act) : (play acts (ofEnds e)).High := by
  suffices h : ∀ s : Stack, s.High → (play acts s).High from h _ nofun
  induction acts with
  | nil => exact fun _ h => h
  | cons a acts ih => exact fun s h => ih _ (h.act a)

/-! ### Accounts -/

theorem leads_note (a : Account) (e : Event) :
    Status.Leads a.heard.status (a.note e).heard.status := by
  cases e with
  | arrived x =>
    rw [Account.heard_note_arrived]
    exact leads_accept a.heard x
  | _ => exact .refl

theorem leads_heard (a : Account) : Status.Leads .connecting a.heard.status := by
  rw [Account.heard, Link.hear]
  generalize hl : a.fresh = l
  have hfresh : Status.Leads .connecting l.status := hl ▸ .refl
  clear hl
  induction a.arrived generalizing l with
  | nil => exact hfresh
  | cons x xs ih => exact ih _ (hfresh.trans (leads_accept l x))

/-- The status in an account moves as that of an entry, at every event. -/
theorem leads_append {j : Journal} {n : Nat} {a : Account}
    (ha : (Ledger.ofJournal j).accounts[n]? = some a) (es : Journal) :
    ∃ b, (Ledger.ofJournal (es ++ j)).accounts[n]? = some b ∧
      Status.Leads a.heard.status b.heard.status := by
  induction es with
  | nil => exact ⟨a, ha, .refl⟩
  | cons e es ih =>
    obtain ⟨b, hb, hlead⟩ := ih
    rw [List.cons_append, Ledger.ofJournal, Ledger.getElem?_note hb e]
    refine ⟨_, rfl, ?_⟩
    split
    · exact hlead.trans (leads_note b e)
    · exact hlead

/-! ### What holds of the entries of a stack -/

/-- A call that needs the entry of a port fails without one and changes nothing. -/
theorem linkAt_bind_of_none (hl : s.links.get? p = none) (f : Link → Call TunnelError Stack α) :
    (linkAt p >>= f) s = .error (.failed (.bare .notConnected)) s := by
  refine Ends.eq_error ?_
  rw [ends_bind]
  exact (ends_linkAt_none hl).mono (fun _ _ => False.elim) fun _ _ => id

/-- Bytes are queued on a connected entry, and on no other. -/
theorem queue_eq_ok_iff (h : s.Kept) (bytes : Bytes) :
    (queue p bytes).result s = .ok () ↔ ∃ l, s.links.get? p = some l ∧ l.status = .connected := by
  constructor
  · intro hok
    by_contra hnone
    have hfails := Ends.of_result (P := fun r _ => r ≠ .ok ())
      ((ends_queue_of_not (fun l hl hs => hnone ⟨l, hl, hs⟩) bytes).mono
        (fun _ _ => False.elim) fun _ _ _ => nofun)
    exact hfails hok
  · rintro ⟨l, hl, hs⟩
    exact Ends.of_result (P := fun r _ => r = .ok ())
      ((ends_queue h hl hs bytes).mono (fun _ _ _ => rfl) fun _ _ => False.elim)

/-- How the entries of a stack come, change and go. -/
structure Orderly (s : Stack) : Prop where
  high : s.High
  /-- A connect that succeeds makes one entry where there was none; one that fails makes none. -/
  connects : ∀ peerPort draws first, (connect peerPort draws first).Ends s
    (fun p t => s.links.get? p = none ∧
      (∃ l, t.links.get? p = some l ∧ l.peerPort = peerPort ∧ l.status = .connected) ∧
      AgesBut p s t)
    (fun _ t => Ages s t)
  /-- No other act makes one. -/
  begins : ∀ (a : Act) p, s.links.get? p = none → (a.call.state s).links.get? p ≠ none →
    ∃ peerPort draws first, a = .connect peerPort draws first ∧
      (connect peerPort draws first).result s = .ok p
  /-- An entry stays and only ages until its port is closed or the stack is shut down. -/
  stays : ∀ p l acts, s.links.get? p = some l → (∀ a ∈ acts, ¬ a.Drops p) →
    ∃ l', (play acts s).links.get? p = some l' ∧ l.Ages l'
  /-- The status of an entry is that of its account. -/
  told : ∀ p l, s.links.get? p = some l →
    ∃ n a, s.ledger.holder p = some n ∧ s.ledger.accounts[n]? = some a ∧
      l.status = a.heard.status
  /-- An account begins with a connection that is asked for, and its status only moves on,
  between any two of the events. -/
  moves : ∀ (i j : Journal) (n : Nat) (a : Account), i <:+ j → j <:+ s.journal →
    (Ledger.ofJournal i).accounts[n]? = some a →
    Status.Leads .connecting a.heard.status ∧
      ∃ b, (Ledger.ofJournal j).accounts[n]? = some b ∧
        Status.Leads a.heard.status b.heard.status
  queues : ∀ p bytes, (queue p bytes).result s = .ok () ↔
    ∃ l, s.links.get? p = some l ∧ l.status = .connected
  /-- To close a connection removes its entry and no other, whether or not it succeeds. -/
  closes : ∀ p, ((close p).state s).links.get? p = none ∧
    ∀ q, q ≠ p → ((close p).state s).links.get? q = s.links.get? q
  /-- Nothing can be done at a free port. -/
  refuses : ∀ p, s.links.get? p = none →
    (∀ bytes, queue p bytes s = .error (.failed (.bare .notConnected)) s) ∧
    (∀ control payload,
      transmit p control payload s = .error (.failed (.bare .notConnected)) s) ∧
    flushLink p s = .error (.failed (.bare .notConnected)) s ∧
    take p s = .error (.failed (.bare .notConnected)) s ∧
    status p s = .error (.failed (.bare .notConnected)) s ∧
    close p s = .error (.failed (.bare .notConnected)) s

/-- The entries of every stack that can be reached come, change and go in order, whatever fails
on the way. -/
theorem lifecycle (e : Tunnel.Ends) (acts : List Act) : (play acts (ofEnds e)).Orderly where
  high := high_play e acts
  connects peerPort draws first :=
    (ends_connect_entry peerPort draws first _).mono
      (fun _ _ ⟨hfree, _, hentry, hbut⟩ => ⟨hfree, hentry, hbut⟩) fun _ _ => id
  begins a p hnone hsome := by
    by_cases hdrops : a.Drops p
    · exact absurd (a.gone _ hdrops) hsome
    · rcases a.entry _ p hdrops with hages | ⟨peerPort, draws, first, ha, hr, -, -⟩
      · rw [hnone] at hages
        exact absurd hages hsome
      · exact ⟨peerPort, draws, first, ha, hr⟩
  stays p l acts' hl hdrops := ages_run hl hdrops
  told p l hl := by
    obtain ⟨a, ha, htells⟩ := (kept_play e acts).exists_account hl
    obtain ⟨n, hn, ha⟩ := Ledger.at?_eq_some_iff.1 ha
    exact ⟨n, a, hn, ha, htells.status⟩
  moves i j n a hij _ ha := by
    obtain ⟨es, rfl⟩ := hij
    exact ⟨leads_heard a, leads_append ha es⟩
  queues p bytes := queue_eq_ok_iff (kept_play e acts) bytes
  closes p := by
    obtain ⟨hgone, hapart⟩ := (ends_close_entry p (play acts (ofEnds e))).state
    exact ⟨hgone, hapart⟩
  refuses p hl :=
    ⟨fun _ => linkAt_bind_of_none hl _, fun _ _ => linkAt_bind_of_none hl _,
      linkAt_bind_of_none hl _, linkAt_bind_of_none hl _, linkAt_bind_of_none hl _,
      linkAt_bind_of_none hl _⟩

/-- A connection that the device accepts and finishes keeps its entry until it is closed. -/
example :
    ((play hearing (ofEnds Ends.sample)).links.get? 49152).map Link.status =
        some (.ended .unexpectedEof) ∧
      (play (hearing ++ [.close 49152]) (ofEnds Ends.sample)).links.get? 49152 = none := by
  constructor <;> cbv

end Stack

end Tether.Tunnel
