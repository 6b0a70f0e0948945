import Tether.Proofs.Tunnel.Kept

/-!
# Receiving and connecting keep the journal

A call takes a stack that is kept to one that is kept, whether it succeeds or not. This module
does it for the calls that read from the tunnel; `Tether.Proofs.Tunnel.Flushing` does it for
those that write.

* `keeps_process`: whatever comes out of the tunnel;
* `ends_connect`: how a connection begins.
-/

namespace Tether.Tunnel

open Net Call

namespace Stack

variable {s t : Stack} {p port : UInt16} {l l' : Link} {a : Account} {e : Event} {x : Segment}

/-! ## Events -/

/-- An event and the change that it makes to the link at its port. -/
theorem Kept.update (h : s.Kept) (hl : s.links.get? e.port = some l)
    (ha : s.ledger.at? e.port = some a) (he : e.isTurn = false)
    (hallow : a.Allows s.segmentSize e) (htells : (a.note e).Tells l')
    (hj : t.journal = e :: s.journal) (hlinks : t.links = s.links.update e.port l')
    (hs : t.segmentSize = s.segmentSize) : t.Kept := by
  have hb : t.KeptBut e.port := by
    refine (h.but e.port).note hj hs ((Ledger.allows_iff he).2 ⟨a, ha, hallow⟩) ?_ fun q hq => ?_
    · rw [hlinks, Table.ports_update]
      exact h.nodup
    · rw [hlinks, Table.get?_update_of_ne hq]
  refine hb.kept (agreesAt_of_tells ?_ (at?_of_journal hj he ha) htells)
  rw [hlinks, Table.get?_update_self hl]

theorem KeptBut.posted (h : s.KeptBut x.source) (ha : s.ledger.at? x.source = some a)
    (hs : a.Sends s.segmentSize x) (hp : Posted x s t) :
    t.KeptBut x.source ∧ t.ledger.at? x.source = some (a.note (.sent x)) ∧
      t.links = s.links ∧ t.segmentSize = s.segmentSize ∧ t.journal = .sent x :: s.journal := by
  obtain ⟨transport, capture, packet, -, -, rfl⟩ := hp
  refine ⟨?_, at?_of_journal (e := .sent x) rfl rfl ha, rfl, rfl, rfl⟩
  exact KeptBut.note (e := .sent x) h rfl rfl ⟨a, ha, hs⟩ h.nodup fun _ _ => rfl

theorem KeptBut.missed (h : s.KeptBut x.source) (ha : s.ledger.at? x.source = some a)
    (hs : a.Sends s.segmentSize x) (hp : Missed x s t) :
    t.KeptBut x.source ∧ t.ledger.at? x.source = some (a.note (.lost x)) ∧
      t.links = s.links ∧ t.segmentSize = s.segmentSize ∧ t.journal = .lost x :: s.journal := by
  obtain ⟨transport, capture, rfl⟩ := hp
  refine ⟨?_, at?_of_journal (e := .lost x) rfl rfl ha, rfl, rfl, rfl⟩
  exact KeptBut.note (e := .lost x) h rfl rfl ⟨a, ha, hs⟩ h.nodup fun _ _ => rfl

/-- An account that has asked, or tried to, may be forgotten. -/
theorem KeptBut.forgotten (h : s.KeptBut port)
    (ha : ∀ a, s.ledger.at? port = some a → a.sent ≠ [] ∨ a.lost ≠ []) :
    (forget port).Ends s
      (fun _ t => t.Kept ∧ t.journal = .forgotten port :: s.journal) (fun _ _ => False) := by
  have hb : KeptBut port
      { s with links := s.links.erase port, journal := .forgotten port :: s.journal } :=
    KeptBut.note (e := .forgotten port) h rfl rfl ha (Table.nodup_erase h.nodup) fun _ hq =>
      Table.get?_erase_of_ne hq
  refine ⟨hb.kept ?_, rfl⟩
  rw [AgreesAt, Table.get?_erase, if_pos rfl, ledger, Ledger.ofJournal, Ledger.at?_note_forgotten]
  exact .none

/-! ## Receiving -/

/-- An acknowledgement changes nothing, whether it is sent or lost. -/
theorem Kept.acknowledges (h : s.Kept) (hl : s.links.get? port = some l)
    (hm : l.status = .connected ∨ l.status = .ended .unexpectedEof) :
    (transmit port Link.acknowledgement []).Ends s (fun _ => Kept) (fun _ => Kept) := by
  obtain ⟨a, ha, ht⟩ := h.exists_account hl
  obtain rfl := port_of_at? ha
  have hs : a.Sends s.segmentSize (a.segment Link.acknowledgement []) :=
    .acknowledgement ht.isOpen (ht.isMet hm)
  rw [← ht.segment_eq] at hs
  refine (ends_transmit hl _ _).mono (fun _ t hp => ?_) fun _ t hp => ?_
  · obtain ⟨hb, hat, hlinks, -, -⟩ := (h.but a.port).posted ha hs hp
    exact hb.kept (agreesAt_of_tells (hlinks ▸ hl) hat (ht.sent rfl rfl))
  · obtain ⟨hb, hat, hlinks, -, -⟩ := (h.but a.port).missed ha hs hp.2
    exact hb.kept (agreesAt_of_tells (hlinks ▸ hl) hat (ht.lost rfl))

theorem keeps_accept (x : Segment) : Respects Keeps (accept x) := by
  refine fun s => Ends.imp fun h => ?_
  unfold accept
  rw [ends_bind, ends_get]
  cases hl : s.links.get? x.destination with
  | none => exact h
  | some l =>
    dsimp only
    split
    · next hp =>
      obtain ⟨a, ha, ht⟩ := h.exists_account hl
      unfold record setLink
      rw [ends_bind, ends_modify, ends_bind, ends_modify]
      have hk : Kept
          { s with
            links := s.links.update x.destination (l.accept x).1
            journal := .arrived x :: s.journal } :=
        Kept.update (e := .arrived x) h hl ha rfl ⟨hp.symm.trans ht.peerPort, ht.isOpen⟩
          (ht.arrived x) rfl rfl rfl
      split
      · next hx =>
        refine hk.acknowledges (l := (l.accept x).1) ?_ (Link.status_of_answers hx)
        exact Table.get?_update_self hl
      · exact hk
    · exact h

theorem keeps_note (packet : Bytes) : Respects Keeps (note packet) :=
  fun _ h => h.of_eq rfl rfl rfl

theorem keeps_onTransport {α : Type} (c : Call Fault Transport α) :
    Respects Keeps (onTransport c) :=
  (Respects.top c).zoom fun _ _ _ h => h.of_eq rfl rfl rfl

theorem keeps_linkAt (port : UInt16) : Respects Keeps (linkAt port) :=
  Respects.get.bind fun _ => .ofOption _

theorem keeps_acceptPacket (packet : IpPacket) : Respects Keeps (acceptPacket packet) := by
  refine Respects.get.bind fun s => ?_
  cases s.segmentOf? packet with
  | none => exact .pure _
  | some x => exact keeps_accept x

theorem keeps_handlePackets (fuel : Nat) : Respects Keeps (handlePackets fuel) := by
  induction fuel with
  | zero => exact .pure _
  | succ fuel ih =>
    refine Respects.get.bind fun s => ?_
    dsimp only
    split
    · exact .pure _
    · exact Respects.bind (fun _ h => h.of_eq rfl rfl rfl) fun _ => .fail _
    · exact Respects.bind (fun _ h => h.of_eq rfl rfl rfl) fun _ =>
        (keeps_note _).bind fun _ => (keeps_acceptPacket _).bind fun _ => ih

theorem keeps_fill : Respects Keeps fill := by
  refine (keeps_onTransport _).bind fun bs => ?_
  dsimp only
  split
  · exact (Respects.fail _).bind fun _ => fun _ h => h.of_eq rfl rfl rfl
  · exact fun _ h => h.of_eq rfl rfl rfl

theorem keeps_handleBuffered : Respects Keeps handleBuffered :=
  Respects.get.bind fun _ => keeps_handlePackets _

theorem keeps_process : Respects Keeps process :=
  keeps_fill.bind fun _ => keeps_handleBuffered

/-! ## Connecting -/

theorem keeps_awaitAnswer (port : UInt16) (fuel : Nat) :
    Respects Keeps (awaitAnswer port fuel) := by
  induction fuel with
  | zero => exact .throw _
  | succ fuel ih =>
    refine (keeps_linkAt port).bind fun link => ?_
    cases link.status with
    | connecting => exact keeps_process.bind fun _ => ih
    | connected => exact .pure _
    | ended fault => exact .fail _

/-- An answer that is awaited with success makes a connection. -/
theorem ends_awaitAnswer (port : UInt16) (fuel : Nat) (s : Stack) :
    (awaitAnswer port fuel).Ends s
      (fun _ t => ∃ l, t.links.get? port = some l ∧ l.status = .connected) (fun _ _ => True) := by
  induction fuel generalizing s with
  | zero => exact trivial
  | succ fuel ih =>
    unfold awaitAnswer
    rw [ends_bind]
    cases hl : s.links.get? port with
    | none => exact (ends_linkAt_none hl).mono (fun _ _ => False.elim) fun _ _ _ => trivial
    | some l =>
      refine (ends_linkAt hl).mono (fun _ t ht => ?_) fun _ _ _ => trivial
      obtain ⟨rfl, rfl⟩ := ht
      split
      · rw [ends_bind]
        unfold Call.Ends
        split
        · exact ih _
        · trivial
      · next hs => exact ⟨_, hl, hs⟩
      · trivial

theorem get?_freePort? {ports : Table} {draws : List Draw} (h : freePort? ports draws = some p) :
    ports.get? p = none ∧ 49152 ≤ p.toNat := by
  refine ⟨by simpa using List.find?_some h, ?_⟩
  obtain ⟨d, -, rfl⟩ := List.mem_map.1 (List.mem_of_find?_eq_some h)
  exact le_toNat_port d

/-- The stack once a connection was begun at a free port, with the traffic since then. -/
def Dialed (peerPort : UInt16) (first : UInt32) (port : UInt16) (s t : Stack) : Prop :=
  s.links.get? port = none ∧ 49152 ≤ port.toNat ∧
    ∃ es : Journal, t.journal = es ++ .opened port peerPort first :: s.journal ∧
      ∀ e ∈ es, e.isTraffic = true

/-- Asking for a connection that was just begun. What was asked for in vain may be forgotten. -/
theorem ends_greet (h : s.KeptBut port)
    (hl : s.links.get? port = some l) (ha : s.ledger.at? port = some a)
    (hf : a.fresh = l) (hs : a.sent = []) (har : a.arrived = []) (ht : a.taken = [])
    (hp : a.pending = []) :
    (greet port).Ends s
      (fun _ t => t.Kept ∧ ∃ l, t.links.get? port = some l ∧ l.status = .connected)
      (fun h t => h ≠ .waiting ∧ t.KeptBut port ∧
        ∀ b, t.ledger.at? port = some b → b.sent ≠ [] ∨ b.lost ≠ []) := by
  obtain rfl := port_of_at? ha
  have hh : a.heard = l := by rw [Account.heard, har, Link.hear_nil, hf]
  have hseq : l.sequence = a.next := by
    have hc : a.carried = [] := by rw [Account.carried, hs]; rfl
    rw [Account.next, hc, hh, List.length_nil]
    simp
  have hseg : l.segment a.port Link.greeting [] = a.segment Link.greeting [] := by
    rw [Link.segment, Account.segment, hseq, hh, ← hf]
    rfl
  have hsend : a.Sends s.segmentSize (l.segment a.port Link.greeting []) := by
    rw [hseg]
    exact .greeting hs har
  have hreceived : a.taken ++ l.received = a.accepted := by rw [Account.accepted, hh, ht]; rfl
  have hqueued : l.queued = a.pending := by rw [hp, ← hf]; rfl
  have hpeer : l.peerPort = a.peerPort := by rw [← hf]; rfl
  unfold greet
  rw [ends_bind]
  refine (ends_transmit hl _ _).mono (fun _ t hpost => ?_) fun h' t hmiss => ?_
  · obtain ⟨hb, hat, hlinks, -, -⟩ := h.posted ha hsend hpost
    have htells : (a.note (.sent (l.segment a.port Link.greeting []))).Tells l := by
      refine ⟨hpeer, hh ▸ rfl, hh ▸ rfl, hreceived, ?_, ?_, ?_⟩
      · rw [hqueued]
        rfl
      · rw [Account.next_note_sent, ← hseq]
        exact (UInt32.add_zero _).symm
      · refine ⟨by simp [Account.note], fun y hy => ?_⟩
        rw [Account.note, hs, List.nil_append, List.mem_singleton] at hy
        rw [hy]
        rfl
    have hk : t.Kept := hb.kept (agreesAt_of_tells (hlinks ▸ hl) hat htells)
    rw [ends_within, ends_bind, ends_get]
    refine ((keeps_awaitAnswer a.port _ t).and (ends_awaitAnswer a.port _ t)).mono
      (fun _ u hu => ⟨hu.1 hk, hu.2⟩) fun h' u hu => ?_
    have hu' : u.KeptBut a.port ∧
        ∀ b, u.ledger.at? a.port = some b → b.sent ≠ [] ∨ b.lost ≠ [] := by
      refine ⟨(hu.1 hk).but _, fun b hb => ?_⟩
      obtain ⟨_, -, htells⟩ := (hu.1 hk).exists_link hb
      exact .inl htells.isOpen.asked
    cases h' <;> exact ⟨fun hw => (by cases hw), hu'⟩
  · obtain ⟨hb, hat, -, -, -⟩ := h.missed ha hsend hmiss.2
    refine ⟨hmiss.1, hb, fun b hb' => .inr ?_⟩
    obtain rfl := Option.some.inj (hat.symm.trans hb')
    simp [Account.note]

theorem ends_connect (h : s.Kept) (peerPort : UInt16) (draws : List Draw) (first : UInt32) :
    (connect peerPort draws first).Ends s
      (fun port t => t.Kept ∧ Dialed peerPort first port s t ∧
        ∃ l, t.links.get? port = some l ∧ l.status = .connected)
      (fun h t => t.Kept ∧ (h = .waiting ∧ t = s ∨ h ≠ .waiting ∧
        ∃ port u, Dialed peerPort first port s u ∧ t.journal = .forgotten port :: u.journal)) := by
  unfold connect
  rw [ends_bind, ends_get]
  cases hp : freePort? s.links draws with
  | none => exact ⟨h, .inl ⟨rfl, rfl⟩⟩
  | some port =>
    obtain ⟨hfree, hhigh⟩ := get?_freePort? hp
    have hholder : s.ledger.holder port = none := by
      cases hn : s.ledger.holder port with
      | none => rfl
      | some n =>
        obtain ⟨a, ha, -⟩ := (Ledger.sound_ofJournal s.journal).exists_at? hn
        obtain ⟨l, hl, -⟩ := h.exists_link ha
        rw [hfree] at hl
        cases hl
    dsimp only
    unfold record
    rw [ends_bind, ends_modify, ends_bind, ends_modify, ends_bind, ends_attempt]
    let u : Stack :=
      { s with
        links := s.links.insert port { peerPort, sequence := first }
        journal := .opened port peerPort first :: s.journal }
    have hu : u.KeptBut port :=
      KeptBut.note (e := .opened port peerPort first) (h.but port) rfl rfl ⟨hholder, hhigh⟩
        (Table.nodup_insert h.nodup hfree)
        fun q hq => (Table.get?_insert _ _ _ _ hfree).trans (if_neg hq)
    have hl : u.links.get? port = some { peerPort, sequence := first } := by
      rw [Table.get?_insert _ _ _ _ hfree, if_pos rfl]
    have hgreet := ends_greet hu hl (Ledger.at?_note_opened _ _ _ _) rfl rfl rfl rfl rfl
    refine (hgreet.and (grows_greet port u)).mono (fun _ t ht => ?_) fun h' t ht => ?_
    · obtain ⟨⟨hk, hc⟩, hg⟩ := ht
      obtain ⟨es, hj, hes, -⟩ := hg.events
      exact ⟨hk, ⟨hfree, hhigh, es, hj, hes⟩, hc⟩
    · obtain ⟨⟨hw, hb, ha⟩, hg⟩ := ht
      obtain ⟨es, hj, hes, -⟩ := hg.events
      cases h' with
      | waiting => exact absurd rfl hw
      | failed e =>
        dsimp only
        rw [ends_bind]
        refine (hb.forgotten ha).mono (fun _ v hv => ?_) fun _ _ => False.elim
        exact ⟨hv.1, .inr ⟨nofun, port, t, ⟨hfree, hhigh, es, hj, hes⟩, hv.2⟩⟩

theorem keeps_connect (peerPort : UInt16) (draws : List Draw) (first : UInt32) :
    Respects Keeps (connect peerPort draws first) :=
  fun _ => Ends.imp fun h => (ends_connect h peerPort draws first).mono (fun _ _ ht => ht.1)
    fun _ _ ht => ht.1

end Stack

end Tether.Tunnel
