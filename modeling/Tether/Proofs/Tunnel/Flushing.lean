import Tether.Proofs.Tunnel.Upkeep

/-!
# Flushing and closing keep the journal

What is queued on a link goes into the tunnel as a *volley*: its pieces, each in a segment that
is numbered where the last one ended. A link that is closed sends its volley and a farewell.

* `ends_flushLink`, `ends_flush`: a flush that succeeds sends the volley of each link and
  nothing else;
* `ends_close`: a link that is closed with success has sent its volley, and then its farewell;
* `keeps_queue`, `keeps_take`, `keeps_shutdown`: the calls that send nothing.
-/

namespace Tether.Tunnel

open Net Call

namespace Link

/-- The segments that carry some pieces, one after another. -/
def volley (l : Link) (port : UInt16) : List Bytes → List Segment
  | [] => []
  | p :: ps => l.segment port carrying p :: (l.advance p.length).volley port ps

/-- The link once some pieces have been sent. -/
def spend (l : Link) (ps : List Bytes) : Link :=
  ps.foldl (fun l p => l.advance p.length) l

/-- The link once what was queued has been sent. -/
def flushed (l : Link) (size : Nat) : Link :=
  { l with queued := [] }.spend (pieces size l.queued)

/-- The segments that flushing makes. -/
def burst (l : Link) (port : UInt16) (size : Nat) : List Segment :=
  l.volley port (pieces size l.queued)

/-- The segments that closing makes. -/
def parting (l : Link) (port : UInt16) (size : Nat) : List Segment :=
  if Stack.saysFarewell l then
    l.burst port size ++ [(l.flushed size).segment port farewell []]
  else []

theorem volley_queued (l : Link) (port : UInt16) (bytes : Bytes) (ps : List Bytes) :
    { l with queued := bytes }.volley port ps = l.volley port ps := by
  induction ps generalizing l with
  | nil => rfl
  | cons p ps ih => exact congrArg _ (ih (l.advance p.length))

theorem spend_eq (l : Link) (ps : List Bytes) : ∃ n, l.spend ps = { l with sequence := n } := by
  induction ps generalizing l with
  | nil => exact ⟨l.sequence, rfl⟩
  | cons p ps ih =>
    obtain ⟨n, hn⟩ := ih (l.advance p.length)
    exact ⟨n, hn⟩

theorem flushed_eq (l : Link) (size : Nat) :
    ∃ n, l.flushed size = { l with queued := [], sequence := n } :=
  spend_eq _ _

theorem flushed_of_queued_eq_nil {l : Link} (h : l.queued = []) (size : Nat) :
    l.flushed size = l := by
  cases l
  cases h
  unfold flushed pieces
  rfl

theorem burst_of_queued_eq_nil {l : Link} (h : l.queued = []) (port : UInt16) (size : Nat) :
    l.burst port size = [] := by
  rw [burst, h]
  unfold pieces
  rfl

end Link

namespace Stack

variable {s t : Stack} {p port : UInt16} {l l' : Link} {a : Account} {e : Event} {x : Segment}

/-! ## Other ports -/

/-- The links of all other ports are the same. -/
abbrev Apart (port : UInt16) (s t : Stack) : Prop :=
  ∀ q, q ≠ port → t.links.get? q = s.links.get? q

instance : IsPreorder Stack (Apart port) where
  refl _ _ _ := rfl
  trans _ _ _ h h' q hq := (h' q hq).trans (h q hq)

theorem apart_linkAt (port p : UInt16) : Respects (Apart port) (linkAt p) :=
  Respects.get.bind fun _ => .ofOption _

theorem apart_setLink (port : UInt16) (link : Link) : Respects (Apart port) (setLink port link) :=
  fun _ _ hq => Table.get?_update_of_ne hq

theorem apart_transmit (port p : UInt16) (control : Control) (payload : Bytes) :
    Respects (Apart port) (transmit p control payload) := by
  intro s
  cases h : s.links.get? p with
  | none =>
    unfold transmit
    rw [ends_bind]
    refine (ends_linkAt_none h).mono (fun _ _ => False.elim) fun _ t ht => ?_
    rw [ht.2]
    exact fun _ _ => rfl
  | some link =>
    refine (ends_transmit h control payload).mono (fun _ t ht => ?_) fun _ t ht => ?_
    · obtain ⟨_, _, _, -, -, rfl⟩ := ht
      exact fun _ _ => rfl
    · obtain ⟨-, _, _, rfl⟩ := ht
      exact fun _ _ => rfl

theorem apart_flushLink (port : UInt16) : Respects (Apart port) (flushLink port) :=
  (apart_linkAt port port).bind fun _ => (apart_setLink port _).bind fun _ =>
    Respects.get.bind fun _ => .forM fun _ _ => (apart_transmit port port _ _).bind fun _ =>
      (apart_linkAt port port).bind fun _ => apart_setLink port _

theorem apart_record (port : UInt16) (e : Event) : Respects (Apart port) (record e) :=
  fun _ _ _ => rfl

theorem apart_forget (port : UInt16) : Respects (Apart port) (forget port) :=
  Respects.bind (fun _ _ hq => Table.get?_erase_of_ne hq) fun _ => apart_record port _

theorem apart_queue (port : UInt16) (bytes : Bytes) : Respects (Apart port) (queue port bytes) := by
  refine (apart_linkAt port port).bind fun l => ?_
  cases l.status with
  | connected => exact (apart_setLink port _).bind fun _ => apart_record port _
  | connecting => exact .fail _
  | ended fault => exact .fail _

theorem apart_take (port : UInt16) : Respects (Apart port) (take port) :=
  (apart_linkAt port port).bind fun _ => (apart_setLink port _).bind fun _ =>
    (apart_record port _).bind fun _ => .pure _

theorem apart_close (port : UInt16) : Respects (Apart port) (close port) := by
  refine (apart_linkAt port port).bind fun l => Respects.bind (Respects.attempt ?_) fun _ =>
    (apart_forget port).bind fun _ => .ofExcept _
  split
  · exact (apart_flushLink port).bind fun _ => apart_transmit port port _ _
  · exact .pure _

/-! ## Queueing and taking -/

theorem ends_queue (h : s.Kept) (hl : s.links.get? port = some l) (hs : l.status = .connected)
    (bytes : Bytes) :
    (queue port bytes).Ends s
      (fun _ t => t.Kept ∧ t.journal = .queued port bytes :: s.journal ∧
        t.links = s.links.update port { l with queued := l.queued ++ bytes })
      (fun _ _ => False) := by
  obtain ⟨a, ha, ht⟩ := h.exists_account hl
  unfold queue
  rw [ends_bind]
  refine (ends_linkAt hl).mono (fun l' t' ht' => ?_) fun _ _ => id
  obtain ⟨rfl, rfl⟩ := ht'
  split
  · exact ⟨Kept.update (e := .queued port bytes) h hl ha rfl ⟨ht.status ▸ hs, ht.isOpen⟩
      (ht.queue port bytes) rfl rfl rfl, rfl, rfl⟩
  · next hc => rw [hs] at hc; cases hc
  · next hc => rw [hs] at hc; cases hc

/-- Bytes cannot be queued on a connection that is not there, or over. -/
theorem ends_queue_of_not (hs : ∀ l, s.links.get? port = some l → l.status ≠ .connected)
    (bytes : Bytes) :
    (queue port bytes).Ends s (fun _ _ => False) (fun h t => h = .failed (.bare
      (match (s.links.get? port).map Link.status with
        | some (.ended fault) => fault
        | _ => .notConnected)) ∧ t = s) := by
  unfold queue
  rw [ends_bind]
  cases hl : s.links.get? port with
  | none => exact (ends_linkAt_none hl).mono (fun _ _ => False.elim) fun _ _ => id
  | some l =>
    refine (ends_linkAt hl).mono (fun l' t' ht' => ?_) fun _ _ => False.elim
    obtain ⟨rfl, rfl⟩ := ht'
    dsimp only [Option.map_some]
    cases hstatus : l'.status with
    | connecting => exact ⟨rfl, rfl⟩
    | connected => exact absurd hstatus (hs l' hl)
    | ended fault => exact ⟨rfl, rfl⟩

theorem keeps_queue (port : UInt16) (bytes : Bytes) : Respects Keeps (queue port bytes) := by
  refine fun s => Ends.imp fun h => ?_
  by_cases hs : ∃ l, s.links.get? port = some l ∧ l.status = .connected
  · obtain ⟨l, hl, hs⟩ := hs
    exact (ends_queue h hl hs bytes).mono (fun _ _ ht => ht.1) fun _ _ => False.elim
  · refine (ends_queue_of_not (fun l hl hc => hs ⟨l, hl, hc⟩) bytes).mono
      (fun _ _ => False.elim) fun _ t ht => ?_
    rwa [ht.2]

theorem ends_take (h : s.Kept) (hl : s.links.get? port = some l) :
    (take port).Ends s
      (fun bytes t => bytes = l.received ∧ t.Kept ∧
        t.journal = .taken port l.received :: s.journal ∧
        t.links = s.links.update port { l with received := [] })
      (fun _ _ => False) := by
  obtain ⟨a, ha, ht⟩ := h.exists_account hl
  unfold take
  rw [ends_bind]
  refine (ends_linkAt hl).mono (fun l' t' ht' => ?_) fun _ _ => id
  obtain ⟨rfl, rfl⟩ := ht'
  exact ⟨rfl, Kept.update (e := .taken port _) h hl ha rfl ht.received (ht.take port) rfl rfl rfl,
    rfl, rfl⟩

theorem ends_take_none (hl : s.links.get? port = none) :
    (take port).Ends s (fun _ _ => False)
      (fun h t => h = .failed (.bare .notConnected) ∧ t = s) := by
  unfold take
  rw [ends_bind]
  exact (ends_linkAt_none hl).mono (fun _ _ => False.elim) fun _ _ => id

theorem keeps_take (port : UInt16) : Respects Keeps (take port) := by
  refine fun s => Ends.imp fun h => ?_
  cases hl : s.links.get? port with
  | none =>
    refine (ends_take_none hl).mono (fun _ _ => False.elim) fun _ t ht => ?_
    rwa [ht.2]
  | some l => exact (ends_take h hl).mono (fun _ _ ht => ht.2.1) fun _ _ => False.elim

/-! ## Flushing -/

/-- One piece of what an account holds as pending. -/
theorem ends_sendPiece {bytes rest : Bytes} (h : s.KeptBut port)
    (hl : s.links.get? port = some l) (hq : l.queued = [])
    (ha : s.ledger.at? port = some a) (ht : a.Tells { l with queued := bytes ++ rest })
    (hb : bytes ≠ []) (htake : (bytes ++ rest).take s.segmentSize = bytes) :
    (sendPiece port bytes).Ends s
      (fun _ t => t.KeptBut port ∧ t.links = s.links.update port (l.advance bytes.length) ∧
        t.segmentSize = s.segmentSize ∧
        t.journal = .sent (l.segment port Link.carrying bytes) :: s.journal ∧
        ∃ b, t.ledger.at? port = some b ∧
          b.Tells { l.advance bytes.length with queued := rest })
      (fun h t => h ≠ .waiting ∧ t.Kept ∧ ¬ t.journal.Lossless) := by
  obtain rfl := port_of_at? ha
  have hsend : a.Sends s.segmentSize (l.segment a.port Link.carrying bytes) := by
    have hx : l.segment a.port Link.carrying bytes =
        a.segment Link.carrying (a.pending.take s.segmentSize) := by
      rw [← ht.queued, htake]
      exact ht.segment_eq Link.carrying bytes
    rw [hx]
    refine .piece ht.isOpen ?_
    rw [← ht.queued]
    simp [hb]
  unfold sendPiece
  rw [ends_bind]
  refine (ends_transmit hl _ _).mono (fun _ t hp => ?_) fun _ t hp => ?_
  · obtain ⟨hk, hat, hlinks, hsize, hj⟩ := h.posted ha hsend hp
    rw [ends_bind]
    refine (ends_linkAt (hlinks ▸ hl)).mono (fun l' t' ht' => ?_) fun _ _ => False.elim
    obtain ⟨rfl, rfl⟩ := ht'
    refine ⟨⟨hk.valid, hk.sized, ?_, fun q hqp => ?_⟩, ?_, hsize, hj, _, hat, ?_⟩
    · dsimp only
      rw [Table.ports_update]
      exact hk.nodup
    · rw [AgreesAt]
      dsimp only
      rw [Table.get?_update_of_ne hqp]
      exact hk.agrees q hqp
    · dsimp only
      rw [hlinks]
    · exact ht.piece rfl rfl
  · obtain ⟨hk, hat, hlinks, -, hj⟩ := h.missed ha hsend hp.2
    refine ⟨hp.1, hk.kept (agreesAt_of_tells (hlinks ▸ hl) hat (ht.breaks hb hq)), fun hless => ?_⟩
    have := hless (.lost (l.segment a.port Link.carrying bytes)) (by rw [hj]; exact List.mem_cons_self)
    cases this

/-- The pieces of what an account holds as pending, one after another. -/
theorem ends_pieces {size : Nat} (bytes : Bytes) (hsize : s.segmentSize = size)
    (h : s.KeptBut port) (hl : s.links.get? port = some l) (hq : l.queued = [])
    (ha : s.ledger.at? port = some a) (ht : a.Tells { l with queued := bytes }) :
    ((pieces size bytes).forM (sendPiece port)).Ends s
      (fun _ t => t.Kept ∧ t.segmentSize = size ∧
        t.links.get? port = some (l.spend (pieces size bytes)) ∧
        t.journal = ((l.volley port (pieces size bytes)).map Event.sent).reverse ++ s.journal)
      (fun h t => h ≠ .waiting ∧ t.Kept ∧ ¬ t.journal.Lossless) := by
  fun_induction pieces size bytes generalizing s l a with
  | case1 =>
    rw [← hq] at ht
    exact ⟨h.kept (agreesAt_of_tells hl ha ht), hsize, hl, rfl⟩
  | case2 x xs ih =>
    have hpos : size = size - 1 + 1 := by
      have := h.sized
      omega
    have hcut : (x :: xs.take (size - 1)) ++ xs.drop (size - 1) = x :: xs := by
      rw [List.cons_append, List.take_append_drop]
    rw [← hcut] at ht
    have htake : ((x :: xs.take (size - 1)) ++ xs.drop (size - 1)).take s.segmentSize =
        x :: xs.take (size - 1) := by
      rw [hcut, hsize]
      conv_lhs => rw [hpos, List.take_succ_cons]
    rw [List.forM, ends_bind]
    refine (ends_sendPiece h hl hq ha ht (List.cons_ne_nil _ _) htake).mono
      (fun _ t hp => ?_) fun _ t hp => hp
    obtain ⟨hk, hlinks, hsize', hj, b, hb, htells⟩ := hp
    have hl' : t.links.get? port = some (l.advance (x :: xs.take (size - 1)).length) := by
      rw [hlinks, Table.get?_update_self hl]
    refine (ih (hsize'.trans hsize) hk hl' hq hb htells).mono (fun _ u hu => ?_) fun _ _ hu => hu
    obtain ⟨hk', hsize'', hl'', hj'⟩ := hu
    refine ⟨hk', hsize'', hl'', ?_⟩
    rw [hj', hj, Link.volley, List.map_cons, List.reverse_cons, List.append_assoc]
    rfl

theorem ends_flushLink (h : s.Kept) (hl : s.links.get? port = some l) :
    (flushLink port).Ends s
      (fun _ t => t.Kept ∧ t.segmentSize = s.segmentSize ∧
        t.links.get? port = some (l.flushed s.segmentSize) ∧
        t.journal = ((l.burst port s.segmentSize).map Event.sent).reverse ++ s.journal)
      (fun h t => h ≠ .waiting ∧ t.Kept ∧ ¬ t.journal.Lossless) := by
  obtain ⟨a, ha, ht⟩ := h.exists_account hl
  unfold flushLink
  rw [ends_bind]
  refine (ends_linkAt hl).mono (fun l' t' ht' => ?_) fun _ _ => False.elim
  obtain ⟨rfl, rfl⟩ := ht'
  unfold setLink
  rw [ends_bind, ends_modify, ends_bind, ends_get]
  have hk : KeptBut port
      { t' with links := t'.links.update port { l' with queued := [] } } := by
    refine ⟨h.valid, h.sized, ?_, fun q hq => ?_⟩
    · rw [Table.ports_update]
      exact h.nodup
    · rw [AgreesAt]
      dsimp only
      rw [Table.get?_update_of_ne hq]
      exact h.agrees q
  have hl' := Table.get?_update_self (l := { l' with queued := [] }) hl
  refine (ends_pieces l'.queued rfl hk hl' rfl ha ht).mono (fun _ u hu => ?_) fun _ _ hu => hu
  rw [Link.volley_queued] at hu
  exact hu

theorem keeps_flushLink (port : UInt16) : Respects Keeps (flushLink port) := by
  refine fun s => Ends.imp fun h => ?_
  cases hl : s.links.get? port with
  | none =>
    unfold flushLink
    rw [ends_bind]
    refine (ends_linkAt_none hl).mono (fun _ _ => False.elim) fun _ t ht => ?_
    rwa [ht.2]
  | some l => exact (ends_flushLink h hl).mono (fun _ _ ht => ht.1) fun _ _ ht => ht.2.1

theorem keeps_flush : Respects Keeps flush :=
  Respects.get.bind fun _ => .forM fun port _ => keeps_flushLink port

theorem ends_flushLinks (bs : Table) (h : s.Kept) (hnodup : bs.ports.Nodup)
    (hl : ∀ p l, (p, l) ∈ bs → s.links.get? p = some l) :
    (bs.ports.forM flushLink).Ends s
      (fun _ t => t.Kept ∧ t.segmentSize = s.segmentSize ∧
        t.journal = ((bs.flatMap fun e => e.2.burst e.1 s.segmentSize).map Event.sent).reverse ++
          s.journal ∧
        ∀ q, t.links.get? q =
          if q ∈ bs.ports then (s.links.get? q).map (·.flushed s.segmentSize)
          else s.links.get? q)
      (fun _ t => ¬ t.journal.Lossless) := by
  induction bs generalizing s with
  | nil => exact ⟨h, rfl, rfl, fun _ => rfl⟩
  | cons entry bs ih =>
    obtain ⟨p, l⟩ := entry
    rw [Table.ports_cons, List.nodup_cons] at hnodup
    rw [Table.ports_cons, List.forM, ends_bind]
    have hp := hl p l List.mem_cons_self
    refine ((ends_flushLink h hp).and (apart_flushLink p s)).mono (fun _ t ht => ?_)
      fun _ t ht => ht.1.2.2
    obtain ⟨⟨hk, hsize, hlt, hj⟩, hapart⟩ := ht
    have hl' : ∀ q l, (q, l) ∈ bs → t.links.get? q = some l := by
      intro q l' hq
      rw [hapart q ?_]
      · exact hl q l' (List.mem_cons_of_mem _ hq)
      · rintro rfl
        exact hnodup.1 (List.mem_map.2 ⟨_, hq, rfl⟩)
    refine (ih hk hnodup.2 hl').mono (fun _ u hu => ?_) fun _ _ hu => hu
    obtain ⟨hk', hsize', hj', hlinks⟩ := hu
    refine ⟨hk', hsize'.trans hsize, ?_, fun q => ?_⟩
    · rw [hj', hj, hsize]
      simp
    · rw [hlinks, hsize]
      by_cases hq : q = p
      · subst hq
        rw [if_neg hnodup.1, if_pos List.mem_cons_self, hlt, hp]
        rfl
      · rw [hapart q hq]
        by_cases hm : q ∈ Table.ports bs
        · rw [if_pos hm, if_pos (List.mem_cons_of_mem _ hm)]
        · rw [if_neg hm, if_neg fun hc => (List.mem_cons.1 hc).elim hq hm]

/-- A flush sends the burst of each link. -/
theorem ends_flush (h : s.Kept) :
    flush.Ends s
      (fun _ t => t.Kept ∧
        t.journal = ((s.links.flatMap fun e => e.2.burst e.1 s.segmentSize).map Event.sent).reverse ++
          s.journal ∧
        ∀ q, t.links.get? q = (s.links.get? q).map (·.flushed s.segmentSize))
      (fun _ t => ¬ t.journal.Lossless) := by
  unfold flush
  rw [ends_bind, ends_get]
  have hsub : (s.links.filter fun entry => !entry.2.queued.isEmpty).Sublist s.links :=
    List.filter_sublist
  refine (ends_flushLinks _ h (h.nodup.sublist (hsub.map _)) fun p l hp =>
    Table.get?_of_mem h.nodup (hsub.mem hp)).mono (fun _ t ht => ?_) fun _ _ ht => ht
  obtain ⟨hk, -, hj, hlinks⟩ := ht
  refine ⟨hk, ?_, fun q => ?_⟩
  · have hidle : ∀ t : Table, (t.filter fun e => !e.2.queued.isEmpty).flatMap
        (fun e => e.2.burst e.1 s.segmentSize) = t.flatMap fun e => e.2.burst e.1 s.segmentSize := by
      intro t
      induction t with
      | nil => rfl
      | cons e t ih =>
        by_cases he : e.2.queued = []
        · rw [List.filter_cons_of_neg (by simp [he]), ih, List.flatMap_cons,
            Link.burst_of_queued_eq_nil he, List.nil_append]
        · rw [List.filter_cons_of_pos (by simp [he]), List.flatMap_cons, ih, List.flatMap_cons]
    rw [hj, hidle]
  · rw [hlinks]
    split
    · rfl
    · next hq =>
      cases hl : s.links.get? q with
      | none => rfl
      | some l =>
        have hmem : (q, l) ∈ s.links := Table.mem_of_get? hl
        have hidle : l.queued = [] := by
          by_contra hne
          exact hq (List.mem_map.2 ⟨(q, l), List.mem_filter.2 ⟨hmem, by simpa using hne⟩, rfl⟩)
        rw [Option.map_some, Link.flushed_of_queued_eq_nil hidle]

/-! ## Closing -/

theorem ends_close (h : s.Kept) (hl : s.links.get? port = some l) :
    (close port).Ends s
      (fun _ t => t.Kept ∧ t.journal =
        .forgotten port :: (((l.parting port s.segmentSize).map Event.sent).reverse ++ s.journal))
      (fun h t => h ≠ .waiting ∧ t.Kept ∧ ¬ t.journal.Lossless ∧
        t.ledger.at? port = none) := by
  obtain ⟨a, ha, ht⟩ := h.exists_account hl
  unfold close
  rw [ends_bind]
  refine (ends_linkAt hl).mono (fun l' t' ht' => ?_) fun _ _ => False.elim
  obtain ⟨rfl, rfl⟩ := ht'
  rw [ends_bind, ends_attempt]
  have hasked {u : Stack} (hu : u.Kept) :
      ∀ b, u.ledger.at? port = some b → b.sent ≠ [] ∨ b.lost ≠ [] := by
    intro b hb
    obtain ⟨_, -, htells⟩ := hu.exists_link hb
    exact .inl htells.isOpen.asked
  -- What failed is reported once the connection is forgotten.
  have hfail {u : Stack} (e : TunnelError) (hu : u.KeptBut port)
      (ha : ∀ b, u.ledger.at? port = some b → b.sent ≠ [] ∨ b.lost ≠ [])
      (hless : ¬ u.journal.Lossless) :
      (do forget port; Call.ofExcept (.error e) : Call TunnelError Stack Unit).Ends u
        (fun _ t => t.Kept ∧ t.journal = .forgotten port ::
          (((l'.parting port t'.segmentSize).map Event.sent).reverse ++ t'.journal))
        (fun h t => h ≠ .waiting ∧ t.Kept ∧ ¬ t.journal.Lossless ∧
          t.ledger.at? port = none) := by
    rw [ends_bind]
    refine (hu.forgotten ha).mono (fun _ v hv => ?_) fun _ _ => False.elim
    have hv' : v.journal = .forgotten port :: u.journal := hv.2
    refine ⟨nofun, hv.1, fun hlossless => hless fun e he => hlossless e ?_, ?_⟩
    · rw [hv']
      exact List.mem_cons_of_mem _ he
    · rw [ledger, hv']
      exact Ledger.at?_note_forgotten _ _
  by_cases hsays : saysFarewell l'
  · rw [if_pos hsays, ends_bind]
    refine (ends_flushLink h hl).mono (fun _ u hu => ?_) fun h' u hu => ?_
    · obtain ⟨hk, hsize, hl', hj⟩ := hu
      obtain ⟨b, hb, htells⟩ := hk.exists_account hl'
      obtain rfl := port_of_at? hb
      obtain ⟨n, hn⟩ := l'.flushed_eq t'.segmentSize
      have hmet : (l'.flushed t'.segmentSize).status = .connected ∨
          (l'.flushed t'.segmentSize).status = .ended .unexpectedEof := by
        rw [hn]
        simpa [saysFarewell] using hsays
      have hpending : b.pending = [] := by rw [← htells.queued, hn]
      have hsend : b.Sends u.segmentSize
          ((l'.flushed t'.segmentSize).segment b.port Link.farewell []) := by
        rw [htells.segment_eq]
        exact .farewell htells.isOpen (htells.isMet hmet) hpending
      refine (ends_transmit hl' _ _).mono (fun _ v hv => ?_) fun h' v hv => ?_
      · obtain ⟨hkb, hat, -, -, hj'⟩ := (hk.but b.port).posted hb hsend hv
        rw [ends_bind]
        refine (hkb.forgotten fun c hc => .inl ?_).mono (fun _ w hw => ?_) fun _ _ => False.elim
        · obtain rfl := Option.some.inj (hat.symm.trans hc)
          simp [Account.note]
        · have hw' : w.journal = .forgotten b.port :: v.journal := hw.2
          refine ⟨hw.1, ?_⟩
          rw [hw', hj', hj, Link.parting, if_pos hsays]
          simp
      · obtain ⟨hkb, hat, -, -, hj'⟩ := (hk.but b.port).missed hb hsend hv.2
        cases h' with
        | waiting => exact absurd rfl hv.1
        | failed e =>
          refine hfail e hkb (fun c hc => .inr ?_) fun hless => ?_
          · obtain rfl := Option.some.inj (hat.symm.trans hc)
            simp [Account.note]
          · have := hless _ (by rw [hj']; exact List.mem_cons_self)
            cases this
    · cases h' with
      | waiting => exact absurd rfl hu.1
      | failed e => exact hfail e (hu.2.1.but port) (hasked hu.2.1) hu.2.2
  · rw [if_neg hsays, ends_pure]
    rw [ends_bind]
    refine ((h.but port).forgotten (hasked h)).mono (fun _ v hv => ?_) fun _ _ => False.elim
    refine ⟨hv.1, ?_⟩
    rw [hv.2, Link.parting, if_neg hsays]
    rfl

theorem ends_close_none (hl : s.links.get? port = none) :
    (close port).Ends s (fun _ _ => False)
      (fun h t => h = .failed (.bare .notConnected) ∧ t = s) := by
  unfold close
  rw [ends_bind]
  exact (ends_linkAt_none hl).mono (fun _ _ => False.elim) fun _ _ => id

theorem keeps_close (port : UInt16) : Respects Keeps (close port) := by
  refine fun s => Ends.imp fun h => ?_
  cases hl : s.links.get? port with
  | none =>
    refine (ends_close_none hl).mono (fun _ _ => False.elim) fun _ t ht => ?_
    rwa [ht.2]
  | some l => exact (ends_close h hl).mono (fun _ _ ht => ht.1) fun _ _ ht => ht.2.1

/-- Forgetting some ports, each of which has asked or tried to, or stands for nothing. -/
theorem valid_forgotten {size : Nat} {j : Journal} (h : j.Valid size)
    (ha : ∀ p a, (Ledger.ofJournal j).at? p = some a → a.sent ≠ [] ∨ a.lost ≠ [])
    (ps : List UInt16) :
    Journal.Valid size (ps.map Event.forgotten ++ j) ∧
      ∀ q, (Ledger.ofJournal (ps.map Event.forgotten ++ j)).at? q =
        if q ∈ ps then none else (Ledger.ofJournal j).at? q := by
  induction ps with
  | nil => exact ⟨h, fun _ => rfl⟩
  | cons p ps ih =>
    obtain ⟨hv, hat⟩ := ih
    refine ⟨⟨fun a hp => ?_, hv⟩, fun q => ?_⟩
    · have hp' := (hat p).symm.trans hp
      split at hp'
      · cases hp'
      · exact ha p a hp'
    · rw [List.map_cons, List.cons_append, Ledger.ofJournal]
      by_cases hq : q = p
      · rw [hq, Ledger.at?_note_forgotten, if_pos List.mem_cons_self]
      · rw [Ledger.at?_note_of_ne (Ledger.sound_ofJournal _) (Ne.symm hq), hat]
        simp only [List.mem_cons, hq, false_or]

theorem keeps_shutdown : Respects Keeps shutdown := by
  refine Respects.bind (fun s h => ?_) fun _ => keeps_onTransport _
  have hasked : ∀ p a, s.ledger.at? p = some a → a.sent ≠ [] ∨ a.lost ≠ [] := by
    intro p a ha
    obtain ⟨_, -, htells⟩ := h.exists_link ha
    exact .inl htells.isOpen.asked
  obtain ⟨hv, hat⟩ := valid_forgotten h.valid hasked s.links.ports
  refine ⟨hv, h.sized, List.nodup_nil, fun q => ?_⟩
  have hq : (Ledger.ofJournal (s.links.ports.map Event.forgotten ++ s.journal)).at? q = none := by
    rw [hat]
    split
    · rfl
    · next hq =>
      cases ha : s.ledger.at? q with
      | none => exact ha
      | some a =>
        obtain ⟨l, hl, -⟩ := h.exists_link ha
        exact absurd (Table.mem_ports_iff.2 (by rw [hl]; exact Option.some_ne_none l)) hq
  rw [AgreesAt, ledger]
  dsimp only
  rw [hq]
  exact .none

end Stack

end Tether.Tunnel
