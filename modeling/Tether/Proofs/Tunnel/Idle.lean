import Tether.Proofs.Tunnel.Flushing

/-!
# Sending on one connection

A flush sends what is queued on any connection, so it concerns one connection only as long as
nothing is queued on all others. Calls that send do not wait, and empty the queue before they
send, so whatever comes of them, nothing is left in it.

* `prompt_transmit`, `prompt_accept`, ...: calls that do not wait;
* `ends_send`: what becomes of bytes, if no other connection has anything to send.
-/

namespace Tether.Tunnel

open Net Call

namespace Stack

variable {s : Stack} {port : UInt16}

theorem prompt_transmit (port : UInt16) (control : Control) (payload : Bytes) :
    Prompt (transmit port control payload) := by
  intro s
  cases hl : s.links.get? port with
  | none =>
    unfold transmit
    rw [ends_bind]
    refine (ends_linkAt_none hl).mono (fun _ _ => False.elim) fun _ _ ht => ?_
    rw [ht.1]
    nofun
  | some l => exact (ends_transmit hl _ _).mono (fun _ _ _ => trivial) fun _ _ ht => ht.1

theorem prompt_accept (x : Segment) : Prompt (accept x) := by
  refine Prompt.get.bind fun s => ?_
  cases s.links.get? x.destination with
  | none => exact .pure _
  | some link =>
    dsimp only
    split
    · refine (Prompt.modify _).bind fun _ => (Prompt.modify _).bind fun _ => ?_
      split
      · exact prompt_transmit _ _ _
      · exact .pure _
    · exact .pure _

theorem prompt_handlePackets (fuel : Nat) : Prompt (handlePackets fuel) := by
  induction fuel with
  | zero => exact .pure _
  | succ fuel ih =>
    refine Prompt.get.bind fun s => ?_
    dsimp only
    split
    · exact .pure _
    · exact (Prompt.modify _).bind fun _ => .fail _
    · refine (Prompt.modify _).bind fun _ => (Prompt.modify _).bind fun _ =>
        Prompt.bind (Prompt.get.bind fun s => ?_) fun _ => ih
      split
      · exact prompt_accept _
      · exact .pure _

/-- Where processing waits, nothing has happened to the connections. -/
theorem ends_process_waiting (s : Stack) :
    process.Ends s (fun _ _ => True) (fun h t => h = .waiting → t.journal = s.journal) := by
  unfold process
  rw [ends_bind]
  refine (grows_fill s).mono (fun _ t _ => ?_) fun _ _ ht _ => ht.journal_eq
  have hp : Prompt handleBuffered := Prompt.get.bind fun _ => prompt_handlePackets _
  exact (hp t).mono (fun _ _ _ => trivial) fun _ _ hne hw => absurd hw hne

theorem prompt_linkAt (port : UInt16) : Prompt (linkAt port) :=
  Prompt.get.bind fun _ => .ofOption _

theorem prompt_flushLink (port : UInt16) : Prompt (flushLink port) :=
  (prompt_linkAt port).bind fun _ => (Prompt.modify _).bind fun _ => Prompt.get.bind fun _ =>
    Prompt.forM fun _ => (prompt_transmit port _ _).bind fun _ =>
      (prompt_linkAt port).bind fun _ => .modify _

/-- Nothing is queued on the connection of a port. -/
def IsIdle (port : UInt16) (s : Stack) : Prop :=
  ∀ l, s.links.get? port = some l → l.queued = []

/-- What is idle stays idle. -/
abbrev Idles (port : UInt16) (s t : Stack) : Prop :=
  s.IsIdle port → t.IsIdle port

instance : IsPreorder Stack (Idles port) where
  refl _ := id
  trans _ _ _ h h' := h' ∘ h

theorem idles_transmit (port : UInt16) (control : Control) (payload : Bytes) :
    Respects (Idles port) (transmit port control payload) := by
  intro s
  cases hl : s.links.get? port with
  | none =>
    unfold transmit
    rw [ends_bind]
    refine (ends_linkAt_none hl).mono (fun _ _ => False.elim) fun _ t ht => ?_
    rw [ht.2]
    exact id
  | some l =>
    refine (ends_transmit hl _ _).mono (fun _ t ht => ?_) fun _ t ht => ?_
    · obtain ⟨_, _, _, -, -, rfl⟩ := ht
      exact id
    · obtain ⟨-, _, _, rfl⟩ := ht
      exact id

theorem idles_sendPiece (port : UInt16) (piece : Bytes) :
    Respects (Idles port) (sendPiece port piece) := by
  refine (idles_transmit port _ _).bind fun _ s => ?_
  cases hl : s.links.get? port with
  | none =>
    rw [ends_bind]
    refine (ends_linkAt_none hl).mono (fun _ _ => False.elim) fun _ t ht => ?_
    rw [ht.2]
    exact id
  | some l =>
    rw [ends_bind]
    refine (ends_linkAt hl).mono (fun l' t ht => ?_) fun _ _ => False.elim
    obtain ⟨rfl, rfl⟩ := ht
    intro hidle l hl'
    rw [Table.get?_update_self hl] at hl'
    obtain rfl := Option.some.inj hl'
    exact hidle l' hl

/-- The queue is emptied before anything is sent. -/
theorem isIdle_flushLink (port : UInt16) (s : Stack) :
    (flushLink port).Ends s (fun _ t => t.IsIdle port) (fun _ t => t.IsIdle port) := by
  unfold flushLink
  rw [ends_bind]
  cases hl : s.links.get? port with
  | none =>
    refine (ends_linkAt_none hl).mono (fun _ _ => False.elim) fun _ t ht l hl' => ?_
    rw [ht.2, hl] at hl'
    cases hl'
  | some l =>
    refine (ends_linkAt hl).mono (fun l' t ht => ?_) fun _ _ => False.elim
    obtain ⟨rfl, rfl⟩ := ht
    have hidle : IsIdle port
        { t with links := t.links.update port { l' with queued := [] } } := by
      intro l hl'
      rw [Table.get?_update_self hl] at hl'
      obtain rfl := Option.some.inj hl'
      rfl
    unfold setLink
    rw [ends_bind, ends_modify, ends_bind, ends_get]
    exact (Respects.forM (fun piece _ => idles_sendPiece port piece) _).mono
      (fun _ _ ht => ht hidle) fun _ _ ht => ht hidle

/-- What a flush goes through if only one connection has anything to send. -/
theorem ports_busy (h : s.Kept) (hidle : ∀ p, p ≠ port → s.IsIdle p) :
    Table.ports (s.links.filter fun entry => !entry.2.queued.isEmpty) = [port] ∨
      Table.ports (s.links.filter fun entry => !entry.2.queued.isEmpty) = [] ∧ s.IsIdle port := by
  have hsub : (s.links.filter fun entry => !entry.2.queued.isEmpty).Sublist s.links :=
    List.filter_sublist
  have hnodup := h.nodup.sublist (hsub.map Prod.fst)
  have hall : ∀ p ∈ (s.links.filter fun entry => !entry.2.queued.isEmpty).map Prod.fst,
      p = port := by
    intro p hp
    obtain ⟨⟨q, l⟩, hl, rfl⟩ := List.mem_map.1 hp
    obtain ⟨hl, hq⟩ := List.mem_filter.1 hl
    by_contra hne
    rw [hidle q hne l (Table.get?_of_mem h.nodup hl)] at hq
    simp at hq
  have hport : ∀ l, s.links.get? port = some l → l.queued ≠ [] →
      port ∈ (s.links.filter fun entry => !entry.2.queued.isEmpty).map Prod.fst :=
    fun l hl hq => List.mem_map.2
      ⟨(port, l), List.mem_filter.2 ⟨Table.mem_of_get? hl, by simpa using hq⟩, rfl⟩
  dsimp only [Table.ports]
  generalize (s.links.filter fun entry => !entry.2.queued.isEmpty).map Prod.fst = ports
    at hnodup hall hport
  cases ports with
  | nil =>
    refine .inr ⟨rfl, fun l hl => ?_⟩
    by_contra hq
    exact absurd (hport l hl hq) List.not_mem_nil
  | cons p ports =>
    obtain rfl := hall p List.mem_cons_self
    refine .inl (congrArg (p :: ·) (List.eq_nil_iff_forall_not_mem.2 fun q hq => ?_))
    rw [hall q (List.mem_cons_of_mem _ hq)] at hq
    exact (List.nodup_cons.1 hnodup).1 hq

/-- What a flush does if only one connection has anything to send. -/
theorem ends_flush_idle (h : s.Kept) (hidle : ∀ p, p ≠ port → s.IsIdle p) :
    flush.Ends s (fun _ t => t.Kept ∧ Grows (PostsOf port) s t ∧ t.IsIdle port)
      (fun h t => h ≠ .waiting ∧ t.Kept ∧ Grows (PostsOf port) s t ∧ t.IsIdle port) := by
  unfold flush
  rw [ends_bind, ends_get]
  dsimp only
  rcases ports_busy h hidle with hports | ⟨hports, hnone⟩
  · rw [hports, List.forM, ends_bind]
    exact (((keeps_flushLink port s).and (grows_flushLink port s)).and
      ((isIdle_flushLink port s).and (prompt_flushLink port s))).mono
      (fun _ _ ht => ⟨ht.1.1 h, ht.1.2, ht.2.1⟩) fun _ _ ht => ⟨ht.2.2, ht.1.1 h, ht.1.2, ht.2.1⟩
  · rw [hports]
    exact ⟨h, .refl s, hnone⟩

/-- What sending bytes does if no other connection has anything to send. -/
theorem ends_send (h : s.Kept) (hidle : ∀ p, s.IsIdle p) (port : UInt16) (bytes : Bytes) :
    (do queue port bytes; flush : Call TunnelError Stack Unit).Ends s
      (fun _ t => t.Kept ∧ t.IsIdle port ∧
        Grows (fun e => e = .queued port bytes ∨ PostsOf port e) s t)
      (fun h t => h ≠ .waiting ∧ t.Kept ∧ t.IsIdle port ∧
        Grows (fun e => e = .queued port bytes ∨ PostsOf port e) s t) := by
  rw [ends_bind]
  by_cases hc : ∃ l, s.links.get? port = some l ∧ l.status = .connected
  · obtain ⟨l, hl, hs⟩ := hc
    refine ((ends_queue h hl hs bytes).and (grows_queue port bytes s)).mono (fun _ t ht => ?_)
      fun _ _ ht => ht.1.elim
    obtain ⟨⟨hk, -, hlinks⟩, hg⟩ := ht
    have hidle' : ∀ p, p ≠ port → t.IsIdle p := by
      intro p hp l' hl'
      rw [hlinks, Table.get?_update_of_ne hp] at hl'
      exact hidle p l' hl'
    have hg' := hg.mono fun e he => Or.inl (b := PostsOf port e) he
    refine (ends_flush_idle hk hidle').mono (fun _ u hu => ?_) fun _ u hu => ?_
    · exact ⟨hu.1, hu.2.2, hg'.trans (hu.2.1.mono fun _ => .inr)⟩
    · exact ⟨hu.1, hu.2.1, hu.2.2.2, hg'.trans (hu.2.2.1.mono fun _ => .inr)⟩
  · refine (ends_queue_of_not (fun l hl hs => hc ⟨l, hl, hs⟩) bytes).mono (fun _ _ => False.elim)
      fun _ t ht => ?_
    obtain ⟨rfl, rfl⟩ := ht
    exact ⟨nofun, h, hidle port, .refl _⟩

end Stack

end Tether.Tunnel
