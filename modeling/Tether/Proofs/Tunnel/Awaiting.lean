import Tether.Proofs.Tunnel.Carrying

/-!
# What flushes wait for

A flush asks for the outcomes of the writes before it, one after another, and stops at the first that
is not good. A write whose request waits is asked for again by the next flush. Once the switchboard
has stopped, the request is gone and no outcome will ever be noted for it: then a flush fails.

* `Chronicle.awaited_run`: flushes wait for each write whose request waits;
* `Session.Stilled`: what happens to a switchboard that has stopped;
* `Chronicle.awaits_play`: a write without an outcome is waited for until a flush tells that the
  switchboard is closed.
-/

namespace Tether.Tunnel

open Net Call

namespace Switchboard

variable {b c : Switchboard} {i k ticket : Nat} {s : Stream}

/-! ## Flushing -/

/-- A flush that waits for the outcome of a request fails or waits, as long as there is none. Unless
it fails because the switchboard has stopped, the next flush waits for it too. -/
theorem ends_flush_awaiting (hs : b.streams[i]? = some s) (hw : ticket ∈ s.writes)
    (hnone : b.outcomes.lookup ticket = none) :
    (Stream.flush i).Ends b (fun _ _ => False)
      (fun h c => b.isRunning = false ∧ h = .failed closed ∨
        ∃ ts, c = b.awaiting i s ts ∧ ticket ∈ ts ∧
          (b.isRunning = true ∧ h = .waiting ∨
            ∃ t e, t ∈ s.writes ∧ b.outcomes.lookup t = some (.error e) ∧ h = .failed e)) := by
  have hgood : ¬ b.Succeeded ticket := by
    rintro ⟨k, hk⟩
    cases hnone.symm.trans hk
  refine (ends_flush hs).mono (fun _ c hc => hgood (hc.1 ticket hw)) fun h c hc => ?_
  obtain ⟨done, t, rest, htickets, hdone, hc⟩ := hc
  have hleft : ticket ∈ t :: rest := by
    rw [htickets] at hw
    exact (List.mem_append.1 hw).resolve_left fun hm => hgood (hdone ticket hm)
  have ht : t ∈ s.writes := htickets ▸ List.mem_append_right _ List.mem_cons_self
  rcases hc with ⟨e, rfl, rfl, herror | ⟨-, hstopped, rfl⟩⟩ | ⟨rfl, hr, rfl⟩
  · -- Another write has failed, and the next flush goes on behind it.
    have hrest : ticket ∈ rest := by
      refine (List.mem_cons.1 hleft).resolve_left fun heq => ?_
      rw [heq, herror] at hnone
      cases hnone
    exact .inr ⟨rest, rfl, hrest, .inr ⟨t, e, ht, herror, rfl⟩⟩
  · exact .inl ⟨hstopped, rfl⟩
  · exact .inr ⟨t :: rest, rfl, hleft, .inl ⟨hr, rfl⟩⟩

theorem streams_awaiting (hs : b.streams[i]? = some s) (ts : List Nat) :
    (b.awaiting i s ts).streams[i]? = some { s with writes := ts } :=
  List.getElem?_set_self (List.getElem?_eq_some_iff.1 hs).1

/-- A flush of another stream. -/
theorem streams_flush_of_ne (hk : k ≠ i) :
    ((Stream.flush k).state b).streams[i]? = b.streams[i]? := by
  refine Call.Ends.state (P := fun c : Switchboard => c.streams[i]? = b.streams[i]?) ?_
  cases hs : b.streams[k]? with
  | none => exact (ends_find_none hs).mono (fun _ _ => False.elim) fun _ _ hc => hc.2 ▸ rfl
  | some s =>
    have hother (ts : List Nat) : (b.awaiting k s ts).streams[i]? = b.streams[i]? :=
      List.getElem?_set_ne hk
    refine (ends_flush hs).mono (fun _ c hc => hc.2 ▸ hother []) fun _ c hc => ?_
    obtain ⟨-, t, rest, -, -, ⟨-, -, rfl, -⟩ | ⟨-, -, rfl⟩⟩ := hc
    · exact hother _
    · exact hother _

/-- Flushes wait for the outcome of each write whose request waits. -/
def Awaited (m : Records) (b : Switchboard) : Prop :=
  b.isRunning = true → ∀ x ∈ m.writes, ∀ r, (x.ticket, r) ∈ b.requests →
    ∃ s, b.streams[x.stream]? = some s ∧ x.ticket ∈ s.writes

/-! ## A switchboard that has stopped -/

/-- A switchboard that has stopped takes no requests and notes no outcomes. -/
abbrev Halts (b c : Switchboard) : Prop :=
  b.isRunning = false →
    c.isRunning = false ∧ c.requests = b.requests ∧ c.outcomes = b.outcomes

instance : IsPreorder Switchboard Halts where
  refl _ h := ⟨h, rfl, rfl⟩
  trans b c d h h' hb := by
    obtain ⟨hc, hr, ho⟩ := h hb
    obtain ⟨hd, hr', ho'⟩ := h' hc
    exact ⟨hd, hr'.trans hr, ho'.trans ho⟩

theorem halts_call {act : Act} (h : ∀ t, act ≠ .turn t) : Respects Halts act.call := by
  refine respects_call (fun request b => ?_) (fun b c hq hb => ?_) (fun _ _ _ hb => ⟨hb, rfl, rfl⟩) h
  · refine (ends_post b request).mono (fun _ c hc hb => ?_) fun _ c hc => ?_
    · cases hc.1.symm.trans hb
    · rw [hc.2.2]
      exact refl_of Halts b
  · obtain ⟨_, _, _, rfl⟩ := hq
    exact ⟨hb, rfl, rfl⟩

end Switchboard

/-! ## Sessions -/

namespace Session

open Switchboard

/-- Two moments of a switchboard that has stopped. -/
structure Stilled (b c : Switchboard) : Prop where
  isRunning : c.isRunning = false
  requests : c.requests = b.requests
  outcomes : c.outcomes = b.outcomes
  links : c.stack.links = b.stack.links
  journal : c.stack.journal = b.stack.journal
  isShut : c.stack.transport.isShut = b.stack.transport.isShut

theorem Stilled.refl {b : Switchboard} (h : b.isRunning = false) : Stilled b b :=
  ⟨h, rfl, rfl, rfl, rfl, rfl⟩

theorem Stilled.trans {b c d : Switchboard} (h : Stilled b c) (h' : Stilled c d) : Stilled b d :=
  ⟨h'.isRunning, h'.requests.trans h.requests, h'.outcomes.trans h.outcomes, h'.links.trans h.links,
    h'.journal.trans h.journal, h'.isShut.trans h.isShut⟩

theorem isShut_step (w : Session) {act : Act} (h : ∀ t, act ≠ .turn t) :
    (w.step act).board.stack.transport.isShut = w.board.stack.transport.isShut := by
  cases act with
  | read i most hm =>
    cases hs : w.board.streams[i]? with
    | none =>
      have hb : (w.step (.read i most hm)).board = w.board := state_read_none hs hm
      rw [hb]
    | some s =>
      have hb : (w.step (.read i most hm)).board =
          { w.board with streams := w.board.streams.set i (s.reading most).1 } :=
        state_read hs hm
      rw [hb]
  | turn t => exact absurd rfl (h t)
  | world | tick => rfl
  | _ => rw [(asks_step w rfl).stack]

theorem stilled_step {w : Session} (hr : w.board.isRunning = false) (act : Act) :
    Stilled w.board (w.step act).board := by
  by_cases hturn : ∃ t, act = .turn t
  · obtain ⟨t, rfl⟩ := hturn
    rw [board_step_of_stopped hr]
    exact .refl hr
  · have hturn : ∀ t, act ≠ .turn t := fun t ht => hturn ⟨t, ht⟩
    obtain ⟨hr', hrequests, houtcomes⟩ := (halts_call hturn).state w.board hr
    have hstands := stands_step w hturn
    exact ⟨hr', hrequests, houtcomes, hstands.links, hstands.journal, isShut_step w hturn⟩

theorem stilled_play {w : Session} (hr : w.board.isRunning = false) (acts : List Act) :
    Stilled w.board (w.play acts).board := by
  induction acts generalizing w with
  | nil => exact .refl hr
  | cons act acts ih =>
    have hstep := stilled_step hr act
    exact hstep.trans (ih hstep.isRunning)

end Session

namespace Chronicle

open Switchboard

variable {c : Chronicle} {i ticket : Nat} {s : Stream}

/-- Only flushes of a stream take something from what its flushes wait for. -/
theorem writes_step (hc : c.Sound) {act : Act} (hact : act ≠ .flush i)
    (hs : c.board.streams[i]? = some s) :
    ∃ t, (c.step act).board.streams[i]? = some t ∧ s.writes ⊆ t.writes := by
  have hkin (h : ∃ t, (c.step act).board.streams[i]? = some t ∧ s.Kin t) :
      ∃ t, (c.step act).board.streams[i]? = some t ∧ s.writes ⊆ t.writes := by
    obtain ⟨t, ht, hkin⟩ := h
    exact ⟨t, ht, hkin.writes ▸ List.Subset.refl _⟩
  have hasked := asked_call (b := c.board) act
  cases act with
  | turn t =>
    cases hr : c.board.isRunning with
    | true =>
      have hturned : Turned c.board t (c.step (.turn t)).board := hc.turned t hr
      exact hkin (hturned.streams hs)
    | false =>
      have hb : (c.step (.turn t)).board = c.board := Session.board_step_of_stopped hr t
      exact ⟨s, hb ▸ hs, List.Subset.refl _⟩
  | write k bytes =>
    by_cases hk : k < c.board.streams.length ∧ c.board.isRunning = true
    · rw [board_write (List.getElem?_eq_getElem hk.1) hk.2 bytes]
      dsimp only
      by_cases hki : k = i
      · subst hki
        rw [List.getElem?_set_self hk.1]
        obtain rfl := Option.some.inj ((List.getElem?_eq_getElem hk.1).symm.trans hs)
        exact ⟨_, rfl, List.subset_append_left _ _⟩
      · exact ⟨s, (List.getElem?_set_ne hki).trans hs, List.Subset.refl _⟩
    · exact ⟨s, (board_write_of_not hk bytes).symm ▸ hs, List.Subset.refl _⟩
  | flush k =>
    have hki : k ≠ i := fun h => hact (h ▸ rfl)
    exact ⟨s, (streams_flush_of_ne hki).trans hs, List.Subset.refl _⟩
  | _ => exact hkin ((hasked nofun nofun nofun).streams i s hs)

theorem awaited_step (hc : c.Sound) (hn : c.board.Numbered) (hb : Booked c.toRecords c.board)
    (h : Awaited c.toRecords c.board) (act : Act) :
    Awaited (c.step act).toRecords (c.step act).board := by
  intro hr x hx r hm
  have hlater : Later c.board (c.step act).board := hc.later_step act
  have hx : x ∈ c.writes ++ act.writes c.board := hx
  rcases List.mem_append.1 hx with hx | hx
  · -- The request of an older write waited before.
    have hwait : (x.ticket, r) ∈ c.board.requests :=
      (hlater.requests _ hm).resolve_right (Nat.not_le.2 (hb.known x hx).1)
    obtain ⟨s, hs, hw⟩ := h (hlater.isRunning hr) x hx r hwait
    by_cases hact : act = .flush x.stream
    · subst hact
      have hflush : ∃ ts, (c.step (.flush x.stream)).board = c.board.awaiting x.stream s ts ∧
          x.ticket ∈ ts := by
        refine Call.Ends.state
          (P := fun d => ∃ ts, d = c.board.awaiting x.stream s ts ∧ x.ticket ∈ ts) ?_
        refine (ends_flush_awaiting hs hw (hn.lookup_eq_none hwait)).mono (fun _ _ => False.elim)
          fun _ d hd => ?_
        rcases hd with ⟨hstopped, -⟩ | ⟨ts, rfl, hts, -⟩
        · cases (hlater.isRunning hr).symm.trans hstopped
        · exact ⟨ts, rfl, hts⟩
      obtain ⟨ts, hboard, hts⟩ := hflush
      exact ⟨_, hboard ▸ streams_awaiting hs ts, hts⟩
    · obtain ⟨t, ht, hsub⟩ := writes_step hc hact hs
      exact ⟨t, ht, hsub hw⟩
  · cases act with
    | write i bytes =>
      rw [Act.writes] at hx
      split at hx
      · next hi =>
        rw [List.mem_singleton.1 hx, board_write (List.getElem?_eq_getElem hi.1) hi.2 bytes]
        exact ⟨_, List.getElem?_set_self hi.1, List.mem_append_right _ List.mem_cons_self⟩
      · cases hx
    | _ => cases hx

/-- Throughout a session, flushes wait for each write whose request waits. -/
theorem awaited_run (e : Tunnel.Ends) (before : List Stack.Act) (acts : List Act) :
    Awaited (run e before acts).toRecords (run e before acts).board := by
  induction acts using List.reverseRecOn with
  | nil => exact fun _ _ hx => absurd hx List.not_mem_nil
  | append_singleton acts act ih =>
    rw [run_append]
    refine awaited_step ?_ ?_ (booked_run e before acts) ih act
    · rw [toSession_run]
      exact Session.sound_run e before acts
    · rw [toSession_run]
      exact Session.numbered_run e before acts

/-- Once the switchboard has stopped, a write without an outcome is waited for until a flush tells
that the switchboard is closed. -/
theorem awaits_play (hc : c.Sound) (hr : c.board.isRunning = false)
    (hs : c.board.streams[i]? = some s) (hw : ticket ∈ s.writes)
    (hnone : c.board.outcomes.lookup ticket = none) (acts : List Act) :
    (∃ t, (c.play acts).board.streams[i]? = some t ∧ ticket ∈ t.writes) ∨
      ∃ earlier rest, acts = earlier ++ .flush i :: rest ∧
        (Stream.flush i).Ends (c.play earlier).board (fun _ _ => False)
          (fun h _ => h = .failed closed) := by
  induction acts generalizing c s with
  | nil => exact .inl ⟨s, hs, hw⟩
  | cons act acts ih =>
    have hstilled : Session.Stilled c.board (c.step act).board := Session.stilled_step hr act
    have hsound : (c.step act).Sound := hc.step act
    have hrest {t : Stream} (ht : (c.step act).board.streams[i]? = some t) (htw : ticket ∈ t.writes) :
        (∃ t, (c.play (act :: acts)).board.streams[i]? = some t ∧ ticket ∈ t.writes) ∨
          ∃ earlier rest, act :: acts = earlier ++ .flush i :: rest ∧
            (Stream.flush i).Ends (c.play earlier).board (fun _ _ => False)
              (fun h _ => h = .failed closed) := by
      refine (ih hsound hstilled.isRunning ht htw (hstilled.outcomes ▸ hnone)).imp_right ?_
      rintro ⟨earlier, rest, rfl, hflush⟩
      exact ⟨act :: earlier, rest, rfl, hflush⟩
    by_cases hact : act = .flush i
    · subst hact
      have hflush := ends_flush_awaiting hs hw hnone
      have hself := ends_state (Stream.flush i) c.board
      cases hrun : Stream.flush i c.board with
      | ok _ d =>
        rw [Call.Ends, hrun] at hflush
        exact hflush.elim
      | error h d =>
        rw [Call.Ends, hrun] at hflush hself
        rcases hflush with ⟨-, rfl⟩ | ⟨ts, rfl, hts, -⟩
        · refine .inr ⟨[], acts, rfl, ?_⟩
          rw [play, List.foldl_nil, Call.Ends, hrun]
        · have hboard : (c.step (.flush i)).board = c.board.awaiting i s ts := hself.symm
          exact hrest (hboard ▸ streams_awaiting hs ts) hts
    · obtain ⟨t, ht, hsub⟩ := writes_step hc hact hs
      exact hrest ht (hsub hw)

end Chronicle

end Tether.Tunnel
