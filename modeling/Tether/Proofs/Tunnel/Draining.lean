import Tether.Proofs.Tunnel.Embedding
import Tether.Proofs.Tunnel.Failure
import Tether.Proofs.Tunnel.Stopping

/-!
# What is left to read when the switchboard has stopped

A switchboard that stops on request tells no stream about it: it takes the routes away, and with
them the feed of each stream. What lies in an inbox by then is still read, piece by piece, and after
it every read fails.

* `Stream.Drains`: a stream that is not fed any more, with what it has to pass;
* `stays_drains`: such it stays, whatever its user does;
* `Session.fed_run`: only streams on routes are fed.
-/

namespace Tether.Tunnel

open Net Call

/-! ## A stream that gets no more -/

namespace Stream

variable {s t : Stream} {bytes : Bytes} {rs first : List Piece} {k most : Nat}

/-- A stream that gets no more and has some bytes to pass, of which reads have returned `rs`: bytes
at first, and once there are none left, that the switchboard is closed. -/
structure Drains (bytes : Bytes) (rs : List Piece) (s : Stream) : Prop where
  isFed : s.isFed = false
  hasEnded : s.hasEnded = false
  plain : IsPlain s.inbox
  reads : ∃ first k, rs = first ++ List.replicate k (.error Switchboard.closed) ∧ IsPlain first ∧
    s.passed first = bytes ∧ (0 < k → s.rest = [] ∧ s.inbox = [])

theorem Drains.of_like (h : s.Drains bytes rs) (ht : s.Like t) : t.Drains bytes rs := by
  obtain ⟨first, k, hrs, hp, hb, hk⟩ := h.reads
  refine ⟨Bool.eq_false_iff.2 fun hfed => ?_, ht.hasEnded.trans h.hasEnded, ht.inbox ▸ h.plain,
    first, k, hrs, hp, ?_, ?_⟩
  · exact absurd (ht.isFed hfed) (by simp [h.isFed])
  · rw [passed, ht.rest, ht.inbox]
    exact hb
  · rw [ht.rest, ht.inbox]
    exact hk

/-- There is something left, so no read has failed yet. -/
theorem Drains.of_left (h : s.Drains bytes rs) (hleft : ¬ (s.rest = [] ∧ s.inbox = [])) :
    IsPlain rs ∧ s.passed rs = bytes := by
  obtain ⟨first, k, rfl, hp, hb, hk⟩ := h.reads
  have hzero : k = 0 := Nat.eq_zero_of_not_pos fun hpos => hleft (hk hpos)
  rw [hzero, List.replicate_zero, List.append_nil]
  exact ⟨hp, hb⟩

/-- What is read as long as there is something left. -/
theorem Drains.of_plain (hf : t.isFed = false) (he : t.hasEnded = false) (hi : IsPlain t.inbox)
    (hp : IsPlain rs) (hb : t.passed rs = bytes) : t.Drains bytes rs :=
  ⟨hf, he, hi, rs, 0, (List.append_nil rs).symm, hp, hb, fun h => absurd h (Nat.lt_irrefl 0)⟩

theorem isFed_reading (s : Stream) (most : Nat) : (s.reading most).1.isFed = s.isFed := by
  unfold reading
  repeat' split
  all_goals rfl

theorem isHeld_reading (s : Stream) (most : Nat) : (s.reading most).1.isHeld = s.isHeld := by
  unfold reading
  repeat' split
  all_goals rfl

/-- A stream that was not told that anything is over does not come to an end by being read. -/
theorem plain_reading (he : s.hasEnded = false) (hp : IsPlain s.inbox) (most : Nat) :
    (s.reading most).1.hasEnded = false ∧ IsPlain (s.reading most).1.inbox := by
  by_cases hr : s.rest = []
  · rcases hi : s.inbox with _ | ⟨p, later⟩
    · rw [reading_of_nil hr he hi]
      exact ⟨he, hp⟩
    · obtain ⟨piece, hne, rfl⟩ := hp p (hi ▸ List.mem_cons_self)
      rw [reading_of_cons hr he hi]
      exact ⟨by simp [Except.toOption, hne], fun q hq => hp q (hi ▸ List.mem_cons_of_mem _ hq)⟩
  · rw [reading_of_rest hr]
    exact ⟨he, hp⟩

/-- Reading such a stream. -/
theorem Drains.read (h : s.Drains bytes rs) (hm : 0 < most) :
    (s.reading most).1.Drains bytes (rs ++ (s.reading most).2.toList) := by
  have hpassed := s.passed_reading rs most
  have hfed := (s.isFed_reading most).trans h.isFed
  obtain ⟨hended, hinbox⟩ := plain_reading h.hasEnded h.plain most
  by_cases hr : s.rest = []
  · rcases hi : s.inbox with _ | ⟨p, later⟩
    · -- Nothing is left, and nothing comes.
      rw [reading_of_nil hr h.hasEnded hi, if_neg (by simp [h.isFed])]
      obtain ⟨first, k, rfl, hp, hb, -⟩ := h.reads
      refine ⟨h.isFed, h.hasEnded, h.plain, first, k + 1, ?_, hp, hb, fun _ => ⟨hr, hi⟩⟩
      rw [List.replicate_succ', List.append_assoc]
      rfl
    · obtain ⟨hplain, hb⟩ := h.of_left fun hleft => by simp [hi] at hleft
      obtain ⟨piece, hne, rfl⟩ := h.plain p (hi ▸ List.mem_cons_self)
      refine .of_plain hfed hended hinbox ?_ (hpassed.trans hb)
      rw [reading_of_cons hr h.hasEnded hi]
      exact hplain.concat (take_ne_nil hm hne)
  · obtain ⟨hplain, hb⟩ := h.of_left fun hleft => hr hleft.1
    refine .of_plain hfed hended hinbox ?_ (hpassed.trans hb)
    rw [reading_of_rest hr]
    exact hplain.concat (take_ne_nil hm hr)

/-- A read of such a stream never waits. -/
theorem Drains.isSome_reading (h : s.Drains bytes rs) (most : Nat) :
    (s.reading most).2.isSome = true := by
  by_cases hr : s.rest = []
  · rcases hi : s.inbox with _ | ⟨p, later⟩
    · simp [reading_of_nil hr h.hasEnded hi, h.isFed]
    · simp [reading_of_cons hr h.hasEnded hi]
  · simp [reading_of_rest hr]

theorem stays_drains (bytes : Bytes) : Stays (Drains bytes) :=
  ⟨fun h ht => h.of_like ht, fun hm h => h.read hm⟩

end Stream

/-! ## Who is fed -/

namespace Switchboard

variable {b c : Switchboard}

/-- Only streams on routes are fed. -/
def Fed (b : Switchboard) : Prop :=
  ∀ (i : Nat) s, b.streams[i]? = some s → s.isFed = true → ∃ p, (p, i) ∈ b.routes

/-- Streams off routes are not fed later either. -/
abbrev Feeds (b c : Switchboard) : Prop :=
  b.Fed → c.Fed

instance : IsPreorder Switchboard Feeds where
  refl _ := id
  trans _ _ _ h h' := h' ∘ h

theorem Feeds.of_eq (hr : c.routes = b.routes) (hs : c.streams = b.streams) : Feeds b c := by
  intro h i s hi hf
  rw [hr]
  exact h i s (hs ▸ hi) hf

theorem feeds_unroute (port : UInt16) : Respects Feeds (unroute port) := by
  refine Respects.modify fun b h i t ht hf => ?_
  dsimp only at ht ⊢
  rw [List.getElem?_mapIdx, Option.map_eq_some_iff] at ht
  obtain ⟨s, hs, rfl⟩ := ht
  split at hf
  · cases hf
  · next hne =>
    -- The stream is on the route of another port.
    obtain ⟨p, hp⟩ := h i s hs hf
    refine ⟨p, List.mem_filter.2 ⟨hp, ?_⟩⟩
    have hpne : p ≠ port := fun heq => hne (heq ▸ hp)
    simpa using hpne

theorem feeds_deliver (i : Nat) (piece : Piece) : Respects Feeds (deliver i piece) := by
  intro b
  rcases hs : b.streams[i]? with _ | s
  · rw [deliver, ends_bind, ends_get, hs]
    exact refl_of Feeds b
  · refine (ends_deliver hs piece).mono (fun _ c hc => ?_) fun _ _ => False.elim
    rw [hc.2]
    split
    · intro h k t ht hf
      by_cases hk : k = i
      · subst hk
        rw [List.getElem?_set_self (List.getElem?_eq_some_iff.1 hs).1] at ht
        obtain rfl := Option.some.inj ht
        exact h k s hs hf
      · rw [List.getElem?_set_ne (Ne.symm hk)] at ht
        exact h k t ht hf
    · exact Feeds.of_eq rfl rfl

theorem feeds_openStream (port : UInt16) : Respects Feeds (openStream port) := by
  intro b
  rw [openStream, ends_bind, ends_get, ends_bind, ends_set, ends_pure]
  intro h i s hs hf
  rcases Nat.lt_trichotomy i b.streams.length with hi | rfl | hi
  · rw [List.getElem?_append_left hi] at hs
    obtain ⟨p, hp⟩ := h i s hs hf
    exact ⟨p, List.mem_append_left _ hp⟩
  · exact ⟨port, List.mem_append_right _ List.mem_cons_self⟩
  · rw [List.getElem?_eq_none (by rw [List.length_append]; exact hi)] at hs
    cases hs

instance : IsPreorder Stack fun _ _ => True where
  refl _ := trivial
  trans _ _ _ _ _ := trivial

theorem feeds_take (turn : Turn) : Respects Feeds (take turn) :=
  respects_take (R := Feeds) (S := fun _ _ => True) (fun act => .top act.call)
    (fun _ _ _ => .of_eq rfl rfl) feeds_unroute feeds_deliver feeds_openStream
    (fun _ _ => .modify fun _ => .of_eq rfl rfl) (fun _ _ => .of_eq rfl rfl)
    (fun _ => .of_eq rfl rfl) turn

theorem Asks.feeds (h : Asks b c) : Feeds b c := by
  intro hb i t ht hf
  obtain ⟨s, hs, hlike⟩ := h.streams i t ht
  rw [h.routes]
  exact hb i s hs (hlike.isFed hf)

end Switchboard

/-! ## Sessions -/

namespace Session

open Switchboard

variable {w : Session} {i : Nat} {s : Stream}

theorem feeds_step (w : Session) (act : Act) : Feeds w.board (w.step act).board := by
  cases act with
  | turn t =>
    have hturn : Respects Feeds (Act.turn t).call := by
      refine Respects.get.bind fun b => ?_
      split
      · exact feeds_take t
      · exact .pure _
    exact hturn.state w.board
  | read i most hm =>
    cases hs : w.board.streams[i]? with
    | none =>
      have hb : (w.step (.read i most hm)).board = w.board := state_read_none hs hm
      rw [hb]
      exact refl_of Feeds _
    | some s =>
      have hb : (w.step (.read i most hm)).board =
          { w.board with streams := w.board.streams.set i (s.reading most).1 } :=
        state_read hs hm
      rw [hb]
      intro h k t ht hf
      by_cases hk : k = i
      · subst hk
        dsimp only at ht
        rw [List.getElem?_set_self (List.getElem?_eq_some_iff.1 hs).1] at ht
        rw [← Option.some.inj ht, Stream.isFed_reading] at hf
        exact h k s hs hf
      · exact h k t ((List.getElem?_set_ne (Ne.symm hk)).symm.trans ht) hf
  | world | tick => exact Feeds.of_eq rfl rfl
  | _ => exact (asks_step w rfl).feeds

/-- Throughout a session, only streams on routes are fed. -/
theorem fed_run (e : Tunnel.Ends) (before : List Stack.Act) (acts : List Act) :
    (run e before acts).board.Fed := by
  have h : (start (Stack.play before (Stack.ofEnds e))).board.Fed := by
    intro _ _ hs
    cases hs
  unfold run
  generalize start (Stack.play before (Stack.ofEnds e)) = w at h
  induction acts generalizing w with
  | nil => exact h
  | cons act acts ih => exact ih _ (w.feeds_step act h)

end Session

end Tether.Tunnel
