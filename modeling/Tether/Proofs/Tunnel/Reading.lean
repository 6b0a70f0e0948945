import Tether.Proofs.Tunnel.Receiving
import Tether.Proofs.Tunnel.Turns

/-!
# What reads return

A read takes from what is left of a piece, or else from the inbox. Either way it moves bytes from
a stream to its user, and what the stream has passed stays the same: so what a switchboard
delivers reaches its users whole and in order, whatever the sizes that reads ask for.

* `Stream.reading`: what a read does to a stream and what it returns;
* `Stream.Faithful.read`: a stream that is true to its account stays so when it is read;
* `Session.bytesOf_readsOf_prefix_accepted`: what all reads of a stream have returned, under any
  schedule.
-/

namespace Tether.Tunnel

open Net Call

namespace Stream

/-- What a read makes of a stream, and what it returns, which is nothing if it waits. -/
def reading (s : Stream) (most : Nat) : Stream × Option Piece :=
  if s.rest ≠ [] then ({ s with rest := s.rest.drop most }, some (.ok (s.rest.take most)))
  else if s.hasEnded then (s, some (.ok []))
  else
    match s.inbox with
    | [] => (s, if s.isFed then none else some (.error Switchboard.closed))
    | piece :: later =>
      let bytes := piece.toOption.getD []
      ({ s with inbox := later, rest := bytes.drop most, hasEnded := piece.toOption = some [] },
        some (piece.map (·.take most)))

variable {a : Account} {rs later : List Piece} {isLive isFelled : Prop} {b : Switchboard}
  {s t : Stream} {i most : Nat} {r p : Piece}

theorem reading_of_rest (hr : s.rest ≠ []) (most : Nat) :
    s.reading most = ({ s with rest := s.rest.drop most }, some (.ok (s.rest.take most))) :=
  if_pos hr

theorem reading_of_ended (hr : s.rest = []) (he : s.hasEnded = true) (most : Nat) :
    s.reading most = (s, some (.ok [])) := by
  rw [reading, if_neg (not_not.2 hr), if_pos he]

theorem reading_of_nil (hr : s.rest = []) (he : s.hasEnded = false) (hi : s.inbox = [])
    (most : Nat) :
    s.reading most = (s, if s.isFed then none else some (.error Switchboard.closed)) := by
  rw [reading, if_neg (not_not.2 hr), if_neg (by simp [he]), hi]

theorem reading_of_cons (hr : s.rest = []) (he : s.hasEnded = false) (hi : s.inbox = p :: later)
    (most : Nat) :
    s.reading most =
      ({ s with
          inbox := later
          rest := (p.toOption.getD []).drop most
          hasEnded := p.toOption = some [] },
        some (p.map (·.take most))) := by
  rw [reading, if_neg (not_not.2 hr), if_neg (by simp [he]), hi]

theorem port_reading (s : Stream) (most : Nat) : (s.reading most).1.port = s.port := by
  unfold reading
  repeat' split
  all_goals rfl

theorem ends_find (hs : b.streams[i]? = some s) :
    (find i).Ends b (fun t c => t = s ∧ c = b) (fun _ _ => False) := by
  unfold find
  rw [ends_bind, ends_get, hs]
  exact ⟨rfl, rfl⟩

theorem ends_read (hs : b.streams[i]? = some s) (most : Nat) :
    (read i most).Ends b
      (fun bytes c => (s.reading most).2 = some (.ok bytes) ∧
        c = { b with streams := b.streams.set i (s.reading most).1 })
      (fun h c => (s.reading most).2 = (match h with
          | .failed e => some (.error e)
          | .waiting => none) ∧
        c = { b with streams := b.streams.set i (s.reading most).1 }) := by
  have hset : b = { b with streams := b.streams.set i s } := by
    obtain ⟨hi, rfl⟩ := List.getElem?_eq_some_iff.1 hs
    rw [List.set_getElem_self]
  unfold read
  rw [ends_bind]
  refine (ends_find hs).mono (fun t c hc => ?_) fun _ _ => False.elim
  obtain ⟨rfl, rfl⟩ := hc
  by_cases hr : t.rest = []
  · rw [if_neg (by simp [hr])]
    cases he : t.hasEnded with
    | true =>
      rw [if_pos rfl, reading_of_ended hr he]
      exact ⟨rfl, hset⟩
    | false =>
      rw [if_neg Bool.false_ne_true]
      cases hi : t.inbox with
      | nil =>
        rw [reading_of_nil hr he hi]
        dsimp only
        split
        · exact ⟨rfl, hset⟩
        · exact ⟨rfl, hset⟩
      | cons p later =>
        rw [reading_of_cons hr he hi]
        cases p with
        | ok bytes => exact ⟨rfl, rfl⟩
        | error e => exact ⟨rfl, rfl⟩
  · rw [if_pos (by simpa using hr), reading_of_rest hr]
    exact ⟨rfl, rfl⟩

/-- A read returns `r`, and what the stream has passed stays the same. -/
theorem Faithful.returns (h : s.Faithful a rs isLive isFelled)
    (hpassed : t.passed (rs ++ [r]) = s.passed rs) (hheld : t.isHeld = s.isHeld)
    (hphase : t.Phase a (rs ++ [r]) isLive isFelled)
    (hold : s.hasEnded = true → t.hasEnded = true ∧ r = .ok [])
    (hnil : r = .ok [] → t.hasEnded = true ∧ bytesOf rs = a.accepted ∧
      a.heard.status = .ended .unexpectedEof)
    (herror : ∀ e, r = .error e → e.fault = .connectionReset → ¬ isFelled →
      bytesOf rs = a.accepted ∧ a.heard.status = .ended .connectionReset) :
    t.Faithful a (rs ++ [r]) isLive isFelled where
  flow := hpassed ▸ h.flow
  whole hl hh := hpassed.trans (h.whole hl (hheld ▸ hh))
  phase := hphase
  empties k hk := by
    rcases Nat.lt_trichotomy k rs.length with hlt | rfl | hlt
    · -- An earlier read has met the end, so this one does too.
      rw [List.getElem?_append_left hlt] at hk
      obtain ⟨he, hb, hs, hlater⟩ := h.empties k hk
      obtain ⟨he', hr⟩ := hold he
      refine ⟨he', by rwa [List.take_append_of_le_length (Nat.le_of_lt hlt)], hs, fun j r' hj hr' => ?_⟩
      by_cases hjl : j < rs.length
      · rw [List.getElem?_append_left hjl] at hr'
        exact hlater j r' hj hr'
      · rw [List.getElem?_append_right (Nat.le_of_not_lt hjl)] at hr'
        obtain rfl := List.mem_singleton.1 (List.mem_of_getElem? hr')
        exact hr
    · rw [List.getElem?_concat_length] at hk
      obtain ⟨he, hb, hs⟩ := hnil (Option.some.inj hk)
      refine ⟨he, by rwa [List.take_left], hs, fun j r' hj hr' => ?_⟩
      rw [List.getElem?_append_right hj] at hr'
      obtain rfl := List.mem_singleton.1 (List.mem_of_getElem? hr')
      exact Option.some.inj hk
    · rw [List.getElem?_eq_none (by rw [List.length_append]; exact hlt)] at hk
      cases hk
  resets k e hk he hn := by
    rcases Nat.lt_trichotomy k rs.length with hlt | rfl | hlt
    · rw [List.getElem?_append_left hlt] at hk
      rw [List.take_append_of_le_length (Nat.le_of_lt hlt)]
      exact h.resets k e hk he hn
    · rw [List.getElem?_concat_length] at hk
      rw [List.take_left]
      exact herror e (Option.some.inj hk) he hn
    · rw [List.getElem?_eq_none (by rw [List.length_append]; exact hlt)] at hk
      cases hk

theorem take_ne_nil {bytes : Bytes} (hm : 0 < most) (hb : bytes ≠ []) : bytes.take most ≠ [] := by
  cases most with
  | zero => exact absurd hm (Nat.lt_irrefl 0)
  | succ most => simpa using hb

/-- A read of what is left of a piece. -/
theorem Faithful.read_rest (h : s.Faithful a rs isLive isFelled) (hm : 0 < most)
    (hr : s.rest ≠ []) :
    Faithful a (rs ++ [.ok (s.rest.take most)]) isLive isFelled
      { s with rest := s.rest.drop most } := by
  have hpassed : passed (rs ++ [.ok (s.rest.take most)]) { s with rest := s.rest.drop most } =
      s.passed rs := by
    rw [passed, passed, bytesOf_append, bytesOf_ok, List.append_assoc (bytesOf rs),
      List.take_append_drop]
  have he : s.hasEnded = false ∧
      ({ s with rest := s.rest.drop most } : Stream).Phase a
        (rs ++ [.ok (s.rest.take most)]) isLive isFelled := by
    rcases h.phase with ⟨he, hp⟩ | ⟨first, last, he, hl, hi, hp, hf⟩ | ⟨-, -, -, hr', -⟩
    · exact ⟨he, .plain he hp⟩
    · exact ⟨he, .told first last he hl hi hp (hpassed ▸ hf)⟩
    · exact absurd hr' hr
  exact h.returns hpassed rfl he.2 (fun he' => by simp [he.1] at he')
    (fun hnil => absurd (Except.ok.inj hnil) (take_ne_nil hm hr))
    fun _ he => by cases he

/-- A read of a piece with bytes. -/
theorem Faithful.read_bytes {bytes : Bytes} (h : s.Faithful a rs isLive isFelled) (hm : 0 < most)
    (hr : s.rest = []) (he : s.hasEnded = false) (hi : s.inbox = .ok bytes :: later)
    (hb : bytes ≠ []) :
    Faithful a (rs ++ [.ok (bytes.take most)]) isLive isFelled
      { s with inbox := later, rest := bytes.drop most, hasEnded := false } := by
  have hpassed : passed (rs ++ [.ok (bytes.take most)])
      { s with inbox := later, rest := bytes.drop most, hasEnded := false } = s.passed rs := by
    have hcons : bytesOf (.ok bytes :: later) = bytes ++ bytesOf later := rfl
    rw [passed, passed, bytesOf_append, bytesOf_ok, List.append_assoc (bytesOf rs),
      List.take_append_drop, hr, hi, hcons, List.append_nil, List.append_assoc]
  refine h.returns hpassed rfl ?_ (fun he' => by simp [he] at he')
    (fun hnil => absurd (Except.ok.inj hnil) (take_ne_nil hm hb))
    fun _ he => by cases he
  rcases h.phase with ⟨-, hp⟩ | ⟨first, last, -, hl, hi', hp, hf⟩ | ⟨he', -⟩
  · rw [hi] at hp
    exact .plain rfl fun p hp' => hp p (List.mem_cons_of_mem _ hp')
  · cases first with
    | nil =>
      -- A last piece is without bytes.
      rw [hi] at hi'
      obtain ⟨rfl, -⟩ := List.cons.inj hi'
      exact absurd hf.1 hb
    | cons p first =>
      rw [hi] at hi'
      exact .told first last rfl hl (List.cons.inj hi').2
        (fun q hq => hp q (List.mem_cons_of_mem _ hq)) (hpassed ▸ hf)
  · rw [he] at he'
    cases he'

/-- A read of the last piece. -/
theorem Faithful.read_last (h : s.Faithful a rs isLive isFelled) (hr : s.rest = [])
    (he : s.hasEnded = false) (hi : s.inbox = [p]) (hl : ¬ isLive)
    (hf : IsFinal a (s.passed rs) isFelled p) :
    Faithful a (rs ++ [p.map (·.take most)]) isLive isFelled
      { s with
        inbox := [], rest := (p.toOption.getD []).drop most, hasEnded := p.toOption = some [] } := by
  cases p with
  | ok bytes =>
    obtain rfl := hf.1
    have hall : s.passed rs = bytesOf rs := by
      rw [passed, hr, hi, bytesOf_ok, List.append_nil, List.append_nil]
    have hpassed : passed (rs ++ [.ok []]) { s with inbox := [], rest := [], hasEnded := true } =
        s.passed rs := by
      rw [hall, passed, bytesOf_append, bytesOf_ok, bytesOf_nil]
      simp only [List.append_nil]
    simp only [Except.map, Except.toOption, Option.getD_some, List.take_nil, List.drop_nil,
      decide_true]
    exact h.returns hpassed rfl (.ended rfl hl rfl rfl (hpassed ▸ hf)) (fun _ => ⟨rfl, rfl⟩)
      (fun _ => ⟨rfl, hall ▸ hf.2.1, hf.2.2⟩) fun _ he => by cases he
  | error e =>
    have hall : s.passed rs = bytesOf rs := by
      rw [passed, hr, hi, bytesOf_error, List.append_nil, List.append_nil]
    simp only [Except.map, Except.toOption, Option.getD_none, List.drop_nil]
    refine h.returns ?_ rfl (.plain (by simp) fun _ hp => absurd hp List.not_mem_nil)
      (fun he' => by simp [he] at he') (fun hr => by cases hr) fun e' he' hreset hn => ?_
    · rw [hall, passed, bytesOf_append, bytesOf_error, bytesOf_nil]
      simp
    · obtain rfl := Except.error.inj he'
      exact hall ▸ hf hreset hn

/-- Reading leaves a stream true to its account. -/
theorem Faithful.read (h : s.Faithful a rs isLive isFelled) (hm : 0 < most) :
    (s.reading most).1.Faithful a (rs ++ (s.reading most).2.toList) isLive isFelled := by
  by_cases hr : s.rest = []
  · rcases h.phase with ⟨he, hp⟩ | ⟨first, last, he, hl, hi, hp, hf⟩ | ⟨he, hl, hi, hr, hf⟩
    · cases hi : s.inbox with
      | nil =>
        rw [reading_of_nil hr he hi]
        split
        · rw [Option.toList_none, List.append_nil]
          exact h
        · -- Nothing has come and nothing will, since the switchboard has stopped.
          refine h.returns (r := .error Switchboard.closed) ?_ rfl (.plain he hp)
            (fun he' => by simp [he] at he') (fun hr => by cases hr) fun e he hreset => ?_
          · rw [passed, passed, bytesOf_append, bytesOf_error, List.append_nil]
          · cases he
            cases hreset
      | cons p later =>
        obtain ⟨bytes, hb, rfl⟩ := hp p (hi ▸ List.mem_cons_self)
        rw [reading_of_cons hr he hi]
        simpa [Except.toOption, Except.map, hb] using h.read_bytes hm hr he hi hb
    · cases first with
      | nil =>
        rw [reading_of_cons hr he hi]
        exact h.read_last hr he hi hl hf
      | cons p first =>
        obtain ⟨bytes, hb, rfl⟩ := hp p List.mem_cons_self
        rw [reading_of_cons hr he hi]
        simpa [Except.toOption, Except.map, hb] using h.read_bytes hm hr he hi hb
    · -- The end is met again.
      rw [reading_of_ended hr he]
      have hpassed : s.passed (rs ++ [.ok []]) = s.passed rs := by
        rw [passed, passed, bytesOf_append, bytesOf_ok, List.append_nil]
      have hall : bytesOf rs = s.passed rs := by
        rw [passed, hr, hi, bytesOf_nil, List.append_nil, List.append_nil]
      exact h.returns hpassed rfl (.ended he hl hi hr (hpassed ▸ hf)) (fun _ => ⟨he, rfl⟩)
        (fun _ => ⟨he, hall.trans hf.2.1, hf.2.2⟩) fun _ he => by cases he
  · rw [reading_of_rest hr]
    exact h.read_rest hm hr

end Stream

end Tether.Tunnel
