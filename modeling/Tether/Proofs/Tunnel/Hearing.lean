import Tether.Proofs.Tunnel.Ledger

/-!
# What links make of segments

How far a link is, and the number that it expects next, decide what it makes of a segment: the
bytes that it takes from it (`Link.gain`), whether the segment establishes the connection
(`Link.meets`), and whether it finishes it (`Link.finishes`). Whatever else a link holds plays
no part, so a link from which bytes are taken now and then hears the same as one from which
none are.

* `status_accept_congr`, `expected_accept_congr`: links that are equally far react alike;
* `Status.isEstablished_accept`: a connection that came about stays one that came about;
* `Link.moments`: what comes for a link one after another, with the link each segment meets.
-/

namespace Tether.Tunnel

open Net

namespace Link

/-- Whether a segment establishes the connection of a link. -/
def meets (l : Link) (s : Segment) : Bool :=
  l.status = .connecting && !s.control.rst && s.control.syn && s.control.ack

/-- Whether a segment is one that a connected link takes: no reset, and starting where the last
one ended. -/
def follows (l : Link) (s : Segment) : Bool :=
  l.status = .connected && !s.control.rst && s.sequence = l.expected

/-- Whether a link accepts the end of the connection with a segment. -/
def finishes (l : Link) (s : Segment) : Bool :=
  l.follows s && s.control.fin

/-- Whether a link accepts a reset. -/
def resets (l : Link) (s : Segment) : Bool :=
  l.status = .connected && s.control.rst

/-- The bytes that a link takes from a segment. -/
def gain (l : Link) (s : Segment) : Bytes :=
  if l.follows s then s.payload else []

variable {l l' : Link} {s : Segment}

theorem follows_eq_true_iff :
    l.follows s = true ↔ l.status = .connected ∧ s.control.rst = false ∧ s.sequence = l.expected := by
  simp [follows, and_assoc]

theorem gain_congr (hs : l.status = l'.status) (he : l.expected = l'.expected) :
    l.gain s = l'.gain s := by
  rw [gain, gain, follows, follows, hs, he]

theorem meets_congr (hs : l.status = l'.status) : l.meets s = l'.meets s := by
  rw [meets, meets, hs]

theorem received_accept (l : Link) (s : Segment) :
    (l.accept s).1.received = l.received ++ l.gain s := by
  unfold accept gain follows
  cases l.status with
  | connecting => cases s.control.rst <;> cases s.control.syn <;> cases s.control.ack <;> simp
  | connected =>
    by_cases he : s.sequence = l.expected <;> cases s.control.rst <;> cases s.control.fin <;>
      simp [he, takeIn, finish]
  | ended fault => simp

theorem sequence_accept (l : Link) (s : Segment) :
    (l.accept s).1.sequence = l.sequence + if l.meets s then 1 else 0 := by
  unfold accept meets
  cases l.status with
  | connecting => cases s.control.rst <;> cases s.control.syn <;> cases s.control.ack <;> simp
  | connected =>
    by_cases he : s.sequence = l.expected <;> cases s.control.rst <;> cases s.control.fin <;>
      simp [he, takeIn, finish]
  | ended fault => simp

theorem queued_accept (l : Link) (s : Segment) : (l.accept s).1.queued = l.queued := by
  unfold accept
  repeat' split
  all_goals rfl

theorem status_accept_congr (hs : l.status = l'.status) (he : l.expected = l'.expected) :
    (l.accept s).1.status = (l'.accept s).1.status := by
  unfold accept
  rw [hs, he]
  cases h : l'.status with
  | connecting => cases s.control.rst <;> cases s.control.syn <;> cases s.control.ack <;> simp [hs, h]
  | connected =>
    by_cases hq : s.sequence = l'.expected <;> cases s.control.rst <;> cases s.control.fin <;>
      simp [hq, hs, h, takeIn, finish]
  | ended fault => simp [hs, h]

theorem expected_accept_congr (hs : l.status = l'.status) (he : l.expected = l'.expected) :
    (l.accept s).1.expected = (l'.accept s).1.expected := by
  unfold accept
  rw [hs, he]
  cases l'.status with
  | connecting => cases s.control.rst <;> cases s.control.syn <;> cases s.control.ack <;> simp [he]
  | connected =>
    by_cases hq : s.sequence = l'.expected <;> cases s.control.rst <;> cases s.control.fin <;>
      simp [hq, he, takeIn, finish]
  | ended fault => simp [he]

/-! ## How far a link is -/

/-- Whether the connection has come about. -/
def Status.isEstablished : Status → Bool
  | .connected | .ended .unexpectedEof | .ended .connectionReset => true
  | _ => false

/-- A segment is answered by a link that is connected, or was just finished. -/
theorem status_of_answers (h : (l.accept s).2 = true) :
    (l.accept s).1.status = .connected ∨ (l.accept s).1.status = .ended .unexpectedEof := by
  revert h
  unfold accept
  cases hl : l.status with
  | connecting => cases s.control.rst <;> cases s.control.syn <;> cases s.control.ack <;> simp
  | connected =>
    by_cases he : s.sequence = l.expected <;> cases s.control.rst <;> cases s.control.fin <;>
      simp [he, hl, takeIn, finish]
  | ended fault => simp

/-- What a segment does to a link that is connected. -/
theorem accept_connected (h : l.status = .connected) (s : Segment) :
    (l.accept s).1 =
      if s.control.rst then { l with status := .ended .connectionReset }
      else if l.finishes s then (l.takeIn s.payload).finish
      else if l.follows s then l.takeIn s.payload
      else l := by
  unfold accept finishes follows
  by_cases he : s.sequence = l.expected <;> cases s.control.rst <;> cases s.control.fin <;>
    simp [h, he]

/-- What a segment does to a link that asks for a connection. -/
theorem accept_connecting (h : l.status = .connecting) (s : Segment) :
    (l.accept s).1 =
      if s.control.rst then { l with status := .ended .connectionRefused }
      else if l.meets s then
        { l with expected := s.sequence + 1, sequence := l.sequence + 1, status := .connected }
      else l := by
  unfold accept meets
  cases s.control.rst <;> cases s.control.syn <;> cases s.control.ack <;> simp [h]

theorem status_of_meets (h : l.meets s = true) : l.status = .connecting := by
  simp only [meets, Bool.and_eq_true, decide_eq_true_eq] at h
  exact h.1.1.1

theorem rst_of_meets (h : l.meets s = true) : s.control.rst = false := by
  simp only [meets, Bool.and_eq_true, Bool.not_eq_true'] at h
  exact h.1.1.2

theorem accept_of_meets (h : l.meets s = true) :
    (l.accept s).1 =
      { l with expected := s.sequence + 1, sequence := l.sequence + 1, status := .connected } := by
  rw [accept_connecting (status_of_meets h), if_neg (by simp [rst_of_meets h]), if_pos h]

theorem status_accept_of_meets (h : l.meets s = true) : (l.accept s).1.status = .connected := by
  rw [accept_of_meets h]

theorem status_accept_of_finishes (h : l.finishes s = true) :
    (l.accept s).1.status = .ended .unexpectedEof := by
  have hf := h
  simp only [finishes, Bool.and_eq_true, follows_eq_true_iff] at hf
  rw [accept_connected hf.1.1, if_neg (by simp [hf.1.2.1]), if_pos h]
  rfl

theorem status_accept_ne_eof (hl : l.status ≠ .ended .unexpectedEof) (h : l.finishes s = false) :
    (l.accept s).1.status ≠ .ended .unexpectedEof := by
  cases hst : l.status with
  | connecting =>
    rw [accept_connecting hst]
    repeat' split
    all_goals simp [hst]
  | connected =>
    rw [accept_connected hst, h]
    repeat' split
    all_goals simp_all [takeIn]
  | ended fault =>
    rwa [accept_ended hst]

theorem accept_of_resets (h : l.resets s = true) :
    (l.accept s).1 = { l with status := .ended .connectionReset } := by
  simp only [resets, Bool.and_eq_true, decide_eq_true_eq] at h
  rw [accept_connected h.1, if_pos h.2]

theorem status_accept_ne_reset (hl : l.status ≠ .ended .connectionReset) (h : l.resets s = false) :
    (l.accept s).1.status ≠ .ended .connectionReset := by
  cases hst : l.status with
  | connecting =>
    rw [accept_connecting hst]
    repeat' split
    all_goals simp [hst]
  | connected =>
    have hr : s.control.rst = false := by simpa [resets, hst] using h
    rw [accept_connected hst, hr]
    repeat' split
    all_goals simp_all [takeIn, finish]
  | ended fault =>
    rwa [accept_ended hst]

/-- No segment but the one that meets a link establishes its connection. -/
theorem isEstablished_accept_of_not_meets (hl : l.status.isEstablished = false)
    (h : l.meets s = false) : (l.accept s).1.status.isEstablished = false := by
  cases hst : l.status with
  | connecting =>
    rw [accept_connecting hst, h]
    repeat' split
    all_goals simp_all [Status.isEstablished]
  | connected => rw [hst] at hl; cases hl
  | ended fault => rwa [accept_ended hst]

theorem Status.isEstablished_accept (h : l.status.isEstablished = true) :
    (l.accept s).1.status.isEstablished = true := by
  cases hl : l.status with
  | connecting => rw [hl] at h; cases h
  | connected =>
    rw [accept_connected hl]
    repeat' split
    · rfl
    · rfl
    · simp [takeIn, hl, isEstablished]
    · simp [hl, isEstablished]
  | ended fault => rwa [accept_ended hl]

theorem not_meets_of_isEstablished (h : l.status.isEstablished = true) : l.meets s = false := by
  cases hm : l.meets s with
  | false => rfl
  | true =>
    rw [status_of_meets hm] at h
    cases h

/-! ## Moments -/

/-- The segments that come for a link, each with the link that it meets. -/
def moments (l : Link) : List Segment → List (Link × Segment)
  | [] => []
  | s :: ss => (l, s) :: (l.accept s).1.moments ss

end Link

/-- The segments that came for an account, each with the link that it met. -/
def Account.moments (a : Account) : List (Link × Segment) :=
  a.fresh.moments a.arrived

end Tether.Tunnel
