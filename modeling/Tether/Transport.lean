import Tether.Bytes
import Tether.Error.Fault

/-!
# Transports

A *transport* is the near end of a byte stream to a device. It holds what the device has
delivered and nobody has read, a *pace* that bounds how much each read returns, and what
a read meets once everything delivered has been read: the end of the stream, silence, or
a fault. What is written is kept in order; an allowance may make writes fail at some point. A
write stands for writing and flushing: what is written has left the host. That a stream takes all
bytes and then fails to flush them is not modelled.

A *call* is a computation over such a state. It ends in one of three ways: with a value,
with an error, or not at all, because it would wait for ever (`Halt.waiting`). However it
ends it leaves the state it reached: bytes that an unfinished call has read are gone.

* `readExact_of_le`: reading exactly `n` bytes takes the first `n` unread ones, whatever
  the pace;
* `written_writeAll`: a write that is not refused appends exactly its bytes.
-/

namespace Tether

/-- Why a call ended without a value. -/
inductive Halt (ε : Type) where
  /-- It failed. -/
  | failed (error : ε)
  /-- It waits for something that never comes. -/
  | waiting
  deriving Repr

/-- A computation over a state `σ` that may fail with an `ε` or wait for ever. -/
abbrev Call (ε σ α : Type) := EStateM (Halt ε) σ α

namespace Call

variable {ε ε' σ τ α : Type}

/-- Ends a call with an error. -/
@[inline] def fail (e : ε) : Call ε σ α :=
  throw (.failed e)

/-- Runs a call on a part of a larger state, translating its errors. -/
@[inline] def zoom (view : σ → τ) (put : σ → τ → σ) (err : ε → ε') (c : Call ε τ α) :
    Call ε' σ α := fun s =>
  match c (view s) with
  | .ok a t => .ok a (put s t)
  | .error (.failed e) t => .error (.failed (err e)) (put s t)
  | .error .waiting t => .error .waiting (put s t)

/-- The value of an `Except`, or its error. -/
@[inline] def ofExcept (r : Except ε α) : Call ε σ α :=
  match r with
  | .ok a => pure a
  | .error e => fail e

/-- The value of an option, or the error given for its absence. -/
@[inline] def ofOption (e : ε) (o : Option α) : Call ε σ α :=
  match o with
  | some a => pure a
  | none => fail e

/-- Runs a call and hands its error, if any, to the caller as a value. Waiting is not an
error and stays. -/
@[inline] def attempt (c : Call ε σ α) : Call ε' σ (Except ε α) := fun s =>
  match c s with
  | .ok a t => .ok (.ok a) t
  | .error (.failed e) t => .ok (.error e) t
  | .error .waiting t => .error .waiting t

/-- Fails with an error instead of waiting for ever: a time limit, on a clock that runs on
when nothing else happens. -/
@[inline] def within (e : ε) (c : Call ε σ α) : Call ε σ α := fun s =>
  match c s with
  | .error .waiting t => .error (.failed e) t
  | r => r

end Call

/-- What a read meets once everything delivered has been read. -/
inductive Ending where
  /-- The end of the stream: the read returns nothing. -/
  | closed
  /-- Silence: the read waits for ever. -/
  | silent
  /-- The read fails. -/
  | broken (fault : Fault)
  deriving DecidableEq, Repr

/-- The near end of a byte stream. -/
structure Transport where
  /-- Delivered and not yet read. -/
  unread : Bytes
  /-- What a read meets when nothing is unread. -/
  ending : Ending := .closed
  /-- The most bytes the `n`-th read returns, if bounded. -/
  pace : Nat → Option Nat := fun _ => none
  /-- How many reads have returned bytes. -/
  reads : Nat := 0
  /-- The accepted pieces, oldest first. -/
  written : List Bytes := []
  /-- How many more bytes are accepted before writes fail, and how. -/
  allowance : Option (Nat × Fault) := none
  /-- Whether the stream was shut down. -/
  isShut : Bool := false
  /-- How shutting down fails, if it does. -/
  shutFault : Option Fault := none

namespace Transport

/-- Everything written so far. -/
def sent (t : Transport) : Bytes :=
  t.written.flatten

/-- Delivers more bytes. -/
def deliver (t : Transport) (bs : Bytes) : Transport :=
  { t with unread := t.unread ++ bs }

/-- The most bytes the next read returns, at least one. -/
def readBound (t : Transport) (most : Nat) : Nat :=
  match t.pace t.reads with
  | some n => min most (max 1 n)
  | none => most

/-- Reads at most `most` bytes. Nothing is returned at the end of the stream only, or for a
`most` of zero, which leaves the stream alone. -/
def read (most : Nat) : Call Fault Transport Bytes := fun t =>
  if most = 0 then .ok [] t
  else if t.unread.isEmpty then
    match t.ending with
    | .closed => .ok [] t
    | .silent => .error .waiting t
    | .broken fault => .error (.failed fault) t
  else
    let n := t.readBound most
    .ok (t.unread.take n) { t with unread := t.unread.drop n, reads := t.reads + 1 }

/-- Goes on reading until `n` more bytes have come; `seen` holds the bytes so far, latest
first. One byte at least comes with each read, so `fuel` reads are enough for `fuel` bytes. -/
def readMore (fuel n : Nat) (seen : Bytes) : Call Fault Transport Bytes :=
  match fuel with
  | 0 => pure seen.reverse
  | fuel + 1 =>
    if n = 0 then pure seen.reverse
    else do
      let bs ← read n
      if bs.isEmpty then Call.fail .unexpectedEof
      else readMore fuel (n - bs.length) (bs.reverse ++ seen)

/-- Reads exactly `n` bytes. A stream that ends before fails with `unexpectedEof`. -/
def readExact (n : Nat) : Call Fault Transport Bytes :=
  readMore n n []

/-- Writes all bytes and flushes the stream, or writes as many as the allowance leaves and then
fails. -/
def writeAll (bs : Bytes) : Call Fault Transport Unit := fun t =>
  if bs.isEmpty then .ok () t
  else
    match t.allowance with
    | none => .ok () { t with written := t.written ++ [bs] }
    | some (left, fault) =>
      if bs.length ≤ left then
        .ok () { t with written := t.written ++ [bs], allowance := some (left - bs.length, fault) }
      else
        .error (.failed fault)
          { t with
            written := if left = 0 then t.written else t.written ++ [bs.take left]
            allowance := some (0, fault) }

/-- Shuts the stream down. -/
def shutdown : Call Fault Transport Unit := fun t =>
  match t.shutFault with
  | none => .ok () { t with isShut := true }
  | some fault => .error (.failed fault) t

theorem readBound_pos (t : Transport) {most : Nat} (h : 0 < most) : 0 < t.readBound most := by
  unfold readBound
  split <;> omega

theorem readBound_le (t : Transport) (most : Nat) : t.readBound most ≤ most := by
  unfold readBound
  split <;> omega

theorem readMore_of_le (fuel n : Nat) (seen : Bytes) (t : Transport) (hf : n ≤ fuel)
    (h : n ≤ t.unread.length) :
    ∃ reads, readMore fuel n seen t =
      .ok (seen.reverse ++ t.unread.take n) { t with unread := t.unread.drop n, reads := reads } := by
  induction fuel generalizing n seen t with
  | zero =>
    obtain rfl : n = 0 := by omega
    exact ⟨t.reads, by simp [readMore, pure, EStateM.pure]⟩
  | succ fuel ih =>
    by_cases hn : n = 0
    · subst hn
      exact ⟨t.reads, by simp [readMore, pure, EStateM.pure]⟩
    · have hb := t.readBound_pos (show 0 < n by omega)
      have hb' := t.readBound_le n
      have hne : t.unread ≠ [] := by
        intro h'
        simp [h'] at h
        omega
      have hlen : (t.unread.take (t.readBound n)).length = t.readBound n := by
        rw [List.length_take]
        omega
      have hne' : t.unread.take (t.readBound n) ≠ [] := by
        intro h'
        rw [h'] at hlen
        simp at hlen
        omega
      obtain ⟨reads, hr⟩ := ih (n - t.readBound n)
        ((t.unread.take (t.readBound n)).reverse ++ seen)
        { t with unread := t.unread.drop (t.readBound n), reads := t.reads + 1 }
        (by omega) (by simp only [List.length_drop]; omega)
      refine ⟨reads, ?_⟩
      have hread : read n t = .ok (t.unread.take (t.readBound n))
          { t with unread := t.unread.drop (t.readBound n), reads := t.reads + 1 } := by
        simp [read, hn, hne]
      simp only [readMore, hn, if_false, bind, EStateM.bind, hread, List.isEmpty_iff, hne', hlen, hr]
      congr 1
      · rw [List.reverse_append, List.reverse_reverse, List.append_assoc, ← List.take_add]
        congr 2
        omega
      · congr 1
        rw [List.drop_drop]
        congr 1
        omega

/-- Reading exactly `n` bytes takes the first `n` unread ones, however they arrive. -/
theorem readExact_of_le {n : Nat} {t : Transport} (h : n ≤ t.unread.length) :
    ∃ reads, readExact n t =
      .ok (t.unread.take n) { t with unread := t.unread.drop n, reads := reads } := by
  simpa [readExact] using readMore_of_le n n [] t (Nat.le_refl n) h

theorem written_writeAll {bs : Bytes} {t : Transport} (h : t.allowance = none) :
    ∃ t', writeAll bs t = .ok () t' ∧ t'.sent = t.sent ++ bs := by
  unfold writeAll
  split
  · next hb => exact ⟨t, rfl, by simp [List.isEmpty_iff.1 hb]⟩
  · rw [h]
    exact ⟨_, rfl, by simp [sent]⟩

end Transport

end Tether
