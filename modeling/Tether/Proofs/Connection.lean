import Tether.Connection
import Tether.Proofs.Transport

/-!
# Raw bytes of a connection

A connection that is there does as its transport does. So many bytes are read, if they have arrived,
and nothing behind them. Where fewer have, all of them are lost, and the call fails or waits as the
transport ends.

* `readRaw_of_le`, `ends_readRaw_of_lt`: reading;
* `ends_sendRaw`: sending, and what is sent where that fails;
* `ends_close_open`: closing.
-/

namespace Tether.Connection

variable {c : Connection} {n : Nat}

/-- The connection with these bytes left unread. -/
def left (c : Connection) (rest : Bytes) (reads : Nat) : Connection :=
  { c with transport := { c.transport with unread := rest, reads } }

@[simp] theorem unread_left (c : Connection) (rest : Bytes) (reads : Nat) :
    (c.left rest reads).transport.unread = rest :=
  rfl

@[simp] theorem isOpen_left (c : Connection) (rest : Bytes) (reads : Nat) :
    (c.left rest reads).isOpen = c.isOpen :=
  rfl

@[simp] theorem left_left (c : Connection) (rest rest' : Bytes) (reads reads' : Nat) :
    (c.left rest reads).left rest' reads' = c.left rest' reads' :=
  rfl

theorem onTransport_open {α : Type} (call : Call Fault Transport α) (h : c.isOpen) :
    onTransport call c =
      Call.zoom Connection.transport (fun s t => { s with transport := t }) DeviceError.socket
        call c := by
  change (if c.isOpen then Call.zoom _ _ _ call else Call.fail .noEstablishedConnection :
    Call DeviceError Connection α) c = _
  rw [if_pos h]

theorem readRaw_of_le (ho : c.isOpen) (h : n ≤ c.transport.unread.length) :
    ∃ reads, readRaw n c =
      .ok (c.transport.unread.take n) (c.left (c.transport.unread.drop n) reads) := by
  obtain ⟨reads, hr⟩ := Transport.readExact_of_le h
  refine ⟨reads, ?_⟩
  rw [readRaw, onTransport_open _ ho]
  simp only [Call.zoom, hr]
  rfl

/-- Raw bytes are sent whole, or cut off where the transport takes no more. -/
theorem ends_sendRaw (bs : Bytes) (ho : c.isOpen) :
    (sendRaw bs).Ends c
      (fun _ d => ∃ t, c.transport.Took bs t ∧ d = { c with transport := t })
      (fun halt d => ∃ fault t, halt = .failed (.socket fault) ∧
        Transport.CutOff bs fault c.transport t ∧ d = { c with transport := t }) := by
  rw [sendRaw, Call.Ends, onTransport_open _ ho, ← Call.Ends, Call.ends_zoom]
  have h := Transport.ends_forM_writeAll (pieces pieceSize bs) c.transport
  rw [flatten_pieces] at h
  refine h.mono (fun _ t ht => ⟨t, ht, rfl⟩) ?_
  rintro _ t ⟨fault, rfl, ht⟩
  exact ⟨fault, t, rfl, ht, rfl⟩

/-- How receiving halts where less has arrived than is to be read. -/
def haltAt (ending : Ending) : Halt DeviceError :=
  match ending.halt with
  | .failed fault => .failed (.socket fault)
  | .waiting => .waiting

/-- Only silence is waited for. -/
theorem eq_silent_of_haltAt {ending : Ending} (h : haltAt ending = .waiting) :
    ending = .silent := by
  cases ending with
  | closed => exact absurd h (Halt.failed_ne_waiting _)
  | silent => rfl
  | broken fault => exact absurd h (Halt.failed_ne_waiting _)

theorem ends_readRaw_of_lt (ho : c.isOpen) (h : c.transport.unread.length < n) :
    (readRaw n).Ends c (fun _ _ => False)
      (fun halt t => halt = haltAt c.transport.ending ∧ ∃ reads, t = c.left [] reads) := by
  obtain ⟨reads, hr⟩ := Transport.readExact_eq_of_lt h
  rw [readRaw, Call.Ends, onTransport_open _ ho, ← Call.Ends, Call.ends_zoom, Call.Ends, hr, haltAt]
  cases c.transport.ending.halt <;> exact ⟨rfl, reads, rfl⟩

/-- The call waits, or its transport fails or is not there. -/
def isLost : Halt DeviceError → Bool
  | .waiting => true
  | .failed (.socket _) => true
  | .failed .noEstablishedConnection => true
  | .failed _ => false

theorem readRaw_of_lt (ho : c.isOpen) (h : c.transport.unread.length < n) :
    ∃ halt reads, isLost halt ∧ readRaw n c = .error halt (c.left [] reads) := by
  obtain ⟨halt, reads, hr⟩ := Transport.readExact_of_lt h
  rw [readRaw, onTransport_open _ ho]
  simp only [Call.zoom, hr]
  cases halt with
  | waiting => exact ⟨.waiting, reads, rfl, rfl⟩
  | failed fault => exact ⟨.failed (.socket fault), reads, rfl, rfl⟩

/-- Closing a connection that is there shuts its transport down, or fails as that does. -/
theorem ends_close_open (ho : c.isOpen) :
    close.Ends c
      (fun _ d => c.transport.shutFault = none ∧
        d = { c with isOpen := false, transport := { c.transport with isShut := true } })
      (fun h d => ∃ fault, c.transport.shutFault = some fault ∧ h = .failed (.socket fault) ∧
        d = { c with isOpen := false }) := by
  rw [close, Call.ends_bind, Call.ends_get, if_pos ho, Call.ends_bind, Call.ends_modify,
    Call.ends_zoom, Call.Ends, Transport.shutdown]
  dsimp only
  cases hfault : c.transport.shutFault with
  | none => exact ⟨rfl, rfl⟩
  | some fault => exact ⟨fault, rfl, rfl, rfl⟩

end Tether.Connection
