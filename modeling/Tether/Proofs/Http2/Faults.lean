import Tether.Http2.Client
import Tether.Proofs.Call

/-!
# How reading from a connection fails

A reading fails because the transport does, or because of a frame that is an error to every reader:
a reset stream, a farewell, a type nobody knows, or a window update that is too short. It fails in
no other way, so a caller that has its own reasons to fail can be told apart from it.

* `Call.FailsAs`: all errors of a call are of one kind, with a lemma for each way that calls are put
  together;
* `Http2.Client.failsAs_take`: those of a reading are `Http2.IsWire`.
-/

namespace Tether

namespace Call

variable {ε ε' σ τ α β : Type} {P : ε → Prop}

/-- From any state, a call fails with errors of this kind only. -/
def FailsAs (P : ε → Prop) (c : Call ε σ α) : Prop :=
  ∀ s, c.Ends s (fun _ _ => True) (fun h _ => ∀ e, h = .failed e → P e)

theorem FailsAs.pure (a : α) : FailsAs P (Pure.pure a : Call ε σ α) :=
  fun _ => trivial

theorem FailsAs.get : FailsAs P (MonadState.get : Call ε σ σ) :=
  fun _ => trivial

theorem FailsAs.modify (g : σ → σ) : FailsAs P (modifyThe σ g : Call ε σ PUnit) :=
  fun _ => trivial

theorem FailsAs.set (s : σ) : FailsAs P (MonadState.set s : Call ε σ PUnit) :=
  fun _ => trivial

theorem FailsAs.waiting : FailsAs P (throw .waiting : Call ε σ α) :=
  fun _ e h => absurd h.symm (Halt.failed_ne_waiting e)

theorem FailsAs.ofExcept {r : Except ε α} (h : ∀ e, r = .error e → P e) :
    FailsAs P (Call.ofExcept r : Call ε σ α) := by
  cases r with
  | ok a => exact fun _ => trivial
  | error e =>
    intro s e' he
    cases he
    exact h e rfl

theorem FailsAs.bind {c : Call ε σ α} {f : α → Call ε σ β} (hc : FailsAs P c)
    (hf : ∀ a, FailsAs P (f a)) : FailsAs P (c >>= f) := by
  intro s
  rw [ends_bind]
  exact (hc s).mono (fun a t _ => hf a t) fun _ _ h => h

/-- Errors that are translated are of the kind that the translation makes of them. -/
theorem FailsAs.zoom {Q : ε → Prop} {P : ε' → Prop} {c : Call ε τ α} {view : σ → τ}
    {put : σ → τ → σ} {err : ε → ε'} (hc : FailsAs Q c) (h : ∀ e, Q e → P (err e)) :
    FailsAs P (Call.zoom view put err c) := by
  intro s
  rw [ends_zoom]
  refine (hc (view s)).mono (fun _ _ _ => trivial) fun halt t hhalt => ?_
  cases halt with
  | failed e =>
    intro e' he
    cases he
    exact h e (hhalt e rfl)
  | waiting => exact fun e he => absurd he.symm (Halt.failed_ne_waiting e)

theorem FailsAs.top (c : Call ε σ α) : FailsAs (fun _ => True) c :=
  fun s => (ends_self c s).mono (fun _ _ _ => trivial) fun _ _ _ _ _ => trivial

end Call

namespace Http2

/-- The transport failed, or a frame is an error to every reader. -/
inductive IsWire : DeviceError → Prop where
  | socket (fault : Fault) : IsWire (.socket fault)
  | streamReset : IsWire .streamReset
  | goAway (text : String) : IsWire (.goAway text)
  | shortUpdate (length : Nat) : IsWire (.notEnoughBytes length 4)
  | unknownFrame (type : UInt8) : IsWire (.unknownFrame type)

open Call (FailsAs)

/-- A call on the transport itself fails because the transport does. -/
theorem failsAs_socket {α : Type} (c : Call Fault Transport α) :
    FailsAs IsWire (Call.zoom id (fun _ t => t) .socket c) :=
  (FailsAs.top c).zoom fun fault _ => .socket fault

theorem isWire_of_ofPayload {type flags : UInt8} {stream : UInt32} {payload : Bytes}
    {e : DeviceError} (h : Frame.ofPayload type flags stream payload = .error e) : IsWire e := by
  rw [Frame.ofPayload] at h
  split at h
  · contradiction
  · contradiction
  · contradiction
  · cases h
    exact .streamReset
  · contradiction
  · contradiction
  · cases h
    exact .goAway _
  · split at h
    · cases h
      exact .shortUpdate _
    · contradiction
  · cases h
    exact .unknownFrame _

theorem failsAs_read : FailsAs IsWire Frame.read :=
  (failsAs_socket _).bind fun _ => (failsAs_socket _).bind fun _ =>
    FailsAs.ofExcept fun _ h => isWire_of_ofPayload h

namespace Client

theorem failsAs_onTransport {α : Type} {c : Call DeviceError Transport α}
    (h : FailsAs IsWire c) : FailsAs IsWire (onTransport c) :=
  h.zoom fun _ he => he

theorem failsAs_writeFrame (frame : Frame) : FailsAs IsWire (writeFrame frame) :=
  failsAs_onTransport (failsAs_socket _)

theorem failsAs_refill (source : UInt32) (payload : Bytes) :
    FailsAs IsWire (refill source payload) := by
  rw [refill]
  split
  · exact (failsAs_writeFrame _).bind fun _ => failsAs_writeFrame _
  · exact FailsAs.pure _

theorem failsAs_react (stream : UInt32) (frame : Frame) :
    FailsAs IsWire (react stream frame) := by
  have hanswer (answer : Frame) (p : Prop) [Decidable p] :
      FailsAs IsWire (do
        if p then writeFrame answer
        pure (none : Option Bytes)) := by
    split
    · exact (failsAs_writeFrame answer).bind fun _ => FailsAs.pure _
    · exact FailsAs.pure _
  cases frame with
  | settings announced stream flags => exact hanswer _ _
  | ping flags payload => exact hanswer _ _
  | data source payload =>
    refine (failsAs_refill source payload).bind fun _ => ?_
    split
    · exact FailsAs.pure _
    · exact (FailsAs.modify _).bind fun _ => FailsAs.pure _
  | headers stream => exact FailsAs.pure _
  | windowUpdate increment stream => exact FailsAs.pure _
  | priority => exact FailsAs.pure _

theorem failsAs_takeMore (stream : UInt32) (fuel : Nat) :
    FailsAs IsWire (takeMore stream fuel) := by
  induction fuel with
  | zero => exact FailsAs.waiting
  | succ fuel ih =>
    refine (failsAs_onTransport failsAs_read).bind fun frame =>
      (failsAs_react stream frame).bind fun r => ?_
    cases r with
    | some payload => exact FailsAs.pure _
    | none => exact ih

theorem failsAs_take (stream : UInt32) : FailsAs IsWire (take stream) := by
  have hdequeue : FailsAs IsWire (dequeue stream) := by
    refine FailsAs.get.bind fun client => ?_
    split
    · exact FailsAs.pure _
    · exact (FailsAs.set _).bind fun _ => FailsAs.pure _
  refine hdequeue.bind fun r => ?_
  cases r with
  | some payload => exact FailsAs.pure _
  | none => exact FailsAs.get.bind fun client => failsAs_takeMore stream _

end Client

end Http2

end Tether
