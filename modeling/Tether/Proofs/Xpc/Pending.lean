import Tether.Proofs.Http2.Order
import Tether.Proofs.Xpc.Framing

/-!
# What a receiver makes of framed messages

Messages are cut into payloads at any places, and the payloads travel between frames of all
kinds. What a receiver still has to deliver is in two places: the pending bytes, and the
payloads of the root stream that lie unread. Together these are the messages not yet delivered
(`Expects`), and this stays so while payloads are taken and messages are completed, wherever the
cuts are and whatever is in the messages. A receiver takes off the messages without a body, and the
first one with a body. One that does not decode it does not take off.

* `Meets`: what a receiver gets of some messages, and which of them it leaves;
* `ends_receive_meets`: one call gets just that.
-/

namespace Tether.Xpc

open Http2 (Parcel)

/-- The bytes that some frames have for the root stream. -/
def rootBytes (ps : List Parcel) : Bytes :=
  (ps.filterMap (Parcel.payloadFor? Client.rootStream)).flatten

@[simp] theorem rootBytes_append (ps qs : List Parcel) :
    rootBytes (ps ++ qs) = rootBytes ps ++ rootBytes qs := by
  simp [rootBytes]

/-- A frame is longer than what it carries. -/
theorem length_rootBytes_add_le (ps : List Parcel) :
    (rootBytes ps).length + ps.length ≤ (Parcel.bytesOf ps).length := by
  induction ps with
  | nil => simp [rootBytes]
  | cons p ps ih =>
    have hp : (rootBytes [p]).length ≤ p.payload.length := by
      rw [rootBytes, Http2.Client.filterMap_payloadFor?, Parcel.payloadFor?]
      split <;> simp
    have hsplit := congrArg List.length (rootBytes_append [p] ps)
    simp only [List.singleton_append, List.length_append] at hsplit
    simp only [List.length_cons, Parcel.bytesOf_cons, List.length_append, Parcel.length_toBytes]
    omega

/-- A message without a body. -/
def IsBodiless (b : Bytes) : Prop :=
  ∃ m, Message.decode b = .ok m ∧ m.body = none

/-- What a receiver gets of some messages, and which of them it leaves. -/
inductive Meets : List Bytes → Except DeviceError Object → List Bytes → Prop where
  /-- The body of the first message that has one. -/
  | body {b : Bytes} {bs : List Bytes} {m : Message} {o : Object}
    (hdecode : Message.decode b = .ok m) (hbody : m.body = some o) : Meets (b :: bs) (.ok o) bs
  /-- The error of a message that does not decode, which is left as well. -/
  | error {b : Bytes} {bs : List Bytes} {e : DeviceError} (hdecode : Message.decode b = .error e) :
    Meets (b :: bs) (.error e) (b :: bs)
  /-- A message without a body is passed over. -/
  | skip {b : Bytes} {bs rest : List Bytes} {r : Except DeviceError Object} (hb : IsBodiless b)
    (h : Meets bs r rest) : Meets (b :: bs) r rest

theorem decode_of_meets_error {bs rest : List Bytes} {e : DeviceError}
    (h : Meets bs (.error e) rest) :
    ∃ b behind, rest = b :: behind ∧ Message.decode b = .error e := by
  generalize hr : (Except.error e : Except DeviceError Object) = r at h
  induction h with
  | body hdecode hbody => contradiction
  | error hdecode =>
    cases hr
    exact ⟨_, _, rfl, hdecode⟩
  | skip hb h ih => exact ih hr

namespace Client

variable {c d : Client} {ps : List Parcel} {bs : List Bytes} {pending : Bytes}

/-- The frames that lie unread, and the messages that were not delivered: their bytes are the
pending ones and those that the frames have for the root stream. -/
structure Expects (c : Client) (ps : List Parcel) (bs : List Bytes) : Prop where
  holds : c.http.Holds ps
  sound : ∀ p ∈ ps, ∃ f, p.frame = .ok f
  queue : c.http.queues rootStream = []
  framed : ∀ b ∈ bs, Message.Framed b
  bytes : c.pending ++ rootBytes ps = bs.flatten

/-- What is pending starts with a whole message or with a part of one. -/
theorem completeLength?_of_prefix (hframed : ∀ b ∈ bs, Message.Framed b)
    (h : pending <+: bs.flatten) :
    (completeLength? pending = none ∧ ∀ b ∈ bs.head?, pending.length < b.length) ∨
      ∃ b rest behind, bs = b :: rest ∧ pending = b ++ behind ∧
        completeLength? pending = some b.length := by
  cases bs with
  | nil =>
    obtain rfl : pending = [] := List.prefix_nil.1 h
    exact .inl ⟨rfl, by simp⟩
  | cons b rest =>
    rw [List.flatten_cons] at h
    have hb := hframed b List.mem_cons_self
    by_cases hwhole : b.length ≤ pending.length
    · obtain ⟨behind, rfl⟩ := List.prefix_of_prefix_length_le (List.prefix_append _ _) h hwhole
      have hlong : 16 ≤ (b ++ behind).length := by
        have hheader := Message.headerLength_le_span b
        rw [← hb.length_eq, Message.headerLength] at hheader
        rw [List.length_append]
        omega
      refine .inr ⟨b, rest, behind, rfl, rfl, ?_⟩
      rw [completeLength?, hb.frameLength?_of_prefix h hlong]
      simp
    · refine .inl ⟨?_, by simpa using hwhole⟩
      by_cases hlong : 16 ≤ pending.length
      · rw [completeLength?, hb.frameLength?_of_prefix h hlong]
        simpa using hwhole
      · simp [completeLength?, Message.frameLength?, Nat.lt_of_not_le hlong]

/-- Taking a payload of the root stream moves it from the unread frames to the caller, and fails
only where there is none left. -/
theorem ends_takeRoot (h : c.Expects ps bs) :
    (onHttp (Http2.Client.take rootStream)).Ends c
      (fun a d => ∃ eaten left, ps = eaten ++ left ∧ eaten ≠ [] ∧
        { d with pending := d.pending ++ a }.Expects left bs ∧ d.pending = c.pending)
      (fun _ d => d.Expects [] bs ∧ d.pending = c.pending) := by
  rw [onHttp, Call.ends_zoom]
  refine (Http2.Client.ends_take (s := rootStream) h.holds).mono ?_ ?_
  · rintro a http ⟨eaten, left, rfl, hholds, htook, ⟨-, hreach⟩ | ⟨hne, -⟩⟩
    · -- It came with the last of the frames that were eaten, the others had none.
      have hpayloads := Http2.Client.payloads_of_reaches hreach
      have hqueues := htook.queues rootStream
      have hroot : rootBytes eaten = a := by simp [rootBytes, hpayloads]
      rw [hpayloads, h.queue] at hqueues
      refine ⟨eaten, left, rfl, ?_,
        ⟨hholds, fun p hp => h.sound p (by simp [hp]), ?_, h.framed, ?_⟩, rfl⟩
      · rintro rfl
        cases hreach
      · simpa [Http2.Client.only] using hqueues
      · have hbytes := h.bytes
        rw [rootBytes_append, hroot, ← List.append_assoc] at hbytes
        exact hbytes
    · -- It was in the queue, which is empty.
      exact absurd h.queue hne
  · rintro halt http ⟨-, ⟨eaten, left, e, rfl, hreach, rfl, -, -⟩ | ⟨hall, hholds, htook⟩⟩
    · obtain ⟨p, hp, he⟩ := Http2.Client.error_of_reaches hreach
      obtain ⟨f, hf⟩ := h.sound p (by simp [hp])
      rw [he] at hf
      cases hf
    · have hpayloads := Http2.Client.payloads_of_forall_pass hall
      have hqueues := htook.queues rootStream
      rw [hpayloads, h.queue] at hqueues
      have hd : { c with http }.Expects [] bs :=
        ⟨hholds, by simp, by simpa [Http2.Client.nothing] using hqueues, h.framed, by
          simpa [rootBytes, hpayloads] using h.bytes⟩
      cases halt <;> exact ⟨hd, rfl⟩

/-- A payload and its frame leave fewer bytes to a receiver. -/
theorem length_add_lt {eaten left : List Parcel} (hc : c.Expects (eaten ++ left) bs)
    (hne : eaten ≠ []) (hd : d.Expects left bs) :
    d.pending.length + d.http.transport.unread.length <
      c.pending.length + c.http.transport.unread.length := by
  have hbytes := congrArg List.length (hc.bytes.trans hd.bytes.symm)
  have hframes := length_rootBytes_add_le eaten
  have hpos := List.length_pos_of_ne_nil hne
  rw [hc.holds.unread, hd.holds.unread, Parcel.bytesOf, Parcel.bytesOf, List.flatMap_append]
  rw [Parcel.bytesOf] at hframes
  simp only [rootBytes_append, List.length_append] at hbytes ⊢
  omega

/-- A message that is complete is taken off in front of the others. -/
theorem Expects.drop {b behind : Bytes} (h : c.Expects ps (b :: bs))
    (hpending : c.pending = b ++ behind) :
    { c with pending := c.pending.drop b.length }.Expects ps bs := by
  refine ⟨h.holds, h.sound, h.queue, fun k hk => h.framed k (List.mem_cons_of_mem b hk), ?_⟩
  have hbytes := h.bytes
  rw [hpending, List.append_assoc, List.flatten_cons] at hbytes
  rw [hpending, List.drop_left]
  exact List.append_cancel_left hbytes

/-- A receiver gets what the messages have for it and leaves the others to be delivered. It gets
nothing only where no message has a body. -/
theorem ends_receiveMore_meets {fuel : Nat} (h : c.Expects ps bs)
    (hfuel : c.pending.length + c.http.transport.unread.length < fuel) :
    (receiveMore fuel).Ends c
      (fun o d => ∃ rest eaten left, Meets bs (.ok o) rest ∧ ps = eaten ++ left ∧
        d.Expects left rest)
      (fun h d =>
        (∃ e rest eaten left, Meets bs (.error e) rest ∧ h = .failed e ∧ ps = eaten ++ left ∧
          d.Expects left rest ∧ ∀ b ∈ rest.head?, b <+: d.pending) ∨
        (∀ b ∈ bs, IsBodiless b) ∧ d.Expects [] []) := by
  induction fuel generalizing c ps bs with
  | zero => omega
  | succ fuel ih =>
    have hprefix : c.pending <+: bs.flatten := ⟨_, h.bytes⟩
    rcases completeLength?_of_prefix h.framed hprefix with
      ⟨hnone, hshort⟩ | ⟨b, rest, behind, rfl, hpending, hsome⟩
    · -- The first message is not complete: one more payload.
      rw [ends_receiveMore_of_none hnone]
      refine (ends_takeRoot h).mono ?_ ?_
      · rintro a d ⟨eaten, left, rfl, hne, hd, hpending⟩
        have hless := length_add_lt h hne hd
        refine (ih hd (by omega)).mono ?_ ?_
        · rintro o d' ⟨rest, eaten', left', hmeets, rfl, hd'⟩
          exact ⟨rest, eaten ++ eaten', left', hmeets, by simp, hd'⟩
        · rintro _ d' (⟨e, rest, eaten', left', hmeets, rfl, rfl, hd'⟩ | hall)
          · exact .inl ⟨e, rest, eaten ++ eaten', left', hmeets, rfl, by simp, hd'⟩
          · exact .inr hall
      · -- There is none, so all bytes are pending, and a message would be complete.
        rintro _ d ⟨hd, hpending⟩
        cases bs with
        | nil => exact .inr ⟨by simp, hd⟩
        | cons b rest =>
          have hbytes := congrArg List.length hd.bytes
          have hshort := hshort b rfl
          simp [rootBytes, hpending] at hbytes
          omega
    · -- The first message is complete.
      have hfront : c.pending.take b.length = b := by rw [hpending, List.take_left]
      have hrest := h.drop hpending
      cases hdecode : Message.decode b with
      | error e =>
        rw [ends_receiveMore_of_error hsome (by rw [hfront, hdecode])]
        refine .inl ⟨e, b :: rest, [], ps, .error hdecode, rfl, rfl, h, ?_⟩
        rintro b' hb'
        obtain rfl := Option.some.inj hb'
        exact ⟨behind, hpending.symm⟩
      | ok m =>
        have htaken : Message.decode (c.pending.take b.length) = .ok m := by rw [hfront, hdecode]
        cases hbody : m.body with
        | some o =>
          rw [ends_receiveMore_of_body hsome htaken hbody]
          exact ⟨rest, [], ps, .body hdecode hbody, rfl, hrest⟩
        | none =>
          have hbodiless : IsBodiless b := ⟨m, hdecode, hbody⟩
          have hpos : 0 < b.length :=
            lt_of_lt_of_le (by decide : 0 < Message.headerLength)
              ((Message.headerLength_le_span b).trans_eq
                (h.framed b List.mem_cons_self).length_eq.symm)
          have hless : (c.pending.drop b.length).length < c.pending.length := by
            rw [List.length_drop, hpending, List.length_append]
            omega
          rw [ends_receiveMore_of_bodiless hsome htaken hbody]
          refine (ih hrest (by dsimp only; omega)).mono ?_ ?_
          · rintro o d ⟨rest', eaten, left, hmeets, hps, hd⟩
            exact ⟨rest', eaten, left, .skip hbodiless hmeets, hps, hd⟩
          · rintro _ d (⟨e, rest', eaten, left, hmeets, hd⟩ | ⟨hall, hd⟩)
            · exact .inl ⟨e, rest', eaten, left, .skip hbodiless hmeets, hd⟩
            · exact .inr ⟨List.forall_mem_cons.2 ⟨hbodiless, hall⟩, hd⟩

theorem ends_receive_meets (h : c.Expects ps bs) :
    receive.Ends c
      (fun o d => ∃ rest eaten left, Meets bs (.ok o) rest ∧ ps = eaten ++ left ∧
        d.Expects left rest)
      (fun h d =>
        (∃ e rest eaten left, Meets bs (.error e) rest ∧ h = .failed e ∧ ps = eaten ++ left ∧
          d.Expects left rest ∧ ∀ b ∈ rest.head?, b <+: d.pending) ∨
        (∀ b ∈ bs, IsBodiless b) ∧ d.Expects [] []) := by
  rw [receive, Call.ends_bind, Call.ends_get]
  exact ends_receiveMore_meets h (by simp [receiveFuel, h.queue])

end Client

end Tether.Xpc
