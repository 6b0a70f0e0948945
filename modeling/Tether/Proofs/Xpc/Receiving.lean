import Tether.Proofs.Xpc.Pending

/-!
# Messages from payloads

Messages that were written whole are read whole, wherever they were cut on the way and whatever
travels between the pieces. What a receiver still has to deliver are messages that were not
delivered (`Awaits`), and this stays so from call to call.

* `ends_receive`: one call returns the body of the first message that has one;
* `received`: the calls of any run return the bodies of all messages, in order, each once, and
  what is pending is what was read and not delivered.
-/

namespace Tether.Xpc

open Http2 (Parcel)

/-- Messages that fit are as long as they say. -/
theorem Message.Fits.framed {m : Message} (h : m.Fits) : Framed m.encode := by
  have hlength := length_bodyBytes_lt h
  have hannounced : announced m.encode = m.bodyBytes.length := by
    have hstart : m.encode =
        (Bytes.ofNatLE 4 magic ++ Bytes.ofNatLE 4 m.flags.bits.toNat) ++
          (Bytes.ofNatLE 8 m.bodyBytes.length ++ (Bytes.ofNatLE 8 m.id.toNat ++ m.bodyBytes)) := by
      rw [encode_eq]
      simp only [List.append_assoc]
    rw [announced, hstart, List.drop_left' (by simp), List.take_left' (by simp),
      Bytes.toNatLE_ofNatLE_of_lt (by omega)]
  exact ⟨by rw [length_encode, span, hannounced], by rw [length_encode, headerLength]; omega⟩

/-- Messages that fit are read as they were written. -/
theorem isBodiless_encode {m : Message} (h : m.Fits) : IsBodiless m.encode ↔ m.body = none := by
  constructor
  · rintro ⟨k, hdecode, hbody⟩
    rw [Message.decode_encode h] at hdecode
    cases hdecode
    exact hbody
  · exact fun hbody => ⟨m, Message.decode_encode h, hbody⟩

theorem meets_encode {ms : List Message} {r : Except DeviceError Object} {rest : List Bytes}
    (hfits : ∀ m ∈ ms, m.Fits) (h : Meets (ms.map Message.encode) r rest) :
    ∃ skipped m behind o, ms = skipped ++ m :: behind ∧ (∀ k ∈ skipped, k.body = none) ∧
      m.body = some o ∧ r = .ok o ∧ rest = behind.map Message.encode := by
  generalize hbs : ms.map Message.encode = bs at h
  induction h generalizing ms with
  | body hdecode hbody =>
    obtain ⟨m, behind, rfl, rfl, rfl⟩ := List.map_eq_cons_iff.1 hbs
    rw [Message.decode_encode (hfits m List.mem_cons_self)] at hdecode
    obtain rfl := Except.ok.inj hdecode
    exact ⟨[], m, behind, _, rfl, by simp, hbody, rfl, rfl⟩
  | error hdecode =>
    obtain ⟨m, behind, rfl, rfl, rfl⟩ := List.map_eq_cons_iff.1 hbs
    rw [Message.decode_encode (hfits m List.mem_cons_self)] at hdecode
    contradiction
  | skip hb h ih =>
    obtain ⟨m, behind, rfl, rfl, rfl⟩ := List.map_eq_cons_iff.1 hbs
    have hm := hfits m List.mem_cons_self
    obtain ⟨skipped, k, behind, o, rfl, hskipped, hk⟩ :=
      ih (fun k hk => hfits k (List.mem_cons_of_mem m hk)) rfl
    exact ⟨m :: skipped, k, behind, o, rfl,
      List.forall_mem_cons.2 ⟨(isBodiless_encode hm).1 hb, hskipped⟩, hk⟩

namespace Client

variable {c d : Client} {ps : List Parcel} {ms : List Message}

/-- The frames that lie unread, and the messages that were not delivered: their bytes are the
pending ones and those that the frames have for the root stream. -/
structure Awaits (c : Client) (ps : List Parcel) (ms : List Message) : Prop where
  holds : c.http.Holds ps
  sound : ∀ p ∈ ps, ∃ f, p.frame = .ok f
  queue : c.http.queues rootStream = []
  fits : ∀ m ∈ ms, m.Fits
  bytes : c.pending ++ rootBytes ps = ms.flatMap Message.encode

theorem Awaits.expects (h : c.Awaits ps ms) : c.Expects ps (ms.map Message.encode) where
  holds := h.holds
  sound := h.sound
  queue := h.queue
  framed b hb := by
    obtain ⟨m, hm, rfl⟩ := List.mem_map.1 hb
    exact (h.fits m hm).framed
  bytes := h.bytes.trans List.flatMap_def

theorem Expects.awaits (h : c.Expects ps (ms.map Message.encode)) (hfits : ∀ m ∈ ms, m.Fits) :
    c.Awaits ps ms :=
  ⟨h.holds, h.sound, h.queue, hfits, h.bytes.trans List.flatMap_def.symm⟩

/-- A receiver skips messages without a body, returns the next body, and leaves the messages
behind it to be delivered. It does not return only where no message has a body. -/
theorem ends_receive (h : c.Awaits ps ms) :
    receive.Ends c
      (fun o d => ∃ skipped m rest eaten left, ms = skipped ++ m :: rest ∧
        (∀ k ∈ skipped, k.body = none) ∧ m.body = some o ∧ ps = eaten ++ left ∧
        d.Awaits left rest)
      (fun _ d => (∀ m ∈ ms, m.body = none) ∧ d.Awaits [] []) := by
  refine (ends_receive_meets h.expects).mono ?_ ?_
  · rintro o d ⟨rest, eaten, left, hmeets, hps, hd⟩
    obtain ⟨skipped, m, behind, o', hms, hskipped, hbody, ho, rfl⟩ := meets_encode h.fits hmeets
    cases ho
    refine ⟨skipped, m, behind, eaten, left, hms, hskipped, hbody, hps, hd.awaits fun k hk => ?_⟩
    exact h.fits k (by simp [hms, hk])
  · rintro _ d (⟨e, rest, -, -, hmeets, -⟩ | ⟨hall, hd⟩)
    · -- Messages that fit decode.
      obtain ⟨-, -, -, o, -, -, -, he, -⟩ := meets_encode h.fits hmeets
      exact absurd he (by simp)
    · refine ⟨fun m hm => (isBodiless_encode (h.fits m hm)).1 (hall _ ?_), hd.awaits (by simp)⟩
      exact List.mem_map_of_mem hm

/-! ### Runs -/

/-- What the near end may do with a connection. -/
inductive Act where
  | handshake
  | send (object : Object) (expectReply : Bool)
  | receive

/-- Does some acts one after the other and keeps the results of the receiving ones. -/
def play : List Act → Client → Client × List (Except (Halt DeviceError) Object)
  | [], c => (c, [])
  | .handshake :: acts, c => play acts (handshake.state c)
  | .send object expectReply :: acts, c => play acts ((send object expectReply).state c)
  | .receive :: acts, c =>
    let result := match receive c with
      | .ok o _ => .ok o
      | .error h _ => .error h
    let (d, results) := play acts (receive.state c)
    (d, result :: results)

/-- How many acts receive. -/
def calls : List Act → Nat
  | [] => 0
  | .receive :: acts => calls acts + 1
  | _ :: acts => calls acts

/-- A connection that was just started over a transport. -/
def started (t : Transport) : Client :=
  start.state { http := { transport := t } }

end Client

/-- The messages up to the `n`-th one that has a body, or all of them. -/
def through : Nat → List Message → List Message
  | 0, _ => []
  | _ + 1, [] => []
  | n + 1, m :: ms => m :: through (if m.body.isSome then n else n + 1) ms

theorem through_of_skipped {skipped rest : List Message} {m : Message} {o : Object} (n : Nat)
    (hskipped : ∀ k ∈ skipped, k.body = none) (hbody : m.body = some o) :
    through (n + 1) (skipped ++ m :: rest) = skipped ++ m :: through n rest := by
  induction skipped with
  | nil => simp [through, hbody]
  | cons k skipped ih =>
    have hk : k.body = none := hskipped k List.mem_cons_self
    simp [through, hk, ih fun k' hk' => hskipped k' (List.mem_cons_of_mem k hk')]

theorem through_of_forall_none {ms : List Message} (n : Nat) (h : ∀ m ∈ ms, m.body = none) :
    through (n + 1) ms = ms := by
  induction ms with
  | nil => rfl
  | cons m ms ih =>
    have hm : m.body = none := h m List.mem_cons_self
    simp [through, hm, ih fun k hk => h k (List.mem_cons_of_mem m hk)]

/-- The bodies of some messages. -/
def bodies (ms : List Message) : List Object :=
  ms.filterMap Message.body

theorem bodies_of_skipped {skipped rest : List Message} {m : Message} {o : Object}
    (hskipped : ∀ k ∈ skipped, k.body = none) (hbody : m.body = some o) :
    bodies (skipped ++ m :: rest) = o :: bodies rest := by
  have hnone := List.filterMap_eq_nil_iff.2 hskipped
  simp [bodies, hnone, hbody]

theorem bodies_of_forall_none {ms : List Message} (h : ∀ m ∈ ms, m.body = none) : bodies ms = [] :=
  List.filterMap_eq_nil_iff.2 h

namespace Client

variable {c d : Client} {ps : List Parcel} {ms : List Message}

/-- Sending touches nothing that a receiver looks at. -/
structure Same (c d : Client) : Prop where
  http : Http2.Client.Same c.http d.http
  pending : d.pending = c.pending

instance isPreorder_same : IsPreorder Client Same where
  refl c := ⟨refl_of Http2.Client.Same c.http, rfl⟩
  trans _ _ _ h h' := ⟨trans_of Http2.Client.Same h.http h'.http, h'.pending.trans h.pending⟩

theorem Same.awaits (h : Same c d) (hc : c.Awaits ps ms) : d.Awaits ps ms :=
  ⟨h.http.holds hc.holds, hc.sound, (congrFun h.http.queues _).trans hc.queue, hc.fits,
    h.pending ▸ hc.bytes⟩

theorem same_onHttp {α : Type} {call : Call DeviceError Http2.Client α}
    (h : Call.Respects Http2.Client.Same call) : Call.Respects Same (onHttp call) :=
  h.zoom fun _ _ h => ⟨h, rfl⟩

theorem same_sendRoot (flags : Flags) (body : Option Object) :
    Call.Respects Same (sendRoot flags body) :=
  Call.Respects.get.bind fun _ => (same_onHttp (Http2.Client.same_write _)).bind fun _ =>
    Call.Respects.modify fun c => ⟨refl_of Http2.Client.Same c.http, rfl⟩

theorem same_sendReply (flags : Flags) (body : Option Object) :
    Call.Respects Same (sendReply flags body) :=
  Call.Respects.get.bind fun _ => (same_onHttp (Http2.Client.same_write _)).bind fun _ =>
    Call.Respects.modify fun c => ⟨refl_of Http2.Client.Same c.http, rfl⟩

theorem same_send (object : Object) (expectReply : Bool) :
    Call.Respects Same (send object expectReply) :=
  same_sendRoot _ _

theorem same_handshake : Call.Respects Same handshake :=
  (same_onHttp (Http2.Client.same_write _)).bind fun _ =>
    (same_onHttp (Http2.Client.same_write _)).bind fun _ =>
    (same_onHttp (Http2.Client.same_write _)).bind fun _ =>
    (same_sendRoot _ _).bind fun _ => (same_sendRoot _ _).bind fun _ =>
    (same_onHttp (Http2.Client.same_write _)).bind fun _ => same_sendReply _ _

/-- From any point on, the calls return the bodies that are still to be delivered. -/
theorem awaits_play (h : c.Awaits ps ms) (acts : List Act) :
    (∃ eaten left rest, ps = eaten ++ left ∧ ms = through (calls acts) ms ++ rest ∧
      (play acts c).1.Awaits left rest) ∧
      (play acts c).2.take (bodies ms).length = ((bodies ms).take (calls acts)).map .ok ∧
      ∀ r ∈ (play acts c).2.drop (bodies ms).length, ∃ halt, r = .error halt := by
  induction acts generalizing c ps ms with
  | nil =>
    exact ⟨⟨[], ps, ms, rfl, by simp [calls, through], h⟩, by simp [play, calls], by simp [play]⟩
  | cons act acts ih =>
    cases act with
    | handshake => exact ih ((same_handshake.state c).awaits h)
    | send object expectReply => exact ih (((same_send object expectReply).state c).awaits h)
    | receive =>
      have hreceive := ends_receive h
      simp only [Call.Ends] at hreceive
      simp only [play, calls, Call.state]
      split at hreceive
      · next o d heq =>
        obtain ⟨skipped, m, rest, eaten, left, rfl, hskipped, hbody, rfl, hd⟩ := hreceive
        obtain ⟨⟨eaten', left', rest', hleft, hrest, he⟩, htake, hdrop⟩ := ih hd
        simp only [heq, bodies_of_skipped hskipped hbody, List.length_cons]
        refine ⟨⟨eaten ++ eaten', left', rest', by simp [hleft], ?_, he⟩, ?_, ?_⟩
        · rw [through_of_skipped _ hskipped hbody, List.append_assoc, List.cons_append, ← hrest]
        · rw [List.take_succ_cons, List.take_succ_cons, List.map_cons, htake]
        · rwa [List.drop_succ_cons]
      · next halt d heq =>
        obtain ⟨hall, hd⟩ := hreceive
        obtain ⟨⟨eaten, left, rest, hleft, hrest, he⟩, -, hdrop⟩ := ih hd
        obtain ⟨rfl, rfl⟩ : eaten = [] ∧ left = [] := by simpa using hleft.symm
        obtain ⟨-, rfl⟩ : through (calls acts) [] = [] ∧ rest = [] := by simpa using hrest.symm
        simp only [heq, bodies_of_forall_none hall, List.length_nil]
        refine ⟨⟨ps, [], [], by simp, by simp [through_of_forall_none _ hall], he⟩, by simp, ?_⟩
        simpa [bodies] using hdrop

/-- Messages are cut into payloads of the root stream at any places, and the frames that carry
these lie between frames of other streams and of other kinds, none of which is an error. Then
the calls of any run return the bodies of the messages that have one, in order, each once, and
none returns when there are no more. After any of them, the bytes of the root stream that were
read are those of the messages up to the last delivered one, and behind them what is pending. -/
theorem received {t : Transport} (hunread : t.unread = Parcel.bytesOf ps)
    (hallowance : t.allowance = none) (hsound : ∀ p ∈ ps, ∃ f, p.frame = .ok f)
    (hfits : ∀ m ∈ ms, m.Fits) (hcut : rootBytes ps = ms.flatMap Message.encode)
    (acts : List Act) :
    (play acts (started t)).2.take (bodies ms).length =
        ((bodies ms).take (calls acts)).map .ok ∧
      (∀ r ∈ (play acts (started t)).2.drop (bodies ms).length, ∃ halt, r = .error halt) ∧
      ∃ eaten left, ps = eaten ++ left ∧
        (play acts (started t)).1.http.transport.unread = Parcel.bytesOf left ∧
        rootBytes eaten = (through (calls acts) ms).flatMap Message.encode ++
          (play acts (started t)).1.pending := by
  have hsame : Same { http := { transport := t } } (started t) :=
    (same_onHttp (Http2.Client.same_write _)).state _
  have hstart : (started t).Awaits ps ms :=
    hsame.awaits ⟨⟨hunread, hallowance⟩, hsound, rfl, hfits, hcut⟩
  obtain ⟨⟨eaten, left, rest, rfl, hrest, hd⟩, htake, hdrop⟩ := awaits_play hstart acts
  refine ⟨htake, hdrop, eaten, left, rfl, hd.holds.unread, ?_⟩
  -- What is left on both sides is the rest of the messages.
  have hbytes := hcut
  rw [hrest, List.flatMap_append, ← hd.bytes, rootBytes_append, ← List.append_assoc] at hbytes
  exact List.append_cancel_right hbytes

/-- A message without a body and one with. -/
def arriving : List Message :=
  [⟨Flags.alwaysSet, none, 1⟩, ⟨Flags.data, some (.dictionary [("Port", .uint64 58783)]), 2⟩]

/-- A frame of the root stream with some of the bytes of these messages. -/
def slice (before length : Nat) (h : length < 2 ^ 24) : Parcel :=
  ⟨0, 0, rootStream, ((arriving.flatMap Message.encode).drop before).take length,
    lt_of_le_of_lt (List.length_take_le _ _) h⟩

/-- The first frame ends in the header of the second message; a ping and data of another stream
come between the others. -/
def sliced : List Parcel :=
  [slice 0 30 (by decide), ⟨6, 0, 0, [1, 2, 3, 4, 5, 6, 7, 8], by decide⟩, slice 30 0 (by decide),
    ⟨0, 0, 3, [9], by decide⟩, slice 30 58 (by decide)]

/-- The near end of a transport that brings them three bytes at a time. -/
def slicing : Transport :=
  { unread := Parcel.bytesOf sliced, pace := fun _ => some 3 }

theorem fits_arriving : ∀ m ∈ arriving, m.Fits := by
  intro m hm o ho
  rcases List.mem_pair.1 hm with rfl | rfl
  · cases ho
  · cases ho
    refine ⟨.dictionary (by decide) (by decide) (by decide) ?_, by decide +kernel⟩
    intro e he
    rw [List.mem_singleton.1 he]
    exact .uint64 58783

theorem received_slicing :
    ((∀ p ∈ sliced, ∃ f, p.frame = .ok f) ∧ rootBytes sliced = arriving.flatMap Message.encode) ∧
      (play [.handshake, .receive, .receive] (started slicing)).2.take 1 =
        [.ok (.dictionary [("Port", .uint64 58783)])] ∧
      ∃ eaten left, sliced = eaten ++ left ∧
        rootBytes eaten = arriving.flatMap Message.encode ++
          (play [.handshake, .receive, .receive] (started slicing)).1.pending := by
  have hsound : ∀ p ∈ sliced, ∃ f, p.frame = .ok f := by
    intro p hp
    simp only [sliced, List.mem_cons, List.not_mem_nil, or_false] at hp
    rcases hp with rfl | rfl | rfl | rfl | rfl <;> exact ⟨_, rfl⟩
  have hcut : rootBytes sliced = arriving.flatMap Message.encode := by decide +kernel
  obtain ⟨htake, -, eaten, left, hps, -, hbytes⟩ :=
    received (show slicing.unread = Parcel.bytesOf sliced from rfl) rfl hsound fits_arriving hcut
      [.handshake, .receive, .receive]
  exact ⟨⟨hsound, hcut⟩, htake, eaten, left, hps, hbytes⟩

/-- A message that does not fit, as its date is before 1970, and one with a zero in a key. -/
def lossy : List Message :=
  [⟨Flags.data, some (.date (-1)), 1⟩, ⟨Flags.data, some (.dictionary [("a\x00", .bool true)]), 2⟩]

theorem length_lossy (i : Fin 2) : ((lossy.get i).encode).length < 2 ^ 24 := by
  revert i
  decide +kernel

/-- A frame for each of them. -/
def lossyFrames : List Parcel :=
  (List.finRange 2).map fun i => ⟨0, 0, rootStream, (lossy.get i).encode, length_lossy i⟩

/-- They come back as other objects: the date as the start of 1970, and the key up to its zero. -/
theorem received_lossy :
    (∀ p ∈ lossyFrames, ∃ f, p.frame = .ok f) ∧
      rootBytes lossyFrames = lossy.flatMap Message.encode ∧
      (play [.receive, .receive] (started { unread := Parcel.bytesOf lossyFrames })).2 =
        [.ok (.date 0), .ok (.dictionary [("a", .bool true)])] ∧
      (play [.receive, .receive] (started { unread := Parcel.bytesOf lossyFrames })).2 ≠
        (bodies lossy).map .ok := by
  have hresults : (play [.receive, .receive] (started { unread := Parcel.bytesOf lossyFrames })).2 =
      [.ok (.date 0), .ok (.dictionary [("a", .bool true)])] := by
    cbv
  have hsound : ∀ p ∈ lossyFrames, ∃ f, p.frame = .ok f := by
    intro p hp
    obtain ⟨i, -, rfl⟩ := List.mem_map.1 hp
    exact ⟨_, rfl⟩
  refine ⟨hsound, by decide +kernel, hresults, ?_⟩
  rw [hresults]
  intro h
  simp [bodies, lossy] at h

end Client

end Tether.Xpc
