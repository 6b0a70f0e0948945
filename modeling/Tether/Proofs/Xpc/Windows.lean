import Tether.Proofs.Http2.Credit
import Tether.Proofs.Xpc.Receiving

/-!
# The windows of a connection

The handshake gives every stream a window and makes the one of the connection as large. What is read
is given back, but only what came on streams that the device opened: their own windows are as large
again as soon as their data was read. The windows of the root stream and of the reply stream are
never refilled, and what comes on these is lost to the window of the connection as well. A device
that has sent as much on them as one window holds may not send anything any more, on any stream.

* `streamWindow`, `connectionWindow`: what the device may still send;
* `repaid_play`: a run gives back what it has read;
* `windows_of_handshake`: the credit and the windows of any run behind a handshake.
-/

namespace Tether.Xpc

open Http2 (Parcel Frame granted refund volume)

/-! ## Windows -/

/-- What the device may still send on a stream, when it was let to by these pieces and has sent
these frames. -/
def streamWindow (s : UInt32) (written : List Bytes) (sent : List Parcel) : Int :=
  Client.initialWindowSize.toNat + granted s written - volume (· = s) sent

/-- What it may still send on all streams together. A connection starts with 65535 bytes. -/
def connectionWindow (written : List Bytes) (sent : List Parcel) : Int :=
  65535 + granted 0 written - volume (fun _ => True) sent

/-- The streams of the device and the others are all streams. -/
theorem volume_even_add_odd (ps : List Parcel) :
    volume (· % 2 = 0) ps + volume (· % 2 ≠ 0) ps = volume (fun _ => True) ps := by
  induction ps with
  | nil => rfl
  | cons p ps ih =>
    rw [← List.singleton_append, Http2.volume_append, Http2.volume_append, Http2.volume_append,
      Http2.volume_singleton, Http2.volume_singleton, Http2.volume_singleton, ← ih]
    by_cases htype : p.type = 0 <;> by_cases heven : p.stream % 2 = 0 <;> simp [htype, heven] <;>
      omega

namespace Client

variable {c d : Client} {ps : List Parcel}

/-! ## Runs -/

/-- Of the frames that lie unread some are consumed, and what they are worth is given back. -/
def Repaid (c d : Client) : Prop :=
  Http2.Repays c.http.transport d.http.transport

instance isPreorder_repaid : IsPreorder Client Repaid where
  refl c := refl_of Http2.Repays c.http.transport
  trans _ _ _ h h' := trans_of Http2.Repays h h'

theorem repaid_onHttp {α : Type} {call : Call DeviceError Http2.Client α}
    (h : Call.Respects Http2.Client.Repaid call) : Call.Respects Repaid (onHttp call) :=
  h.zoom fun _ _ h => h

theorem repaid_sendRoot (flags : Flags) (body : Option Object) :
    Call.Respects Repaid (sendRoot flags body) := by
  refine Call.Respects.get.bind fun c => ?_
  have hsend (payload : Bytes) :
      Http2.Client.Grants 0 (Http2.Client.send payload rootStream) := by
    have hne : (Frame.data rootStream payload).toBytes ≠ [] := by
      simp [Frame.toBytes, Http2.Frame.assemble]
    exact (Http2.Client.grants_write hne).congr fun s =>
      (Http2.gain_data s rootStream payload).symm
  exact (repaid_onHttp (hsend _).repaid).bind fun _ => Call.Respects.modify fun c =>
    refl_of Repaid c

theorem repaid_receiveMore (fuel : Nat) : Call.Respects Repaid (receiveMore fuel) := by
  induction fuel with
  | zero => exact Call.Respects.throw .waiting
  | succ fuel ih =>
    refine Call.Respects.get.bind fun c => ?_
    dsimp only
    split
    · refine (repaid_onHttp (Http2.Client.repaid_take rootStream)).bind fun payload => ?_
      refine Call.Respects.bind (Call.Respects.modify fun c => ?_) fun _ => ih
      exact refl_of Http2.Repays c.http.transport
    · refine (Call.Respects.ofExcept _).bind fun m => ?_
      refine Call.Respects.bind (Call.Respects.modify fun c => ?_) fun _ => ?_
      · exact refl_of Http2.Repays c.http.transport
      · split
        · exact Call.Respects.pure _
        · exact ih

theorem repaid_receive : Call.Respects Repaid receive :=
  Call.Respects.get.bind fun _ => repaid_receiveMore _

/-- So a run without a further handshake gives back what it has read. -/
theorem repaid_play {acts : List Act} (hacts : Act.handshake ∉ acts) (c : Client) :
    Repaid c (play acts c).1 := by
  induction acts generalizing c with
  | nil => exact refl_of Repaid c
  | cons act acts ih =>
    have hrest : Act.handshake ∉ acts := fun h => hacts (List.mem_cons_of_mem act h)
    cases act with
    | handshake => exact absurd List.mem_cons_self hacts
    | send object expectReply =>
      exact trans_of Repaid ((repaid_sendRoot _ _).state c) (ih hrest _)
    | receive => exact trans_of Repaid (repaid_receive.state c) (ih hrest _)

/-! ## The handshake -/

/-- What a handshake writes on a new connection. -/
def opening : List Bytes :=
  [(Frame.settings [.maxConcurrentStreams maxConcurrentStreams,
      .initialWindowSize initialWindowSize] 0 0).toBytes,
    (Frame.windowUpdate windowIncrement 0).toBytes, (Frame.headers rootStream).toBytes,
    (Frame.data rootStream
      (Message.encode ⟨Flags.alwaysSet, some (.dictionary []), 1⟩)).toBytes,
    (Frame.data rootStream (Message.encode ⟨rootOpened, none, 2⟩)).toBytes,
    (Frame.headers replyStream).toBytes,
    (Frame.data replyStream
      (Message.encode ⟨Flags.initHandshake ||| Flags.alwaysSet, none, 1⟩)).toBytes]

/-- How far a handshake has come since `c`: what it wrote, and the identifiers of the next messages
on the two streams. -/
structure Stage (c : Client) (pieces : List Bytes) (root reply : UInt64) (d : Client) : Prop where
  written : d.http.transport.written = c.http.transport.written ++ pieces
  unread : d.http.transport.unread = c.http.transport.unread
  rootId : d.rootId = root
  replyId : d.replyId = reply

variable {pieces : List Bytes} {root reply : UInt64}

/-- One frame more, if it can be written. -/
theorem Stage.ends_writeFrame (h : Stage c pieces root reply d) (f : Frame)
    (hne : f.toBytes ≠ []) :
    (onHttp (Http2.Client.writeFrame f)).Ends d
      (fun _ e => Stage c (pieces ++ [f.toBytes]) root reply e) (fun _ _ => True) := by
  rw [onHttp, Call.ends_zoom, Http2.Client.writeFrame, Http2.Client.write,
    Http2.Client.onTransport, Call.ends_zoom, Call.ends_zoom]
  refine (Transport.ends_writeAll hne).mono ?_ ?_
  · rintro a t ⟨hunread, hwritten, -⟩
    have hpieces := congrArg (· ++ [f.toBytes]) h.written
    exact ⟨hwritten.trans (hpieces.trans (List.append_assoc _ _ _)), hunread.trans h.unread,
      h.rootId, h.replyId⟩
  · rintro halt t -
    cases halt <;> trivial

/-- One message more on the root stream. -/
theorem Stage.ends_sendRoot (h : Stage c pieces root reply d) (flags : Flags)
    (body : Option Object) :
    (sendRoot flags body).Ends d
      (fun _ e => Stage c
        (pieces ++ [(Frame.data rootStream (Message.encode ⟨flags, body, root⟩)).toBytes])
        (root + 1) reply e)
      (fun _ _ => True) := by
  rw [sendRoot, Call.ends_bind, Call.ends_get, Call.ends_bind, h.rootId]
  refine (h.ends_writeFrame (.data rootStream _) (by simp [Frame.toBytes, Frame.assemble])).mono
    (fun _ e he => ?_) fun _ _ => id
  exact ⟨he.written, he.unread, congrArg (· + 1) he.rootId, he.replyId⟩

/-- One message more on the reply stream. -/
theorem Stage.ends_sendReply (h : Stage c pieces root reply d) (flags : Flags)
    (body : Option Object) :
    (sendReply flags body).Ends d
      (fun _ e => Stage c
        (pieces ++ [(Frame.data replyStream (Message.encode ⟨flags, body, reply⟩)).toBytes])
        root (reply + 1) e)
      (fun _ _ => True) := by
  rw [sendReply, Call.ends_bind, Call.ends_get, Call.ends_bind, h.replyId]
  refine (h.ends_writeFrame (.data replyStream _) (by simp [Frame.toBytes, Frame.assemble])).mono
    (fun _ e he => ?_) fun _ _ => id
  exact ⟨he.written, he.unread, he.rootId, congrArg (· + 1) he.replyId⟩

theorem ends_handshake (hroot : c.rootId = 1) (hreply : c.replyId = 1) :
    handshake.Ends c (fun _ d => Stage c opening 3 2 d) (fun _ _ => True) := by
  have hstart : Stage c [] 1 1 c := ⟨(List.append_nil _).symm, rfl, hroot, hreply⟩
  have hne (f : Frame) : f.toBytes ≠ [] := by
    cases f <;> simp [Frame.toBytes, Frame.assemble]
  -- Parameters and window, the root stream with two messages, the reply stream with one.
  rw [handshake, Call.ends_bind]
  refine (hstart.ends_writeFrame _ (hne _)).mono (fun _ d h => ?_) fun _ _ => id
  rw [Call.ends_bind]
  refine (h.ends_writeFrame _ (hne _)).mono (fun _ d h => ?_) fun _ _ => id
  rw [Call.ends_bind]
  refine (h.ends_writeFrame _ (hne _)).mono (fun _ d h => ?_) fun _ _ => id
  rw [Call.ends_bind]
  refine (h.ends_sendRoot _ _).mono (fun _ d h => ?_) fun _ _ => id
  rw [Call.ends_bind]
  refine (h.ends_sendRoot _ _).mono (fun _ d h => ?_) fun _ _ => id
  rw [Call.ends_bind]
  refine (h.ends_writeFrame _ (hne _)).mono (fun _ d h => ?_) fun _ _ => id
  exact h.ends_sendReply _ _

/-- The window of the connection grows by what is needed to make it as large as the others. -/
theorem granted_opening (s : UInt32) :
    granted s opening = if s = 0 then windowIncrement.toNat else 0 := by
  have hupdates : opening.map Http2.update? =
      [none, some (windowIncrement, 0), none, none, none, none, none] := by
    cbv
  rw [Http2.granted_eq, hupdates]
  simp [eq_comm]

theorem update?_preface : Http2.update? Http2.Client.preface = none := by
  cbv

/-- A connection that was just started has consumed nothing and granted nothing. -/
theorem started_spec (t : Transport) :
    (started t).http.transport.unread = t.unread ∧ (started t).rootId = 1 ∧
      (started t).replyId = 1 ∧
      ∀ s, granted s (started t).http.transport.written ≤ granted s t.written := by
  have hne : Http2.Client.preface ≠ [] := by decide
  have hpreface := Http2.Client.grants_write hne { transport := t }
  refine Call.Ends.state (P := fun d : Client => d.http.transport.unread = t.unread ∧ d.rootId = 1 ∧
    d.replyId = 1 ∧ ∀ s, granted s d.http.transport.written ≤ granted s t.written) ?_
  rw [start, onHttp, Call.ends_zoom]
  have hle {u : Transport} (h : Http2.Credited (fun s => Http2.gain s Http2.Client.preface) t u)
      (s : UInt32) : granted s u.written ≤ granted s t.written := by
    have hle := h.le s
    rwa [Http2.gain_of_none update?_preface, Nat.add_zero] at hle
  refine hpreface.mono ?_ ?_
  · rintro a http ⟨hunread, hcredited⟩
    exact ⟨hunread, rfl, rfl, hle hcredited⟩
  · rintro halt http ⟨hunread, hcredited, -⟩
    cases halt <;> exact ⟨hunread, rfl, rfl, hle hcredited⟩

/-- Behind a handshake, whatever is sent and received and whatever frames come: a client grants on
each stream no more than what the data is worth that it has read, and just that, as long as the
transport takes what is written. The device has a whole window again on each of its own streams, and
on the others it has what it did not use up yet. What it sent on these is missing from the window of
the connection as well; data on stream zero, which is no stream, is counted twice. -/
theorem windows_of_handshake {t : Transport} (hunread : t.unread = Parcel.bytesOf ps)
    (hfresh : t.written = []) (hhandshake : handshake (started t) = .ok ⟨⟩ c) {acts : List Act}
    (hacts : Act.handshake ∉ acts) :
    ∃ eaten left written, ps = eaten ++ left ∧
      (play acts c).1.http.transport.unread = Parcel.bytesOf left ∧
      (play acts c).1.http.transport.written = written ∧ opening <:+: written ∧
      (∀ s, granted s written ≤ (if s = 0 then windowIncrement.toNat else 0) + refund s eaten) ∧
      (¬ (play acts c).1.http.transport.IsSpent →
        (∀ s, granted s written = (if s = 0 then windowIncrement.toNat else 0) + refund s eaten) ∧
        (∀ s, s ≠ 0 → streamWindow s written eaten =
          1048576 - if s % 2 = 0 then 0 else (volume (· = s) eaten : Int)) ∧
        connectionWindow written eaten =
          1048576 + volume (· = 0) eaten - volume (· % 2 ≠ 0) eaten) := by
  obtain ⟨hstart, hroot, hreply, hnone⟩ := started_spec t
  have hstage : Stage (started t) opening 3 2 c := by
    have hends := ends_handshake hroot hreply
    rwa [Call.Ends, hhandshake] at hends
  -- What was granted before the run is what the handshake grants.
  have hopened (s : UInt32) : granted s c.http.transport.written =
      if s = 0 then windowIncrement.toNat else 0 := by
    have hzero := hnone s
    rw [hfresh] at hzero
    rw [hstage.written, Http2.granted_append, granted_opening, Nat.le_zero.1 hzero, Nat.zero_add]
  have hps : c.http.transport.unread = Parcel.bytesOf ps :=
    hstage.unread.trans (hstart.trans hunread)
  obtain ⟨eaten, left, hsplit, hleft, hcredited⟩ := repaid_play hacts c ps hps
  have hinfix : opening <:+: (play acts c).1.http.transport.written := by
    refine List.IsInfix.trans ?_ hcredited.grows.isInfix
    rw [hstage.written]
    exact (List.suffix_append _ _).isInfix
  refine ⟨eaten, left, _, hsplit, hleft, rfl, hinfix, fun s => hopened s ▸ hcredited.le s,
    fun hspent => ?_⟩
  have hgranted (s : UInt32) : granted s (play acts c).1.http.transport.written =
      (if s = 0 then windowIncrement.toNat else 0) + refund s eaten :=
    hopened s ▸ (hcredited.eq hspent).2 s
  have hwindow : (initialWindowSize.toNat : Int) = 1048576 := rfl
  have hincrement : (windowIncrement.toNat : Int) = 983041 := rfl
  refine ⟨hgranted, fun s hs => ?_, ?_⟩
  · rw [streamWindow, hgranted, if_neg hs, refund, if_neg hs, hwindow]
    split_ifs <;> omega
  · have hsum := volume_even_add_odd eaten
    have heven : (0 : UInt32) % 2 = 0 := rfl
    rw [connectionWindow, hgranted, if_pos rfl, refund, if_pos heven, if_pos rfl, ← hsum]
    push_cast
    omega

/-- Data of a stream of the device, and a message on the root stream. -/
def mixed : List Parcel :=
  [⟨0, 0, 2, [21, 22], by decide⟩,
    ⟨0, 0, rootStream, heading 16 ++ encode (.bool true), by decide⟩]

/-- A transport that brings them. -/
def mixing : Transport :=
  { unread := Parcel.bytesOf mixed, ending := .silent }

/-- The client behind its handshake. -/
def greeted : Client :=
  handshake.state (started mixing)

theorem handshake_mixing : handshake (started mixing) = .ok ⟨⟩ greeted :=
  rfl

/-- The device has its two bytes back, but not the forty bytes of the message. -/
theorem windows_mixing :
    (mixing.unread = Parcel.bytesOf mixed ∧ mixing.written = []) ∧
      (play [.receive] greeted).2 = [.ok (.bool true)] ∧
      ∃ written, (play [.receive] greeted).1.http.transport.written = written ∧
        granted 2 written = 2 ∧ granted 1 written = 0 ∧ granted 0 written = 983043 ∧
        streamWindow 2 written mixed = 1048576 ∧ streamWindow 1 written mixed = 1048536 ∧
        connectionWindow written mixed = 1048536 := by
  have hresults : (play [.receive] greeted).2 = [.ok (.bool true)] := by cbv
  have hread : (play [.receive] greeted).1.http.transport.unread = [] := by cbv
  have hallowance : (play [.receive] greeted).1.http.transport.allowance = none := by cbv
  have hacts : Act.handshake ∉ [Act.receive] := by simp
  obtain ⟨eaten, left, written, hsplit, hleft, hwritten, -, -, hequal⟩ :=
    windows_of_handshake (show mixing.unread = Parcel.bytesOf mixed from rfl) rfl handshake_mixing
      hacts
  -- Everything was read.
  obtain rfl : left = [] := by
    have hlength := Parcel.length_le_length_bytesOf left
    rw [← hleft, hread] at hlength
    exact List.eq_nil_of_length_eq_zero (Nat.le_zero.1 hlength)
  rw [List.append_nil] at hsplit
  subst hsplit
  have hspent : ¬ (play [.receive] greeted).1.http.transport.IsSpent := by
    rw [Transport.IsSpent, hallowance]
    simp
  obtain ⟨hgranted, hstreams, hconnection⟩ := hequal hspent
  refine ⟨⟨rfl, rfl⟩, hresults, written, hwritten, ?_, ?_, ?_, ?_, ?_, ?_⟩
  · exact (hgranted 2).trans (by decide)
  · exact (hgranted 1).trans (by decide)
  · exact (hgranted 0).trans (by decide)
  · exact (hstreams 2 (by decide)).trans (by decide)
  · exact (hstreams 1 (by decide)).trans (by decide)
  · exact hconnection.trans (by decide)

/-- So what is granted on the root stream is not what was read on it, and neither is what the run
granted for the connection. -/
theorem not_refilled_mixing :
    (play [.receive] greeted).1.http.transport.unread = [] ∧
      volume (· = rootStream) mixed = 40 ∧ volume (fun _ => True) mixed = 42 ∧
      granted rootStream greeted.http.transport.written = 0 ∧
      granted rootStream (play [.receive] greeted).1.http.transport.written = 0 ∧
      granted 0 (play [.receive] greeted).1.http.transport.written ≠
        granted 0 greeted.http.transport.written + volume (fun _ => True) mixed := by
  have hbefore : greeted.http.transport.written.map Http2.update? =
      [none, none, some (windowIncrement, 0), none, none, none, none, none] := by
    cbv
  have hbehind : (play [.receive] greeted).1.http.transport.written.map Http2.update? =
      [none, none, some (windowIncrement, 0), none, none, none, none, none,
        some (2, 0), some (2, 2)] := by
    cbv
  have hvolume : volume (fun _ => True) mixed = 42 := by decide
  refine ⟨by cbv, by decide, hvolume, ?_, ?_, ?_⟩
  · rw [Http2.granted_eq, hbefore]
    decide
  · rw [Http2.granted_eq, hbehind]
    decide
  · rw [Http2.granted_eq, Http2.granted_eq, hbefore, hbehind, hvolume]
    decide

end Client

end Tether.Xpc
