import Tether.Proofs.Http2.Order
import Tether.Proofs.Http2.Synchrony

/-!
# Credit that is given back

Another end may send as many bytes of data as it was let to, on each stream and over the whole
connection; stream zero stands for the connection. A reader gives back what it has read by window
updates, in pairs: one for the connection and one for the stream. It does so for the streams that
the device opened, whatever it reads for, and for no other streams.

How much was given is told from what was written, piece by piece, as another end reads it. No call
writes more credit than the data that it has consumed is worth (`refund`). It writes just that, as
long as the transport takes what is written.

* `granted`: how much some pieces let another end send on a stream;
* `refund`: what is given back for some frames;
* `Repays`, `repays_take`: any reading gives back what it takes.
-/

namespace Tether

namespace Http2

open Parcel (bytesOf)

/-! ## What pieces grant -/

/-- The increment and the stream of a window update. -/
def Frame.update? : Frame → Option (UInt32 × UInt32)
  | windowUpdate increment stream => some (increment, stream)
  | _ => none

/-- The window update that another end reads from some bytes. -/
def update? (piece : Bytes) : Option (UInt32 × UInt32) :=
  match Frame.read { unread := piece } with
  | .ok frame _ => frame.update?
  | .error _ _ => none

/-- How much a piece lets another end send on a stream. -/
def gain (s : UInt32) (piece : Bytes) : Nat :=
  (update? piece).elim 0 fun update => if update.2 = s then update.1.toNat else 0

/-- How much some pieces let another end send on a stream. -/
def granted (s : UInt32) (pieces : List Bytes) : Nat :=
  (pieces.map (gain s)).sum

variable {s stream : UInt32} {piece : Bytes} {p : Parcel} {ps : List Parcel}

@[simp] theorem granted_append (s : UInt32) (as bs : List Bytes) :
    granted s (as ++ bs) = granted s as + granted s bs := by
  simp [granted]

@[simp] theorem granted_singleton (s : UInt32) (piece : Bytes) : granted s [piece] = gain s piece :=
  List.sum_singleton

theorem granted_eq (s : UInt32) (pieces : List Bytes) :
    granted s pieces = ((pieces.map update?).map fun update =>
      update.elim 0 fun u => if u.2 = s then u.1.toNat else 0).sum := by
  rw [List.map_map]
  rfl

theorem update?_of_read {f : Frame} {u : Transport} (h : Frame.read { unread := piece } = .ok f u) :
    update? piece = f.update? := by
  rw [update?, h]

theorem gain_of_none (h : update? piece = none) : gain s piece = 0 := by
  rw [gain, h]
  rfl

/-- A frame that is read is read with more bytes behind it. -/
theorem Frame.read_append {bs : Bytes} {f : Frame} {u : Transport} (more : Bytes)
    (h : Frame.read { unread := bs } = .ok f u) :
    ∃ v, Frame.read { unread := bs ++ more } = .ok f v := by
  -- What could be read is a whole frame; behind it more bytes are only left.
  have hcomplete : Complete bs := by
    by_contra hnot
    obtain ⟨halt, reads, -, hread⟩ := read_of_not_complete (t := { unread := bs }) hnot
    rw [hread] at h
    contradiction
  obtain ⟨hmore, hfront⟩ := front_append hcomplete more
  obtain ⟨v, -, hshort⟩ := read_of_complete (t := { unread := bs }) hcomplete
  obtain ⟨w, -, hlonger⟩ := read_of_complete (t := { unread := bs ++ more }) hmore
  rw [hshort] at h
  rw [hlonger, hfront]
  cases hframe : front bs with
  | error e =>
    rw [hframe] at h
    contradiction
  | ok f' =>
    rw [hframe] at h
    cases h
    exact ⟨_, rfl⟩

/-- What is cut off from a piece does not grant more. -/
theorem gain_take_le (s : UInt32) (piece : Bytes) (n : Nat) :
    gain s (piece.take n) ≤ gain s piece := by
  cases hread : Frame.read { unread := piece.take n } with
  | error halt u => exact (gain_of_none (by rw [update?, hread])).trans_le (Nat.zero_le _)
  | ok f u =>
    obtain ⟨v, hwhole⟩ := Frame.read_append (piece.drop n) hread
    rw [List.take_append_drop] at hwhole
    rw [gain, gain, update?_of_read hread, update?_of_read hwhole]

/-- Another end reads a parcel as what it means. -/
theorem update?_toBytes {f : Frame} (h : p.frame = .ok f) : update? p.toBytes = f.update? := by
  have hunread : ({ unread := p.toBytes } : Transport).unread = bytesOf [p] :=
    (List.append_nil _).symm
  obtain ⟨reads, hread⟩ := Frame.read_bytesOf hunread
  rw [h] at hread
  exact update?_of_read hread

theorem frame_refill (p : Parcel) (hstream : streamBits stream = stream) :
    (p.refill stream).frame = .ok (.windowUpdate (UInt32.ofNat p.payload.length) stream) := by
  have hfits := p.fits
  have hread : Bytes.toNatBE ((Bytes.ofNatBE 4 p.payload.length).take 4) = p.payload.length := by
    rw [List.take_of_length_le (by simp), Bytes.toNatBE_ofNatBE, Nat.mod_eq_of_lt (by omega)]
  have hlong : ¬ (Bytes.ofNatBE 4 p.payload.length).length < 4 := by simp
  simp only [Parcel.frame, Parcel.refill, Parcel.stream, hstream, Frame.ofPayload, hread,
    p.streamBits_length]
  exact if_neg hlong

theorem gain_refill (p : Parcel) (hstream : streamBits stream = stream) (s : UInt32) :
    gain s (p.refill stream).toBytes = if stream = s then p.payload.length else 0 := by
  rw [gain, update?_toBytes (frame_refill p hstream)]
  simp only [Frame.update?, Option.elim, p.toNat_length]

/-- A frame that is no window update grants nothing. -/
theorem gain_toBytes {f : Frame} (hframe : p.frame = .ok f) (hupdate : f.update? = none)
    (s : UInt32) : gain s p.toBytes = 0 :=
  gain_of_none ((update?_toBytes hframe).trans hupdate)

/-- Data grants nothing, however long it is. -/
theorem gain_data (s stream : UInt32) (payload : Bytes) :
    gain s (Frame.data stream payload).toBytes = 0 := by
  have hunread : ({ unread := (Frame.data stream payload).toBytes } : Transport).unread =
      (Frame.data stream payload).toBytes ++ [] := (List.append_nil _).symm
  obtain ⟨reads, hread⟩ := Frame.read_data hunread
  exact gain_of_none (update?_of_read hread)

/-! ## What frames are worth -/

/-- How many bytes of data some frames have, on the streams of one kind. -/
def volume (on : UInt32 → Prop) [DecidablePred on] (ps : List Parcel) : Nat :=
  (ps.map fun p => if p.type = 0 ∧ on p.stream then p.payload.length else 0).sum

/-- How much of the data of some frames is given back on a stream: what came on the stream, if the
device opened it, and over the whole connection what came on all such streams. -/
def refund (s : UInt32) (ps : List Parcel) : Nat :=
  (if s % 2 = 0 then volume (· = s) ps else 0) + if s = 0 then volume (· % 2 = 0) ps else 0

@[simp] theorem volume_nil (on : UInt32 → Prop) [DecidablePred on] : volume on [] = 0 :=
  rfl

@[simp] theorem volume_append (on : UInt32 → Prop) [DecidablePred on] (ps qs : List Parcel) :
    volume on (ps ++ qs) = volume on ps + volume on qs := by
  simp [volume]

theorem volume_singleton (on : UInt32 → Prop) [DecidablePred on] (p : Parcel) :
    volume on [p] = if p.type = 0 ∧ on p.stream then p.payload.length else 0 :=
  List.sum_singleton

@[simp] theorem refund_nil (s : UInt32) : refund s [] = 0 := by
  simp [refund]

@[simp] theorem refund_append (s : UInt32) (ps qs : List Parcel) :
    refund s (ps ++ qs) = refund s ps + refund s qs := by
  simp only [refund, volume_append]
  split_ifs <;> omega

theorem refund_of_type_ne (h : p.type ≠ 0) (s : UInt32) : refund s [p] = 0 := by
  simp [refund, volume_singleton, h]

/-- The windows that are refilled for a frame with data are what it is worth. -/
theorem refund_of_even (htype : p.type = 0) (heven : p.stream % 2 = 0) (s : UInt32) :
    refund s [p] = gain s (p.refill 0).toBytes + gain s (p.refill p.stream).toBytes := by
  rw [gain_refill p rfl, gain_refill p p.streamBits_stream, refund, volume_singleton,
    volume_singleton]
  simp only [htype, heven, true_and, and_true, if_true]
  rw [Nat.add_comm]
  congr 1
  · simp only [eq_comm]
  · by_cases hs : p.stream = s
    · simp only [if_pos hs, hs ▸ heven, if_true]
    · simp only [if_neg hs, ite_self]

theorem refund_of_odd (hodd : p.stream % 2 ≠ 0) (s : UInt32) : refund s [p] = 0 := by
  rw [refund, volume_singleton, volume_singleton]
  simp only [hodd, and_false, if_false, ite_self, Nat.add_zero]
  by_cases hs : p.stream = s
  · rw [if_neg (hs ▸ hodd)]
  · simp only [hs, and_false, if_false, ite_self]

theorem refund_of_nil (hnil : p.payload = []) (s : UInt32) : refund s [p] = 0 := by
  simp [refund, volume_singleton, hnil]

/-! ## Credit of a run -/

/-- So much was granted between two states of a transport, and no more even where a write failed. -/
structure Credited (g : UInt32 → Nat) (t u : Transport) : Prop where
  grows : t.written <+: u.written
  le : ∀ s, granted s u.written ≤ granted s t.written + g s
  eq : ¬ u.IsSpent → ¬ t.IsSpent ∧ ∀ s, granted s u.written = granted s t.written + g s

variable {t u v : Transport} {g g' : UInt32 → Nat}

theorem Credited.of_written (hwritten : u.written = t.written)
    (hallowance : u.allowance = t.allowance) : Credited 0 t u where
  grows := hwritten ▸ List.prefix_rfl
  le s := (congrArg (granted s) hwritten).le
  eq h := by
    rw [Transport.IsSpent, hallowance] at h
    exact ⟨h, fun s => congrArg (granted s) hwritten⟩

theorem Credited.trans (h : Credited g t u) (h' : Credited g' u v) : Credited (g + g') t v where
  grows := h.grows.trans h'.grows
  le s := by
    have hle := h.le s
    have hle' := h'.le s
    rw [Pi.add_apply]
    omega
  eq hv := by
    obtain ⟨hu, heq'⟩ := h'.eq hv
    obtain ⟨ht, heq⟩ := h.eq hu
    refine ⟨ht, fun s => ?_⟩
    rw [heq', heq, Pi.add_apply, Nat.add_assoc]

/-- Where nothing more is written, more may have been due. -/
theorem Credited.of_isSpent (h : Credited g t u) (hspent : u.IsSpent) (g' : UInt32 → Nat) :
    Credited (g + g') t u where
  grows := h.grows
  le s := (h.le s).trans (by rw [Pi.add_apply]; omega)
  eq hu := absurd hspent hu

/-- Of these frames some were consumed, and what they are worth was given back. -/
def Consumed (ps : List Parcel) (t u : Transport) : Prop :=
  ∃ eaten left, ps = eaten ++ left ∧ u.unread = bytesOf left ∧
    Credited (fun s => refund s eaten) t u

/-- So it is with the frames that lie unread, if these are frames. -/
def Repays (t u : Transport) : Prop :=
  ∀ ps, t.unread = bytesOf ps → Consumed ps t u

theorem Consumed.nothing (hu : u.unread = bytesOf ps) (h : Credited 0 t u) : Consumed ps t u := by
  have hzero : (fun s => refund s []) = 0 := funext refund_nil
  exact ⟨[], ps, rfl, hu, hzero ▸ h⟩

theorem Consumed.trans (h : Consumed ps t u) (h' : Repays u v) : Consumed ps t v := by
  obtain ⟨eaten, left, rfl, hu, hcredited⟩ := h
  obtain ⟨eaten', left', rfl, hv, hcredited'⟩ := h' left hu
  have hsum : (fun s => refund s (eaten ++ eaten')) =
      (fun s => refund s eaten) + fun s => refund s eaten' :=
    funext fun s => refund_append s eaten eaten'
  exact ⟨eaten ++ eaten', left', (List.append_assoc _ _ _).symm, hv,
    hsum ▸ hcredited.trans hcredited'⟩

theorem Repays.of_credited (hunread : u.unread = t.unread) (h : Credited 0 t u) : Repays t u :=
  fun _ ht => .nothing (hunread.trans ht) h

instance isPreorder_repays : IsPreorder Transport Repays where
  refl _ := .of_credited rfl (.of_written rfl rfl)
  trans _ _ _ h h' ps ht := (h ps ht).trans h'

namespace Client

variable {c d e : Client} {α β : Type}

/-- A call reads nothing and writes so much credit; where it fails, nothing more is written. -/
def Grants (g : UInt32 → Nat) (call : Call DeviceError Client α) : Prop :=
  ∀ c, call.Ends c
    (fun _ d => d.transport.unread = c.transport.unread ∧ Credited g c.transport d.transport)
    (fun _ d => d.transport.unread = c.transport.unread ∧ Credited g c.transport d.transport ∧
      d.transport.IsSpent)

theorem Grants.pure (a : α) : Grants 0 (Pure.pure a : Call DeviceError Client α) :=
  fun _ => ⟨rfl, .of_written rfl rfl⟩

theorem Grants.bind {call : Call DeviceError Client α} {f : α → Call DeviceError Client β}
    (h : Grants g call) (hf : ∀ a, Grants g' (f a)) : Grants (g + g') (call >>= f) := by
  intro c
  rw [Call.ends_bind]
  refine (h c).mono ?_ ?_
  · rintro a d ⟨hunread, hd⟩
    refine (hf a d).mono ?_ ?_
    · rintro b e ⟨hunread', he⟩
      exact ⟨hunread'.trans hunread, hd.trans he⟩
    · rintro halt e ⟨hunread', he, hspent⟩
      exact ⟨hunread'.trans hunread, hd.trans he, hspent⟩
  · rintro halt d ⟨hunread, hd, hspent⟩
    exact ⟨hunread, hd.of_isSpent hspent g', hspent⟩

theorem Grants.congr {call : Call DeviceError Client α} (h : Grants g call)
    (hg : ∀ s, g' s = g s) : Grants g' call :=
  (funext hg : g' = g) ▸ h

theorem grants_write {piece : Bytes} (hne : piece ≠ []) :
    Grants (fun s => gain s piece) (write piece) := by
  intro c
  rw [write, onTransport, Call.ends_zoom, Call.ends_zoom]
  refine (Transport.ends_writeAll hne).mono ?_ ?_
  · rintro a t ⟨hunread, hwritten, hspent⟩
    exact ⟨hunread, ⟨⟨_, hwritten.symm⟩, fun s => by simp [hwritten], fun _ =>
      ⟨hspent, fun s => by simp [hwritten]⟩⟩⟩
  · rintro halt t ⟨hunread, hspent, hwritten⟩
    have hcredited : Credited (fun s => gain s piece) c.transport t := by
      refine ⟨?_, fun s => ?_, fun h => absurd hspent h⟩
      · rcases hwritten with hwritten | ⟨n, hwritten⟩
        · exact hwritten ▸ List.prefix_rfl
        · exact ⟨_, hwritten.symm⟩
      · rcases hwritten with hwritten | ⟨n, hwritten⟩
        · rw [hwritten]
          exact Nat.le_add_right _ _
        · rw [hwritten, granted_append, granted_singleton]
          exact Nat.add_le_add_left (gain_take_le s piece n) _
    cases halt <;> exact ⟨hunread, hcredited, hspent⟩

theorem grants_writeFrame {f : Frame} {q : Parcel} (hf : f.toBytes = q.toBytes) :
    Grants (fun s => gain s q.toBytes) (writeFrame f) := by
  have hne : q.toBytes ≠ [] := List.ne_nil_of_length_pos (by simp)
  rw [writeFrame, hf]
  exact grants_write hne

theorem grants_refill (hp : p.type = 0) :
    Grants (fun s => refund s [p]) (refill p.stream p.payload) := by
  rw [refill]
  split
  · next heven =>
    refine Grants.congr ((grants_writeFrame (p.toBytes_refill rfl)).bind fun _ =>
      grants_writeFrame (p.toBytes_refill p.streamBits_stream)) fun s => ?_
    rw [refund_of_even hp heven.1]
    rfl
  · next hnot =>
    refine Grants.congr (Grants.pure _) fun s => ?_
    by_cases heven : p.stream % 2 = 0
    · exact refund_of_nil (not_not.1 fun hne => hnot ⟨heven, hne⟩) s
    · exact refund_of_odd heven s

/-- An acknowledgement grants nothing. -/
theorem grants_acknowledge {f g : Frame} {q : Parcel} {answers : Prop} [Decidable answers]
    (hf : f.toBytes = q.toBytes) (hq : q.frame = .ok g) (hg : g.update? = none) :
    Grants 0
      (do
        if answers then writeFrame f
        pure (none : Option Bytes)) := by
  split
  · exact Grants.congr ((grants_writeFrame hf).bind fun _ => Grants.pure _) fun s =>
      (gain_toBytes hq hg s).symm
  · exact Grants.pure _

/-- What a frame does to a reader gives back what the frame is worth. -/
theorem grants_react {f : Frame} (hf : p.frame = .ok f) (s : UInt32) :
    Grants (fun s => refund s [p]) (react s f) := by
  rcases p.frame_cases with ⟨htype, heq⟩ | ⟨htype, heq⟩ | ⟨htype, heq⟩ | ⟨htype, heq⟩
  · -- Data: the windows, and then nothing that is written.
    obtain rfl : f = .data p.stream p.payload := by simpa [heq] using hf.symm
    have hdeliver : Grants 0
        (do
          if p.stream = s then pure (some p.payload)
          else
            enqueue p.stream p.payload
            pure none) := by
      split
      · exact Grants.pure _
      · exact fun c => ⟨rfl, .of_written rfl rfl⟩
    exact Grants.congr ((grants_refill htype).bind fun _ => hdeliver) fun s => rfl
  · -- Parameters.
    obtain rfl : f = .settings (Setting.ofPayload p.payload) p.stream p.flags := by
      simpa [heq] using hf.symm
    exact (grants_acknowledge Parcel.toBytes_settingsAck rfl rfl).congr
      (refund_of_type_ne (by simp [htype]))
  · -- A ping.
    obtain rfl : f = .ping p.flags p.payload := by simpa [heq] using hf.symm
    exact (grants_acknowledge p.toBytes_pingAck rfl rfl).congr
      (refund_of_type_ne (by simp [htype]))
  · -- Nothing to do.
    have hzero := refund_of_type_ne htype.1
    rcases heq with (heq | heq | ⟨_, heq⟩) | ⟨_, heq⟩ <;> rw [heq] at hf <;> cases hf <;>
      exact (Grants.pure _).congr hzero

/-! ### Readings -/

/-- What a call makes of the frames that lie unread. -/
def Repaid (c d : Client) : Prop :=
  Repays c.transport d.transport

instance isPreorder_repaid : IsPreorder Client Repaid where
  refl c := refl_of Repays c.transport
  trans _ _ _ h h' := trans_of Repays h h'

theorem Grants.repaid {call : Call DeviceError Client α} (h : Grants 0 call) :
    Call.Respects Repaid call := by
  intro c
  refine (h c).mono ?_ ?_
  · rintro a d ⟨hunread, hd⟩
    exact .of_credited hunread hd
  · rintro halt d ⟨hunread, hd, -⟩
    exact .of_credited hunread hd

/-- A frame that was read is given back at once: by what it does to a reader, or, if it is an error,
by nothing. -/
theorem repaid_takeMore (s : UInt32) (fuel : Nat) : Call.Respects Repaid (takeMore s fuel) := by
  induction fuel with
  | zero => exact Call.Respects.throw .waiting
  | succ fuel ih =>
    refine fun c => Call.Ends.forall fun ps => Call.Ends.imp fun hc => ?_
    rw [takeMore, Call.ends_bind]
    cases ps with
    | nil =>
      obtain ⟨halt, hread⟩ := Frame.read_nil hc
      rw [onTransport, Call.ends_zoom, Call.Ends, hread]
      cases halt <;> exact .nothing hc (.of_written rfl rfl)
    | cons p ps =>
      obtain ⟨reads, hread⟩ := Frame.read_bytesOf hc
      rw [onTransport, Call.ends_zoom, Call.Ends, hread]
      cases hp : p.frame with
      | error e =>
        have hworth : (fun s => refund s [p]) = 0 :=
          funext (refund_of_type_ne (Parcel.type_ne_of_error hp).1)
        exact ⟨[p], ps, rfl, rfl, hworth ▸ .of_written rfl rfl⟩
      | ok f =>
        let c₁ : Client :=
          { c with transport := { c.transport with unread := bytesOf ps, reads := reads } }
        -- Reading the frame wrote nothing.
        have hconsumed {d : Client} (hunread : d.transport.unread = bytesOf ps)
            (hd : Credited (fun s => refund s [p]) c₁.transport d.transport) :
            Consumed (p :: ps) c.transport d.transport :=
          ⟨[p], ps, rfl, hunread, zero_add (fun s => refund s [p]) ▸
            (Credited.of_written rfl rfl : Credited 0 c.transport c₁.transport).trans hd⟩
        change (react s f >>= _).Ends c₁ _ _
        rw [Call.ends_bind]
        refine (grants_react hp s c₁).mono ?_ ?_
        · rintro r d ⟨hunread, hd⟩
          have hd := hconsumed hunread hd
          cases r with
          | some payload => exact hd
          | none => exact (ih d).mono (fun _ _ he => hd.trans he) fun _ _ he => hd.trans he
        · rintro halt d ⟨hunread, hd, -⟩
          exact hconsumed hunread hd

theorem repaid_take (s : UInt32) : Call.Respects Repaid (take s) := by
  have hdequeue : Call.Respects Repaid (dequeue s) := by
    intro c
    rw [dequeue, Call.ends_bind, Call.ends_get]
    split
    · exact refl_of Repaid c
    · exact .of_credited rfl (.of_written rfl rfl)
  refine hdequeue.bind fun r => ?_
  cases r with
  | some payload => exact Call.Respects.pure payload
  | none => exact Call.Respects.get.bind fun c => repaid_takeMore s _

end Client

end Http2

end Tether
