import Tether.Proofs.Http2.Parcel
import Tether.Proofs.Transport

/-!
# Frame after frame

A reader knows where the next frame starts only from the length of the one before. So whatever it
makes of a frame, it has to take all of it, also where the frame is an error. It does: on any bytes
at all a reading takes the header and as many bytes as that announces, or the transport has failed
it. What is written as a frame is therefore read as this frame, and what is behind it is left.

The length of a frame has three bytes, so no frame can have a payload of 2 ^ 24 bytes or more. One
that is written all the same announces less than it has.

* `Frame.read_of_complete`, `Frame.read_of_not_complete`: a reading of any bytes;
* `Frame.Fits.exists_parcel`: what is written of a frame is one parcel, which means this frame;
* `Frame.readTimes_bytesOf`: reading again and again takes one parcel each time;
* `Frame.synchronised`: all of it.
-/

namespace Tether

/-- A piece of full size in front is cut off. -/
theorem pieces_append {α : Type} {size : Nat} (h : 0 < size) {xs ys : List α}
    (hxs : xs.length = size) : pieces size (xs ++ ys) = xs :: pieces size ys := by
  cases xs with
  | nil => exact absurd h (by simp [← hxs])
  | cons x xs =>
    have hlength : xs.length = size - 1 := by
      rw [← hxs, List.length_cons, Nat.add_sub_cancel]
    rw [List.cons_append, pieces, List.take_left' hlength, List.drop_left' hlength]

namespace Http2

variable {t : Transport}

/-! ## What a frame announces -/

/-- The length of the payload of the frame in front. -/
def announced (bs : Bytes) : Nat :=
  Bytes.toNatBE (bs.take 3)

/-- All of the frame in front is there. -/
def Complete (bs : Bytes) : Prop :=
  Frame.headerLength + announced bs ≤ bs.length

/-- The frame in front was taken off, and nothing else has changed. -/
def Passed (t u : Transport) : Prop :=
  Complete t.unread ∧ ∃ reads, u =
    { t with unread := t.unread.drop (Frame.headerLength + announced t.unread), reads := reads }

/-- The transport failed, or nothing more comes from it. -/
inductive Severed : Halt DeviceError → Prop where
  | waiting : Severed .waiting
  | failed (fault : Fault) : Severed (.failed (.socket fault))

/-- What becomes of a failure of the transport in a reading. -/
def ofSocket : Halt Fault → Halt DeviceError
  | .failed fault => .failed (.socket fault)
  | .waiting => .waiting

theorem severed_ofSocket (halt : Halt Fault) : Severed (ofSocket halt) := by
  cases halt with
  | failed fault => exact .failed fault
  | waiting => exact .waiting

theorem zoom_socket_of_error {α : Type} {c : Call Fault Transport α} {halt : Halt Fault}
    {u : Transport} (h : c t = .error halt u) :
    Call.zoom id (fun _ u => u) DeviceError.socket c t = .error (ofSocket halt) u := by
  cases halt <;> simp [Call.zoom, h, ofSocket]

namespace Frame

/-- What the frame in front means. -/
def front (bs : Bytes) : Except DeviceError Frame :=
  let header := bs.take headerLength
  ofPayload (header.getD 3 0) (header.getD 4 0)
    (streamBits (UInt32.ofNat (Bytes.toNatBE (header.drop 5))))
    ((bs.drop headerLength).take (announced bs))

theorem take_take_header (bs : Bytes) : (bs.take headerLength).take 3 = bs.take 3 := by
  rw [List.take_take]
  rfl

/-- A frame that is whole is so with more bytes behind it, and means the same. -/
theorem front_append {bs : Bytes} (h : Complete bs) (more : Bytes) :
    Complete (bs ++ more) ∧ front (bs ++ more) = front bs := by
  have hle : headerLength + announced bs ≤ bs.length := h
  have hheader : headerLength ≤ bs.length := le_trans (Nat.le_add_right _ _) hle
  have hlength : announced (bs ++ more) = announced bs := by
    rw [announced, List.take_append_of_le_length (le_trans (by decide) hheader), announced]
  refine ⟨?_, ?_⟩
  · rw [Complete, hlength, List.length_append]
    exact le_trans hle (Nat.le_add_right _ _)
  · rw [front, hlength, List.take_append_of_le_length hheader,
      List.drop_append_of_le_length hheader,
      List.take_append_of_le_length (by rw [List.length_drop]; omega), front]

/-- Where all of a frame is there, it is taken, whatever it means and however its bytes arrive. -/
theorem read_of_complete (h : Complete t.unread) :
    ∃ u, Passed t u ∧
      Frame.read t = (Call.ofExcept (front t.unread) : Call DeviceError Transport Frame) u := by
  have hle : headerLength + announced t.unread ≤ t.unread.length := h
  have hheader : (t.unread.take headerLength).length = headerLength :=
    List.length_take_of_le (by omega)
  obtain ⟨reads, hread⟩ := read_of_header hheader
    (List.take_append_drop headerLength t.unread).symm
    (by rw [take_take_header, List.length_drop]; exact Nat.le_sub_of_add_le' hle)
  rw [take_take_header, List.drop_drop] at hread
  exact ⟨_, ⟨h, reads, rfl⟩, hread⟩

/-- Where it is not, the transport fails the reader, and what there was of the frame is lost. -/
theorem read_of_not_complete (h : ¬ Complete t.unread) :
    ∃ halt reads, Severed halt ∧
      Frame.read t = .error halt { t with unread := [], reads := reads } := by
  -- Either the header is there and the payload behind it falls short, or the header does.
  by_cases hheader : headerLength ≤ t.unread.length
  · obtain ⟨reads, hfirst⟩ := Transport.readExact_of_le hheader
    have hshort : (t.unread.drop headerLength).length <
        Bytes.toNatBE ((t.unread.take headerLength).take 3) := by
      rw [take_take_header, List.length_drop]
      exact Nat.sub_lt_left_of_lt_add hheader (Nat.lt_of_not_le h)
    obtain ⟨halt, n, hsecond⟩ := Transport.readExact_of_lt
      (t := { t with unread := t.unread.drop headerLength, reads := reads }) hshort
    have hpayload := zoom_socket_of_error hsecond
    refine ⟨ofSocket halt, n, severed_ofSocket halt, ?_⟩
    simp only [Frame.read, bind, EStateM.bind, Call.zoom, id, hfirst] at hpayload ⊢
    rw [hpayload]
  · obtain ⟨halt, n, hfirst⟩ := Transport.readExact_of_lt (Nat.lt_of_not_le hheader)
    refine ⟨ofSocket halt, n, severed_ofSocket halt, ?_⟩
    simp only [Frame.read, bind, EStateM.bind, zoom_socket_of_error hfirst]

theorem not_severed_of_ofPayload {type flags : UInt8} {stream : UInt32} {payload : Bytes}
    {e : DeviceError} (h : ofPayload type flags stream payload = .error e) :
    ¬ Severed (.failed e) := by
  rintro ⟨fault⟩
  rw [ofPayload] at h
  split at h
  case h_8 => split at h <;> cases h
  all_goals cases h

/-- Any reading takes all of the frame in front, or fails because all of it is not there. -/
theorem ends_read_passed (t : Transport) :
    Frame.read.Ends t (fun f u => Passed t u ∧ front t.unread = .ok f)
      (fun halt u => (Severed halt ∧ ¬ Complete t.unread) ∨
        (¬ Severed halt ∧ Passed t u ∧ ∃ e, halt = .failed e ∧ front t.unread = .error e)) := by
  by_cases h : Complete t.unread
  · obtain ⟨u, hpassed, hread⟩ := read_of_complete h
    cases hfront : front t.unread with
    | ok f =>
      rw [hfront] at hread
      simp only [Call.Ends, hread, Call.ofExcept, pure, EStateM.pure]
      exact ⟨hpassed, trivial⟩
    | error e =>
      rw [hfront] at hread
      simp only [Call.Ends, hread, Call.ofExcept, Call.fail, throw, throwThe, MonadExceptOf.throw,
        EStateM.throw]
      exact .inr ⟨not_severed_of_ofPayload hfront, hpassed, e, rfl, rfl⟩
  · obtain ⟨halt, reads, hsevered, hread⟩ := read_of_not_complete h
    rw [Call.Ends, hread]
    exact .inl ⟨hsevered, h⟩

/-! ## Frames that are written -/

/-- Frames that the library writes, with streams and increments of 31 bits and a payload whose
length three bytes can hold. -/
inductive Fits : Frame → Prop where
  | settings {announced : List Setting} {stream : UInt32} {flags : UInt8}
    (hlength : (announced.flatMap Setting.toBytes).length < 2 ^ 24)
    (hstream : stream.toNat < 2 ^ 31) : Fits (settings announced stream flags)
  | data {stream : UInt32} {payload : Bytes} (hlength : payload.length < 2 ^ 24)
    (hstream : stream.toNat < 2 ^ 31) : Fits (data stream payload)
  | headers {stream : UInt32} (hstream : stream.toNat < 2 ^ 31) : Fits (headers stream)
  | windowUpdate {increment stream : UInt32} (hincrement : increment.toNat < 2 ^ 31)
    (hstream : stream.toNat < 2 ^ 31) : Fits (windowUpdate increment stream)
  | ping {flags : UInt8} {payload : Bytes} (hlength : payload.length < 2 ^ 24) :
    Fits (ping flags payload)

end Frame

/-- A number of 31 bits has no reserved bit. -/
theorem streamBits_of_lt {n : UInt32} (h : n.toNat < 2 ^ 31) : streamBits n = n := by
  have hmask : (0x7fffffff : UInt32).toNat = 2 ^ 31 - 1 := rfl
  rw [← UInt32.toNat_inj, streamBits, UInt32.toNat_and, hmask, Nat.and_two_pow_sub_one_eq_mod,
    Nat.mod_eq_of_lt h]

theorem Setting.length_toBytes (s : Setting) : s.toBytes.length = 6 := by
  simp [Setting.toBytes]

/-- Parameters that were written are all found again. -/
theorem Setting.ofPayload_flatMap (announced : List Setting) :
    Setting.ofPayload (announced.flatMap Setting.toBytes) = announced := by
  induction announced with
  | nil => simp [Setting.ofPayload, pieces]
  | cons s announced ih =>
    have hid : s.id % 256 ^ 2 = s.id := by cases s <;> rfl
    have hvalue : s.value.toNat % 256 ^ 4 = s.value.toNat := Nat.mod_eq_of_lt s.value.toNat_lt
    have hpair : Setting.ofPair? (Bytes.toNatBE (s.toBytes.take 2))
        (UInt32.ofNat (Bytes.toNatBE (s.toBytes.drop 2))) = some s := by
      rw [Setting.toBytes, List.take_left' (Bytes.length_ofNatBE 2 s.id),
        List.drop_left' (Bytes.length_ofNatBE 2 s.id), Bytes.toNatBE_ofNatBE,
        Bytes.toNatBE_ofNatBE, hid, hvalue, UInt32.ofNat_toNat, Setting.ofPair?_id_value]
    rw [Setting.ofPayload] at ih ⊢
    rw [List.flatMap_cons, pieces_append (by decide) s.length_toBytes, List.filterMap_cons,
      if_pos s.length_toBytes, hpair, ih]

namespace Frame

/-- What is written of a frame is one parcel, which means this frame. -/
theorem Fits.exists_parcel {f : Frame} (h : f.Fits) :
    ∃ p : Parcel, f.toBytes = p.toBytes ∧ p.frame = .ok f := by
  cases h with
  | @settings announced stream flags hlength hstream =>
    refine ⟨⟨4, flags, streamBits stream, _, hlength⟩, rfl, ?_⟩
    simp only [Parcel.frame, Parcel.stream, streamBits_of_lt hstream]
    exact congrArg (fun ss => Except.ok (Frame.settings ss stream flags))
      (Setting.ofPayload_flatMap announced)
  | @data stream payload hlength hstream =>
    refine ⟨⟨0, 0, streamBits stream, payload, hlength⟩, rfl, ?_⟩
    simp only [Parcel.frame, Parcel.stream, streamBits_of_lt hstream]
    rfl
  | @headers stream hstream =>
    refine ⟨⟨1, endHeaders, streamBits stream, [], Parcel.length_nil_lt⟩, rfl, ?_⟩
    simp only [Parcel.frame, Parcel.stream, streamBits_of_lt hstream]
    rfl
  | @windowUpdate increment stream hincrement hstream =>
    refine ⟨⟨8, 0, streamBits stream, _, Parcel.length_word_lt _⟩, rfl, ?_⟩
    have hword : Bytes.toNatBE ((Bytes.ofNatBE 4 increment.toNat).take 4) = increment.toNat := by
      rw [List.take_of_length_le (by simp), Bytes.toNatBE_ofNatBE,
        Nat.mod_eq_of_lt increment.toNat_lt]
    simp only [Parcel.frame, Parcel.stream, streamBits_of_lt hstream, streamBits_of_lt hincrement]
    simp [ofPayload, hword, streamBits_of_lt hincrement]
  | @ping flags payload hlength => exact ⟨⟨6, flags, 0, payload, hlength⟩, rfl, rfl⟩

/-! ## Reading again and again -/

/-- What so many readings give, and the state that they leave. -/
def readTimes : Nat → Transport → List (Except (Halt DeviceError) Frame) × Transport
  | 0, t => ([], t)
  | n + 1, t =>
    let later := readTimes n (Frame.read.state t)
    (Frame.read.result t :: later.1, later.2)

/-- As many readings as there are parcels take one each, whatever they mean: after an error the next
reading starts with the next parcel. -/
theorem readTimes_bytesOf {ps : List Parcel} {rest : Bytes}
    (h : t.unread = Parcel.bytesOf ps ++ rest) :
    ∃ reads, readTimes ps.length t =
      (ps.map fun p => p.frame.mapError .failed, { t with unread := rest, reads := reads }) := by
  induction ps generalizing t with
  | nil => exact ⟨t.reads, by rw [← h.trans (List.nil_append rest)]; rfl⟩
  | cons p ps ih =>
    rw [Parcel.bytesOf_cons, List.append_assoc] at h
    obtain ⟨n, hread⟩ := read_append_toBytes h
    -- A frame or an error, the bytes behind the parcel are what is left.
    have hstep : Frame.read.result t = p.frame.mapError .failed ∧
        Frame.read.state t = { t with unread := Parcel.bytesOf ps ++ rest, reads := n } := by
      rw [Call.result, Call.state, hread]
      cases p.frame <;> exact ⟨rfl, rfl⟩
    obtain ⟨reads, hlater⟩ := ih (t := Frame.read.state t) (by rw [hstep.2])
    refine ⟨reads, ?_⟩
    rw [List.length_cons, readTimes, hlater, hstep.1, hstep.2, List.map_cons]

/-- What is written of a frame is read as this frame, and what is behind it is left. On any bytes,
a reading takes exactly the frame in front, with a header of nine bytes and as many behind it as it
announces, if it gives a frame or an error of its own; it fails otherwise because not all of the
frame is there. So readings that are repeated take frame after frame, also where some of them are
errors. All of it holds however the bytes arrive. -/
theorem synchronised :
    (∀ (f : Frame) (rest : Bytes) (t : Transport), f.Fits → t.unread = f.toBytes ++ rest →
      ∃ reads, Frame.read t = .ok f { t with unread := rest, reads := reads }) ∧
    (∀ t : Transport, Frame.read.Ends t (fun _ u => Passed t u)
      (fun halt u => (¬ Severed halt ∧ Passed t u) ∨ (Severed halt ∧ ¬ Complete t.unread))) ∧
    ∀ (ps : List Parcel) (rest : Bytes) (t : Transport), t.unread = Parcel.bytesOf ps ++ rest →
      ∃ reads, readTimes ps.length t =
        (ps.map fun p => p.frame.mapError .failed, { t with unread := rest, reads := reads }) := by
  refine ⟨fun f rest t hfits h => ?_, fun t => ?_, fun ps rest t h => readTimes_bytesOf h⟩
  · obtain ⟨p, htoBytes, hframe⟩ := hfits.exists_parcel
    rw [htoBytes] at h
    obtain ⟨reads, hread⟩ := read_append_toBytes h
    rw [hframe] at hread
    exact ⟨reads, hread⟩
  · refine (ends_read_passed t).mono (fun _ _ hok => hok.1) fun halt u herror => ?_
    rcases herror with hsevered | ⟨hnot, hpassed, -⟩
    · exact .inr hsevered
    · exact .inl ⟨hnot, hpassed⟩

/-- Bytes that come one at a time. -/
def trickling (bs : Bytes) : Transport :=
  { unread := bs, pace := fun _ => some 1 }

/-- Two parameters, acknowledged at once. -/
def limits : Frame :=
  settings [.maxConcurrentStreams 100, .enablePush false] 1 acknowledged

/-- A farewell. -/
def farewell : Parcel :=
  ⟨7, 0, 0, List.replicate 8 0 ++ Bytes.ofString "bye", by decide⟩

/-- Data behind it, with the reserved bit set. -/
def afterwards : Parcel :=
  ⟨0, 1, 0x80000003, [1, 2, 3], by decide⟩

/-- Parameters are read that come byte by byte, and the part of a frame behind them is left; of a
farewell with data behind it both are read. -/
theorem synchronised_trickling :
    limits.Fits ∧
      (∃ reads, Frame.read (trickling (limits.toBytes ++ [0, 0])) =
        .ok limits { trickling [0, 0] with reads := reads }) ∧
      ∃ reads, readTimes 2 (trickling (Parcel.bytesOf [farewell, afterwards] ++ [0, 0])) =
        ([.error (.failed (.goAway "bye")), .ok (.data 3 [1, 2, 3])],
          { trickling [0, 0] with reads := reads }) := by
  have hfits : limits.Fits := .settings (by decide) (by decide)
  have hfarewell : farewell.frame = .error (.goAway "bye") :=
    congrArg (fun text => Except.error (DeviceError.goAway text)) (Text.lossy_ofString "bye")
  obtain ⟨hread, -, hreads⟩ := synchronised
  obtain ⟨reads, hlater⟩ := hreads [farewell, afterwards] [0, 0] _
    (show (trickling (Parcel.bytesOf [farewell, afterwards] ++ [0, 0])).unread = _ from rfl)
  rw [List.map_cons, hfarewell] at hlater
  exact ⟨hfits, hread _ _ _ hfits rfl, reads, hlater⟩

/-! ## Longer payloads -/

/-- A ping whose payload is as long as three bytes can just not say announces none. -/
theorem read_ping_of_length {payload : Bytes} (h : payload.length = 2 ^ 24) :
    ∃ reads, Frame.read { unread := (Frame.ping 0 payload).toBytes } =
      .ok (.ping 0 []) { unread := payload, reads := reads } := by
  obtain ⟨reads, hread⟩ := read_assemble (t := { unread := (Frame.ping 0 payload).toBytes })
    (List.append_nil _).symm
  rw [h, Nat.mod_self, List.take_zero, List.drop_zero, List.append_nil] at hread
  exact ⟨reads, hread⟩

/-- A payload whose length takes four bytes. -/
def vast : Bytes :=
  List.replicate (2 ^ 24) 0xff

/-- A ping with such a payload is not read back. -/
theorem not_read_back_vast :
    ¬ ∃ reads, Frame.read { unread := (Frame.ping 0 vast).toBytes } =
      .ok (.ping 0 vast) { unread := [], reads := reads } := by
  have hlength : vast.length = 2 ^ 24 := List.length_replicate
  -- Only the length of the payload matters; nothing should compute its bytes.
  generalize vast = payload at hlength ⊢
  rintro ⟨reads, hread⟩
  obtain ⟨reads', hread'⟩ := read_ping_of_length hlength
  rw [hread'] at hread
  injection hread with hframe
  injection hframe with _ hpayload
  rw [← hpayload] at hlength
  contradiction

end Frame

end Http2

end Tether
