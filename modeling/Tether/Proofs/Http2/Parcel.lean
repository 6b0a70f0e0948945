import Tether.Http2.Client
import Tether.Proofs.Call

/-!
# Frames on the wire

A *parcel* is one complete frame as another end may write it: any type, any flags, the
reserved bit as it comes, any payload whose length three bytes can hold. What lies unread on
a transport is a list of parcels, and a reader takes exactly one of them at a time, however
the bytes arrive and whatever the parcel means.

What a parcel asks of a reader is said here of its bytes, without the reader: which payload it
has for which stream, and which parcels answer it.

* `Frame.read_of_header`, `Frame.read_append_toBytes`: reading a frame takes one parcel;
* `Frame.read_assemble`: what is read of a frame with a payload of any length;
* `Frame.ofPayload_data_iff`: the frames with data are the parcels of type zero;
* `Parcel.toBytes_ack` and the like: the bytes of the frames an answer is made of.
-/

namespace Tether

/-- A number is written as what its bytes can hold of it. -/
theorem Bytes.ofNatBE_mod (width n : Nat) : ofNatBE width (n % 256 ^ width) = ofNatBE width n := by
  have h := ofNatLE_toNatLE (ofNatLE width n)
  rw [length_ofNatLE, toNatLE_ofNatLE] at h
  rw [ofNatBE, h, ofNatBE]

namespace Http2

/-- The reserved bit is taken off once. -/
theorem streamBits_streamBits (n : UInt32) : streamBits (streamBits n) = streamBits n := by
  rw [streamBits, streamBits, UInt32.and_assoc, UInt32.and_self]

/-- A complete frame on the wire. -/
structure Parcel where
  type : UInt8
  flags : UInt8
  /-- The reserved bit and the stream. -/
  word : UInt32
  payload : Bytes
  fits : payload.length < 2 ^ 24

namespace Parcel

variable {p : Parcel} {s : UInt32} {e : DeviceError}

/-- The bytes of a parcel. -/
def toBytes (p : Parcel) : Bytes :=
  Bytes.ofNatBE 3 p.payload.length ++ [p.type, p.flags] ++ Bytes.ofNatBE 4 p.word.toNat ++ p.payload

/-- Parcels one after the other. -/
def bytesOf (ps : List Parcel) : Bytes :=
  ps.flatMap toBytes

@[simp] theorem bytesOf_nil : bytesOf [] = [] :=
  rfl

@[simp] theorem bytesOf_cons (p : Parcel) (ps : List Parcel) :
    bytesOf (p :: ps) = p.toBytes ++ bytesOf ps :=
  List.flatMap_cons

/-- The stream of a parcel. -/
def stream (p : Parcel) : UInt32 :=
  streamBits p.word

/-- What a parcel means to a reader. -/
def frame (p : Parcel) : Except DeviceError Frame :=
  Frame.ofPayload p.type p.flags p.stream p.payload

/-- The payload a parcel has for a stream. -/
def payloadFor? (s : UInt32) (p : Parcel) : Option Bytes :=
  if p.type = 0 ∧ p.stream = s then some p.payload else none

theorem length_nil_lt : ([] : Bytes).length < 2 ^ 24 := by
  simp

theorem length_word_lt (n : Nat) : (Bytes.ofNatBE 4 n).length < 2 ^ 24 := by
  simp

/-- The answer to parameters. -/
def settingsAck : Parcel :=
  ⟨4, 1, 0, [], length_nil_lt⟩

/-- The answer to a ping. -/
def pingAck (p : Parcel) : Parcel :=
  ⟨6, 1, 0, p.payload, p.fits⟩

/-- Lets the other end send as many bytes more as a parcel has. -/
def refill (p : Parcel) (s : UInt32) : Parcel :=
  ⟨8, 0, s, Bytes.ofNatBE 4 p.payload.length, length_word_lt _⟩

/-- What is written because of a parcel: an answer to parameters and pings that are no answers
themselves, and the windows for data on an even stream, unless it is empty. -/
def answers (p : Parcel) : List Parcel :=
  if p.type = 4 ∧ p.flags &&& 1 = 0 then [settingsAck]
  else if p.type = 6 ∧ p.flags &&& 1 = 0 then [p.pingAck]
  else if p.type = 0 ∧ p.stream % 2 = 0 ∧ p.payload ≠ [] then [p.refill 0, p.refill p.stream]
  else []

@[simp] theorem length_toBytes (p : Parcel) : p.toBytes.length = 9 + p.payload.length := by
  simp [toBytes]
  omega

theorem length_le_length_bytesOf (ps : List Parcel) : ps.length ≤ (bytesOf ps).length := by
  induction ps with
  | nil => rfl
  | cons p ps ih =>
    simp only [List.length_cons, bytesOf_cons, List.length_append, length_toBytes]
    omega

theorem payloadFor?_of_type (h : p.type = 0) :
    p.payloadFor? s = if p.stream = s then some p.payload else none := by
  simp [payloadFor?, h]

theorem payloadFor?_of_type_ne (h : p.type ≠ 0) : p.payloadFor? s = none := by
  simp [payloadFor?, h]

theorem answers_of_data (h : p.type = 0) :
    p.answers =
      if p.stream % 2 = 0 ∧ p.payload ≠ [] then [p.refill 0, p.refill p.stream] else [] := by
  simp [answers, h]

theorem answers_of_settings (h : p.type = 4) :
    p.answers = if p.flags &&& 1 = 0 then [settingsAck] else [] := by
  simp [answers, h]

theorem answers_of_ping (h : p.type = 6) :
    p.answers = if p.flags &&& 1 = 0 then [p.pingAck] else [] := by
  simp [answers, h]

theorem answers_eq_nil (h : p.type ≠ 0 ∧ p.type ≠ 4 ∧ p.type ≠ 6) : p.answers = [] := by
  simp [answers, h]

/-! ### Answers as frames -/

theorem toBytes_settingsAck : Frame.settingsAck.toBytes = settingsAck.toBytes :=
  rfl

theorem toBytes_pingAck (p : Parcel) :
    (Frame.ping Frame.acknowledged p.payload).toBytes = p.pingAck.toBytes :=
  rfl

/-- The length of a payload is a number of 32 bits. -/
theorem toNat_length (p : Parcel) : (UInt32.ofNat p.payload.length).toNat = p.payload.length := by
  have hfits := p.fits
  rw [UInt32.toNat_ofNat']
  omega

/-- It is one of 31 bits, so the reserved bit is not set. -/
theorem streamBits_length (p : Parcel) :
    streamBits (UInt32.ofNat p.payload.length) = UInt32.ofNat p.payload.length := by
  have hfits := p.fits
  have hmask : (0x7fffffff : UInt32).toNat = 2 ^ 31 - 1 := rfl
  rw [← UInt32.toNat_inj, streamBits, UInt32.toNat_and, hmask, Nat.and_two_pow_sub_one_eq_mod,
    p.toNat_length]
  omega

theorem toBytes_refill (p : Parcel) (hs : streamBits s = s) :
    (Frame.windowUpdate (UInt32.ofNat p.payload.length) s).toBytes = (p.refill s).toBytes := by
  simp [Frame.toBytes, Frame.assemble, toBytes, refill, p.streamBits_length, p.toNat_length, hs]

/-! ### What a parcel is -/

@[simp] theorem streamBits_stream (p : Parcel) : streamBits p.stream = p.stream :=
  streamBits_streamBits p.word

/-- Besides data, parameters and pings, a parcel is something that a reader passes over or an
error. -/
theorem frame_cases (p : Parcel) :
    (p.type = 0 ∧ p.frame = .ok (.data p.stream p.payload)) ∨
      (p.type = 4 ∧ p.frame = .ok (.settings (Setting.ofPayload p.payload) p.stream p.flags)) ∨
      (p.type = 6 ∧ p.frame = .ok (.ping p.flags p.payload)) ∨
      ((p.type ≠ 0 ∧ p.type ≠ 4 ∧ p.type ≠ 6) ∧
        ((p.frame = .ok (.headers p.stream) ∨ p.frame = .ok .priority ∨
            ∃ increment, p.frame = .ok (.windowUpdate increment p.stream)) ∨
          ∃ e, p.frame = .error e)) := by
  have htype (n : UInt8) : p.type = n ↔ p.type.toNat = n.toNat := UInt8.toNat_inj.symm
  simp only [frame, Frame.ofPayload, ne_eq, htype]
  split <;> simp_all
  split <;> simp

/-- Data, parameters and pings are no errors. -/
theorem type_ne_of_error (h : p.frame = .error e) : p.type ≠ 0 ∧ p.type ≠ 4 ∧ p.type ≠ 6 := by
  rcases p.frame_cases with ⟨-, heq⟩ | ⟨-, heq⟩ | ⟨-, heq⟩ | ⟨htype, -⟩
  · simp [heq] at h
  · simp [heq] at h
  · simp [heq] at h
  · exact htype

/-! ### Reading -/

/-- The part of a parcel in front of its payload. -/
def header (p : Parcel) : Bytes :=
  Bytes.ofNatBE 3 p.payload.length ++ [p.type, p.flags] ++ Bytes.ofNatBE 4 p.word.toNat

@[simp] theorem length_header (p : Parcel) : p.header.length = Frame.headerLength := by
  simp [header, Frame.headerLength]

/-- A parcel's header tells its length, type, flags and stream. -/
theorem ofPayload_header (p : Parcel) :
    Bytes.toNatBE (p.header.take 3) = p.payload.length ∧
      Frame.ofPayload (p.header.getD 3 0) (p.header.getD 4 0)
        (streamBits (UInt32.ofNat (Bytes.toNatBE (p.header.drop 5)))) p.payload = p.frame := by
  have hsplit : p.header = Bytes.ofNatBE 3 p.payload.length ++
      (p.type :: p.flags :: Bytes.ofNatBE 4 p.word.toNat) := by
    simp [header]
  have hfits := p.fits
  have hlength : Bytes.toNatBE (p.header.take 3) = p.payload.length := by
    rw [hsplit, List.take_left' (by simp), Bytes.toNatBE_ofNatBE, Nat.mod_eq_of_lt (by omega)]
  have hword : UInt32.ofNat (Bytes.toNatBE (p.header.drop 5)) = p.word := by
    have hlt := p.word.toNat_lt
    rw [hsplit, show 5 = (Bytes.ofNatBE 3 p.payload.length).length + 2 by simp,
      List.drop_length_add_append, List.drop_succ_cons, List.drop_succ_cons, List.drop_zero,
      Bytes.toNatBE_ofNatBE, Nat.mod_eq_of_lt (by omega), UInt32.ofNat_toNat]
  refine ⟨hlength, ?_⟩
  rw [hword, hsplit]
  simp [frame, stream]

end Parcel

/-- Reading a frame takes a header and as many bytes behind it as it says, however they arrive. -/
theorem Frame.read_of_header {t : Transport} {header behind : Bytes}
    (hlength : header.length = headerLength) (h : t.unread = header ++ behind)
    (hle : Bytes.toNatBE (header.take 3) ≤ behind.length) :
    ∃ reads, Frame.read t =
      (Call.ofExcept (ofPayload (header.getD 3 0) (header.getD 4 0)
        (streamBits (UInt32.ofNat (Bytes.toNatBE (header.drop 5))))
        (behind.take (Bytes.toNatBE (header.take 3)))) : Call DeviceError Transport Frame)
        { t with unread := behind.drop (Bytes.toNatBE (header.take 3)), reads := reads } := by
  obtain ⟨n, hheader⟩ := Transport.readExact_of_le (n := headerLength) (t := t)
    (by rw [h, List.length_append]; omega)
  rw [h, List.take_left' hlength, List.drop_left' hlength] at hheader
  obtain ⟨m, hpayload⟩ := Transport.readExact_of_le (n := Bytes.toNatBE (header.take 3))
    (t := { t with unread := behind, reads := n }) hle
  refine ⟨m, ?_⟩
  simp only [Frame.read, bind, EStateM.bind, Call.zoom, id, hheader, hpayload]

/-- Reading a frame takes exactly one parcel, whatever it means and however its bytes arrive, and
leaves what is behind it. -/
theorem Frame.read_append_toBytes {p : Parcel} {rest : Bytes} {t : Transport}
    (h : t.unread = p.toBytes ++ rest) :
    ∃ reads, Frame.read t =
      (Call.ofExcept p.frame : Call DeviceError Transport Frame)
        { t with unread := rest, reads := reads } := by
  obtain ⟨hlength, hframe⟩ := p.ofPayload_header
  have hunread : t.unread = p.header ++ (p.payload ++ rest) := by
    simp [h, Parcel.toBytes, Parcel.header]
  obtain ⟨reads, hread⟩ := read_of_header p.length_header hunread (by simp [hlength])
  rw [hlength, List.take_left, List.drop_left, hframe] at hread
  exact ⟨reads, hread⟩

theorem Frame.read_bytesOf {p : Parcel} {ps : List Parcel} {t : Transport}
    (h : t.unread = Parcel.bytesOf (p :: ps)) :
    ∃ reads, Frame.read t =
      (Call.ofExcept p.frame : Call DeviceError Transport Frame)
        { t with unread := Parcel.bytesOf ps, reads := reads } :=
  read_append_toBytes (h.trans (Parcel.bytesOf_cons p ps))

/-- A frame is read as far as its three bytes of length say, and the rest is left. -/
theorem Frame.read_assemble {t : Transport} {type flags : UInt8} {stream : UInt32}
    {payload rest : Bytes} (h : t.unread = assemble type flags stream payload ++ rest) :
    ∃ reads, Frame.read t =
      (Call.ofExcept (ofPayload type flags (streamBits stream)
        (payload.take (payload.length % 2 ^ 24))) : Call DeviceError Transport Frame)
        { t with unread := payload.drop (payload.length % 2 ^ 24) ++ rest, reads := reads } := by
  have hle : payload.length % 2 ^ 24 ≤ payload.length := Nat.mod_le _ _
  have hlength : (payload.take (payload.length % 2 ^ 24)).length = payload.length % 2 ^ 24 :=
    List.length_take_of_le hle
  let p : Parcel := ⟨type, flags, streamBits stream, payload.take (payload.length % 2 ^ 24), by
    rw [hlength]
    exact Nat.mod_lt _ (by decide)⟩
  have hunread : t.unread = p.toBytes ++ (payload.drop (payload.length % 2 ^ 24) ++ rest) := by
    have hwidth := Bytes.ofNatBE_mod 3 payload.length
    simp only [h, assemble, p, Parcel.toBytes, hlength, hwidth, List.append_assoc]
    rw [← List.append_assoc (payload.take _), List.take_append_drop]
  obtain ⟨reads, hread⟩ := read_append_toBytes hunread
  have hstream : p.stream = streamBits stream := streamBits_streamBits stream
  rw [Parcel.frame, hstream] at hread
  exact ⟨reads, hread⟩

/-- So is a frame with data. -/
theorem Frame.read_data {t : Transport} {stream : UInt32} {payload rest : Bytes}
    (h : t.unread = (Frame.data stream payload).toBytes ++ rest) :
    ∃ reads, Frame.read t =
      .ok (.data (streamBits stream) (payload.take (payload.length % 2 ^ 24)))
        { t with unread := payload.drop (payload.length % 2 ^ 24) ++ rest, reads := reads } :=
  read_assemble h

/-- Without bytes there is no frame, and nothing changes. -/
theorem Frame.read_nil {t : Transport} (h : t.unread = []) :
    ∃ halt, Frame.read t = .error halt t := by
  obtain ⟨halt, hread⟩ : ∃ halt, Transport.readExact Frame.headerLength t = .error halt t := by
    cases he : t.ending <;>
      simp [Transport.readExact, Frame.headerLength, Transport.readMore, bind, EStateM.bind,
        Transport.read, h, he, Call.fail, throw, throwThe, MonadExceptOf.throw, EStateM.throw]
  cases halt <;> simp [Frame.read, bind, EStateM.bind, Call.zoom, hread]

end Http2

end Tether
