import Tether.Proofs.Http2.Faults
import Tether.Proofs.Xpc.Encoding
import Tether.Proofs.Xpc.Positions
import Tether.Xpc.Client

/-!
# Where messages end

A header announces the length of its body in 64 bits. A receiver cuts its pending bytes where the
first message should end, and gives what is in front of the cut to the decoder, which checks the
length once more. The two agree as long as header and body together are shorter than 2⁶⁴ bytes: then
the decoder finds a whole header and the body behind it, and fails only because of the magic number
or of the body. If they are not, the sum wraps, and the receiver cuts inside of the header, and
fails there.

* `Message.Framed`: bytes that are as long as their header says;
* `Message.decode_take`: decoding what is in front of the cut;
* `isGarbled_of_decode`: the errors of a body, none of which is about the size of a message;
* `Client.Refuses`, `Client.ends_receive_refuses`: why receiving fails, if the connection does not;
* `Client.cut_of_span`: both functions, and what comes of them for a receiver.
-/

namespace Tether.Xpc

/-! ## Errors of readers -/

/-- The bytes are not those of an object. -/
inductive IsGarbled : DeviceError → Prop where
  | short {left n : Nat} (h : left < n) : IsGarbled (.notEnoughBytes left n)
  | magic : IsGarbled .invalidXpcMagic
  | version : IsGarbled .unexpectedXpcVersion
  | type (code : UInt32) : IsGarbled (.unknownXpcType code)
  | text : IsGarbled .invalidCString
  | deep : IsGarbled .malformedXpc

namespace Reader

variable {α β : Type} {P : DeviceError → Prop} {read : Reader α}

/-- From any bytes, a reader fails with errors of this kind only. -/
def FailsAs (P : DeviceError → Prop) (read : Reader α) : Prop :=
  ∀ bs e, read bs = .error e → P e

theorem failsAs_done (a : α) : (done a).FailsAs P :=
  fun _ _ h => by contradiction

theorem failsAs_check {r : Except DeviceError α} (h : ∀ e, r = .error e → P e) :
    (check r).FailsAs P := by
  cases r with
  | ok a => exact failsAs_done a
  | error e =>
    intro bs e' he
    cases he
    exact h e rfl

theorem FailsAs.andThen {next : α → Reader β} (h : read.FailsAs P)
    (hnext : ∀ a, (next a).FailsAs P) : (read.andThen next).FailsAs P := by
  intro bs e he
  simp only [Reader.andThen, bind, Except.bind] at he
  cases hfirst : read bs with
  | error e' =>
    rw [hfirst] at he
    cases he
    exact h bs e hfirst
  | ok first =>
    rw [hfirst] at he
    exact hnext first.1 first.2 e he

/-- What is read is changed, and what is left, but not the errors. -/
theorem FailsAs.map {f : α × Bytes → β × Bytes} (h : read.FailsAs P) :
    FailsAs P fun bs => (read bs).map f := by
  intro bs e he
  replace he : (read bs).map f = .error e := he
  cases hread : read bs with
  | ok first => rw [hread] at he; contradiction
  | error e' =>
    rw [hread] at he
    cases he
    exact h bs _ hread

theorem failsAs_take (n : Nat) : (take n).FailsAs IsGarbled := by
  intro bs e he
  rw [take] at he
  split at he
  · contradiction
  · next hshort =>
    cases he
    exact .short (Nat.lt_of_not_le hshort)

theorem failsAs_number (width : Nat) : (number width).FailsAs IsGarbled :=
  (failsAs_take width).map

theorem failsAs_takePadded (n : Nat) : (takePadded n).FailsAs IsGarbled :=
  (failsAs_take n).map

theorem failsAs_cString : cString.FailsAs IsGarbled := by
  intro bs e he
  simp only [cString] at he
  split at he
  · cases he
    exact .text
  · split at he
    · contradiction
    · cases he
      exact .text

theorem failsAs_fieldText (field : Bytes) : (check (fieldText field)).FailsAs IsGarbled := by
  refine failsAs_check fun e h => ?_
  rw [fieldText] at h
  split at h
  · split at h
    · contradiction
    · cases h
      exact .text
  · cases h
    exact .text

theorem compatible_failsAs : Compatible fun _ read _ => read.FailsAs IsGarbled where
  done := failsAs_done
  take := failsAs_take
  number := failsAs_number
  takePadded := failsAs_takePadded
  cString := failsAs_cString
  text := failsAs_fieldText
  andThen := FailsAs.andThen

end Reader

open Reader in
theorem failsAs_decodeObject (depth : Nat) : (decodeObject depth).FailsAs IsGarbled := by
  -- An error that is given as such is of the kind that it is.
  have hconst {e : DeviceError} (he : IsGarbled e) :
      (check (.error e) : Reader Object).FailsAs IsGarbled :=
    failsAs_check fun e' h => by cases h; exact he
  induction depth with
  | zero => exact hconst .deep
  | succ depth ih =>
    rw [decodeObject_succ]
    refine (failsAs_number 4).andThen fun code => ?_
    rw [untagged]
    cases Tag.ofCode? code with
    | none => exact hconst (.type _)
    | some tag => exact @Compatible.tagged _ _ (decodeObject depth) compatible_failsAs ih tag

theorem isGarbled_of_decode {bs : Bytes} {e : DeviceError} (h : decode bs = .error e) :
    IsGarbled e := by
  have hpayload : payload.FailsAs IsGarbled := by
    refine (Reader.failsAs_number 4).andThen fun magic => ?_
    split
    · exact Reader.failsAs_check fun e h => by cases h; exact .magic
    · refine (Reader.failsAs_number 4).andThen fun version => ?_
      split
      · exact Reader.failsAs_check fun e h => by cases h; exact .version
      · exact fun bs => failsAs_decodeObject (bs.length + 1) bs
  rw [decode_eq_payload] at h
  cases hread : payload bs with
  | ok o => rw [hread] at h; contradiction
  | error e' =>
    rw [hread] at h
    cases h
    exact hpayload bs e hread

/-! ## Headers -/

namespace Message

variable {bs b t : Bytes} {e : DeviceError}

/-- The length of its body that a header announces. -/
def announced (bs : Bytes) : Nat :=
  Bytes.toNatLE ((bs.drop 8).take 8)

/-- The length of the message that a header announces. -/
def span (bs : Bytes) : Nat :=
  headerLength + announced bs

/-- The bytes start with the magic number. -/
def Begins (bs : Bytes) : Prop :=
  Bytes.ofNatLE 4 magic <+: bs

instance decidableBegins (bs : Bytes) : Decidable (Begins bs) :=
  inferInstanceAs (Decidable (Bytes.ofNatLE 4 magic <+: bs))

/-- The message with this header and this body. -/
def ofParts (header body : Bytes) : Except DeviceError Message := do
  let object ← if body.length = 0 then .ok none else (Xpc.decode body).map some
  .ok
    { flags := ⟨UInt32.ofNat (Bytes.toNatLE ((header.drop 4).take 4))⟩, body := object
      id := UInt64.ofNat (Bytes.toNatLE ((header.drop 16).take 8)) }

/-- Bytes that are as long as their header says, and no longer than there are numbers for. -/
structure Framed (bs : Bytes) : Prop where
  length_eq : bs.length = span bs
  length_lt : bs.length < 2 ^ 64

theorem frameLength?_eq (h : 16 ≤ bs.length) :
    frameLength? bs = some (span bs % 2 ^ 64) :=
  if_neg (Nat.not_lt.2 h)

/-- More bytes do not change what is announced. -/
theorem span_congr (h : b <+: bs) (hlong : 16 ≤ b.length) : span bs = span b := by
  obtain ⟨t, rfl⟩ := h
  rw [span, span, announced, announced, List.drop_append_of_le_length (by omega),
    List.take_append_of_le_length (by rw [List.length_drop]; omega)]

theorem headerLength_le_span (bs : Bytes) : headerLength ≤ span bs :=
  Nat.le_add_right _ _

theorem span_lt (bs : Bytes) : span bs < 2 ^ 64 + headerLength := by
  have hlt := Bytes.toNatLE_lt ((bs.drop 8).take 8)
  have hle : ((bs.drop 8).take 8).length ≤ 8 := List.length_take_le _ _
  have hpow : 256 ^ ((bs.drop 8).take 8).length ≤ 256 ^ 8 := Nat.pow_le_pow_right (by decide) hle
  rw [span, announced]
  omega

/-- The length of a message is known as soon as sixteen of its bytes are there. -/
theorem Framed.frameLength?_of_prefix (h : Framed b) (hbs : bs <+: b ++ t)
    (hlong : 16 ≤ bs.length) : frameLength? bs = some b.length := by
  have hheader : 24 ≤ b.length := h.length_eq ▸ headerLength_le_span b
  have hspan : span bs = span b :=
    (span_congr hbs hlong).symm.trans
      (span_congr (List.prefix_append b t) (le_trans (by decide) hheader))
  rw [frameLength?_eq hlong, hspan, ← h.length_eq, Nat.mod_eq_of_lt h.length_lt]

theorem number_of_le {width : Nat} (h : width ≤ bs.length) :
    Reader.number width bs = .ok (Bytes.toNatLE (bs.take width), bs.drop width) := by
  rw [Reader.number, Reader.take, if_pos h]
  rfl

theorem begins_iff : Begins bs ↔ Bytes.toNatLE (bs.take 4) = magic ∧ 4 ≤ bs.length := by
  have hmagic : magic < 256 ^ 4 := by decide
  constructor
  · rintro ⟨t, rfl⟩
    refine ⟨?_, by simp⟩
    rw [List.take_left' (Bytes.length_ofNatLE 4 _), Bytes.toNatLE_ofNatLE_of_lt hmagic]
  · rintro ⟨hnumber, hlong⟩
    have hlength : (bs.take 4).length = 4 := List.length_take_of_le hlong
    have hbytes := Bytes.ofNatLE_toNatLE (bs.take 4)
    rw [hlength, hnumber] at hbytes
    exact ⟨bs.drop 4, by rw [hbytes, List.take_append_drop]⟩

theorem decode_of_lt (h : bs.length < headerLength) :
    decode bs = .error (.notEnoughBytes bs.length headerLength) := by
  rw [decode, if_pos h]
  rfl

/-- What is decoded, step by step, where a header is there. -/
theorem decode_of_le (h : headerLength ≤ bs.length) :
    decode bs =
      if ¬ Begins bs then .error .malformedXpc
      else if (bs.drop headerLength).length < announced bs then .error .packetSizeMismatch
      else ofParts (bs.take headerLength) ((bs.drop headerLength).take (announced bs)) := by
  rw [headerLength] at h
  have hbegins : Bytes.toNatLE (bs.take 4) = magic ↔ Begins bs := by
    rw [begins_iff, and_iff_left (by omega)]
  have hrest (n : Nat) (hn : n + 8 ≤ 24) : 8 ≤ (bs.drop n).length := by
    rw [List.length_drop]
    omega
  rw [decode, if_neg (by rw [headerLength]; omega)]
  simp only [number_of_le (show 4 ≤ bs.length by omega), bind, Except.bind]
  by_cases hmagic : Begins bs
  · simp only [ne_eq, hbegins.2 hmagic, not_true, if_false, hmagic]
    rw [number_of_le (by have := hrest 4 (by decide); omega)]
    simp only [List.drop_drop]
    rw [number_of_le (hrest 8 (by decide))]
    simp only [List.drop_drop]
    rw [number_of_le (hrest 16 (by decide))]
    simp only [List.drop_drop]
    by_cases hsize : (bs.drop headerLength).length < announced bs
    · rw [if_pos hsize]
      exact if_pos hsize
    · have hbody : ((bs.drop headerLength).take (announced bs)).length = announced bs :=
        List.length_take_of_le (Nat.not_lt.1 hsize)
      have hflags : ((bs.take headerLength).drop 4).take 4 = (bs.drop 4).take 4 := by
        rw [List.drop_take, List.take_take]
        rfl
      have hid : ((bs.take headerLength).drop 16).take 8 = (bs.drop 16).take 8 := by
        rw [List.drop_take, List.take_take]
        rfl
      rw [if_neg hsize, ofParts, hbody, hflags, hid]
      refine (if_neg hsize).trans ?_
      by_cases hzero : announced bs = 0
      · rw [if_pos hzero]
        exact if_pos hzero
      · rw [if_neg hzero]
        exact if_neg hzero
  · simp only [ne_eq, hbegins, hmagic, not_false_iff, if_true]

/-- In front of the place where a message should end there are its header and its body. -/
theorem decode_take (h : span bs ≤ bs.length) :
    decode (bs.take (span bs)) =
      if ¬ Begins bs then .error .malformedXpc
      else ofParts (bs.take headerLength) ((bs.take (span bs)).drop headerLength) := by
  have hheader := headerLength_le_span bs
  have hlength : (bs.take (span bs)).length = span bs := List.length_take_of_le h
  have hlong : 16 ≤ (bs.take (span bs)).length := by
    rw [hlength]
    exact le_trans (by decide) hheader
  have hspan : span (bs.take (span bs)) = span bs :=
    (span_congr (List.take_prefix _ _) hlong).symm
  have hbody : ((bs.take (span bs)).drop headerLength).length = announced bs := by
    rw [List.length_drop, hlength, span, Nat.add_sub_cancel_left]
  have hannounced : announced (bs.take (span bs)) = announced bs := Nat.add_left_cancel hspan
  have hbegins : Begins (bs.take (span bs)) ↔ Begins bs := by
    rw [Begins, Begins, List.prefix_take_iff, Bytes.length_ofNatLE,
      and_iff_left (le_trans (by decide) hheader)]
  rw [decode_of_le (by rw [hlength]; exact hheader), hannounced, hbody, if_neg (lt_irrefl _),
    List.take_of_length_le (le_of_eq hbody), List.take_take, Nat.min_eq_left hheader]
  simp only [hbegins]

/-- The parts of a message are a message, unless its body is garbled. -/
theorem decode_of_ofParts {header body : Bytes} (h : ofParts header body = .error e) :
    Xpc.decode body = .error e := by
  rw [ofParts] at h
  split at h
  · contradiction
  · cases hdecode : Xpc.decode body with
    | ok o => rw [hdecode] at h; contradiction
    | error e' =>
      rw [hdecode] at h
      cases h
      rfl

end Message

/-! ## Receiving -/

namespace Client

open Message

variable {c : Client} {pending : Bytes} {e : DeviceError}

/-- Why a receiver does not get past what is pending. -/
inductive Refuses (pending : Bytes) : DeviceError → Prop where
  /-- The length wraps, and a piece that is shorter than a header is cut off. -/
  | wraps (hheader : 16 ≤ pending.length) (hwraps : 2 ^ 64 ≤ span pending)
    (hthere : span pending - 2 ^ 64 ≤ pending.length) :
    Refuses pending (.notEnoughBytes (span pending - 2 ^ 64) headerLength)
  /-- The message is there, but has another magic number. -/
  | magic (hspan : span pending < 2 ^ 64) (hthere : span pending ≤ pending.length)
    (hmagic : ¬ Begins pending) : Refuses pending .malformedXpc
  /-- The message is there, but its body is garbled. -/
  | body {e : DeviceError} (hspan : span pending < 2 ^ 64) (hthere : span pending ≤ pending.length)
    (hmagic : Begins pending)
    (hbody : Xpc.decode ((pending.take (span pending)).drop headerLength) = .error e) :
    Refuses pending e

theorem completeLength?_eq_some {n : Nat} (h : completeLength? pending = some n) :
    16 ≤ pending.length ∧ n = span pending % 2 ^ 64 ∧ n ≤ pending.length := by
  rw [completeLength?, Option.filter_eq_some_iff] at h
  obtain ⟨hlength, hle⟩ := h
  by_cases hlong : 16 ≤ pending.length
  · rw [frameLength?_eq hlong] at hlength
    exact ⟨hlong, (Option.some.inj hlength).symm, by simpa using hle⟩
  · rw [frameLength?, if_pos (Nat.lt_of_not_le hlong)] at hlength
    contradiction

/-- Where the length wraps, what is cut off is no header. -/
theorem decode_take_of_wraps (hwraps : 2 ^ 64 ≤ span pending)
    (hthere : span pending - 2 ^ 64 ≤ pending.length) :
    Message.decode (pending.take (span pending - 2 ^ 64)) =
      .error (.notEnoughBytes (span pending - 2 ^ 64) headerLength) := by
  have hspan := span_lt pending
  have hlength : (pending.take (span pending - 2 ^ 64)).length = span pending - 2 ^ 64 :=
    List.length_take_of_le hthere
  rw [decode_of_lt (by rw [hlength]; omega), hlength]

theorem mod_of_wraps (hwraps : 2 ^ 64 ≤ span pending) :
    span pending % 2 ^ 64 = span pending - 2 ^ 64 := by
  have hspan := span_lt pending
  rw [Nat.mod_eq_sub_mod hwraps, Nat.mod_eq_of_lt (by rw [headerLength] at hspan; omega)]

/-- What is cut off fails to decode for one of these reasons. -/
theorem refuses_of_decode {n : Nat} (hn : completeLength? pending = some n)
    (h : Message.decode (pending.take n) = .error e) : Refuses pending e := by
  obtain ⟨hheader, rfl, hthere⟩ := completeLength?_eq_some hn
  rcases Nat.lt_or_ge (span pending) (2 ^ 64) with hspan | hwraps
  · rw [Nat.mod_eq_of_lt hspan] at h hthere
    rw [decode_take hthere] at h
    split at h
    · next hmagic =>
      cases h
      exact .magic hspan hthere hmagic
    · next hmagic => exact .body hspan hthere (not_not.1 hmagic) (decode_of_ofParts h)
  · rw [mod_of_wraps hwraps] at h hthere
    rw [decode_take_of_wraps hwraps hthere] at h
    cases h
    exact .wraps hheader hwraps hthere

/-! ### One step of a receiver -/

section

variable {fuel n : Nat} {m : Message} {o : Object} {Q : Object → Client → Prop}
  {E : Halt DeviceError → Client → Prop}

theorem ends_receiveMore_of_none (h : completeLength? c.pending = none) :
    (receiveMore (fuel + 1)).Ends c Q E ↔
      (onHttp (Http2.Client.take rootStream)).Ends c
        (fun payload d =>
          (receiveMore fuel).Ends { d with pending := d.pending ++ payload } Q E) E := by
  rw [receiveMore, Call.ends_bind, Call.ends_get]
  simp only [h]
  rw [Call.ends_bind]
  rfl

theorem ends_receiveMore_of_error (h : completeLength? c.pending = some n)
    (hdecode : Message.decode (c.pending.take n) = .error e) :
    (receiveMore (fuel + 1)).Ends c Q E ↔ E (.failed e) c := by
  rw [receiveMore, Call.ends_bind, Call.ends_get]
  simp only [h]
  rw [hdecode]
  rfl

theorem ends_receiveMore_of_body (h : completeLength? c.pending = some n)
    (hdecode : Message.decode (c.pending.take n) = .ok m) (hbody : m.body = some o) :
    (receiveMore (fuel + 1)).Ends c Q E ↔ Q o { c with pending := c.pending.drop n } := by
  rw [receiveMore, Call.ends_bind, Call.ends_get]
  simp only [h]
  rw [hdecode, Call.ends_bind, Call.ends_ofExcept_ok, Call.ends_bind, Call.ends_modify, hbody]
  rfl

theorem ends_receiveMore_of_bodiless (h : completeLength? c.pending = some n)
    (hdecode : Message.decode (c.pending.take n) = .ok m) (hbody : m.body = none) :
    (receiveMore (fuel + 1)).Ends c Q E ↔
      (receiveMore fuel).Ends { c with pending := c.pending.drop n } Q E := by
  rw [receiveMore, Call.ends_bind, Call.ends_get]
  simp only [h]
  rw [hdecode, Call.ends_bind, Call.ends_ofExcept_ok, Call.ends_bind, Call.ends_modify, hbody]

end

/-! ### All of them -/

/-- There are two reasons for a receiver to fail: the connection does, or what is pending then is
refused. -/
theorem ends_receiveMore_refuses (fuel : Nat) (c : Client) :
    (receiveMore fuel).Ends c (fun _ _ => True)
      (fun h d => ∀ e, h = .failed e → Http2.IsWire e ∨ Refuses d.pending e) := by
  induction fuel generalizing c with
  | zero => exact fun e h => absurd h.symm (Halt.failed_ne_waiting e)
  | succ fuel ih =>
    cases hcomplete : completeLength? c.pending with
    | none =>
      rw [ends_receiveMore_of_none hcomplete]
      have htake : Call.FailsAs Http2.IsWire (onHttp (Http2.Client.take rootStream)) :=
        (Http2.Client.failsAs_take rootStream).zoom fun _ he => he
      exact (htake c).mono (fun payload d _ => ih _) fun h d hfails e he => Or.inl (hfails e he)
    | some n =>
      cases hdecode : Message.decode (c.pending.take n) with
      | error e =>
        rw [ends_receiveMore_of_error hcomplete hdecode]
        intro e' he
        cases he
        exact .inr (refuses_of_decode hcomplete hdecode)
      | ok m =>
        cases hbody : m.body with
        | some o =>
          rw [ends_receiveMore_of_body hcomplete hdecode hbody]
          trivial
        | none =>
          rw [ends_receiveMore_of_bodiless hcomplete hdecode hbody]
          exact ih _

theorem ends_receive_refuses (c : Client) :
    receive.Ends c (fun _ _ => True)
      (fun h d => ∀ e, h = .failed e → Http2.IsWire e ∨ Refuses d.pending e) := by
  rw [receive, Call.ends_bind, Call.ends_get]
  exact ends_receiveMore_refuses _ c

/-- There is at least one step for a receiver to take. -/
theorem receiveFuel_pos (c : Client) : 0 < receiveFuel c := by
  have hqueue :
      0 < (c.http.queues rootStream).foldr (fun payload n => payload.length + 1 + n) 1 := by
    cases c.http.queues rootStream with
    | nil => exact Nat.one_pos
    | cons payload queue =>
      rw [List.foldr_cons]
      omega
  rw [receiveFuel]
  omega

/-- Where what is pending does not decode, a receiver fails at once and changes nothing. -/
theorem receive_of_error {n : Nat} (h : completeLength? c.pending = some n)
    (hdecode : Message.decode (c.pending.take n) = .error e) :
    receive c = .error (.failed e) c := by
  obtain ⟨fuel, hfuel⟩ : ∃ k, receiveFuel c = k + 1 :=
    ⟨receiveFuel c - 1, (Nat.sub_add_cancel (receiveFuel_pos c)).symm⟩
  have hends : receive.Ends c (fun _ _ => False) (fun h d => h = .failed e ∧ d = c) := by
    rw [receive, Call.ends_bind, Call.ends_get, hfuel, ends_receiveMore_of_error h hdecode]
    exact ⟨rfl, rfl⟩
  rw [Call.Ends] at hends
  cases hreceive : receive c with
  | ok o d => rw [hreceive] at hends; exact hends.elim
  | error h d =>
    rw [hreceive] at hends
    obtain ⟨rfl, rfl⟩ := hends
    rfl

theorem completeLength?_of_wraps (hheader : 16 ≤ pending.length) (hwraps : 2 ^ 64 ≤ span pending)
    (hthere : span pending - 2 ^ 64 ≤ pending.length) :
    completeLength? pending = some (span pending - 2 ^ 64) := by
  rw [completeLength?, frameLength?_eq hheader, mod_of_wraps hwraps, Option.filter_some,
    if_pos (decide_eq_true hthere)]

/-- The errors that the connection or what is pending gives are not about the size of a message. -/
theorem ne_packetSizeMismatch (h : Http2.IsWire e ∨ Refuses pending e) :
    e ≠ .packetSizeMismatch := by
  rintro rfl
  rcases h with h | h
  · cases h
  · cases h with
    | body _ _ _ hbody => cases isGarbled_of_decode hbody

/-- Header and body that are shorter than 2⁶⁴ bytes together are cut off where the header says, and
decoded as they are. If they are not, the sum wraps to less than a header, and receiving fails there
and goes on to fail. Nothing but the connection, such a header, a magic number or a body makes
receiving fail. -/
theorem cut_of_span {d : Bytes} (hlong : headerLength ≤ d.length) (hbegins : Begins d)
    (c : Client) :
    (span d < 2 ^ 64 → frameLength? d = some (span d) ∧
      (span d ≤ d.length → Message.decode (d.take (span d)) =
        ofParts (d.take headerLength) ((d.take (span d)).drop headerLength))) ∧
    (2 ^ 64 ≤ span d → frameLength? d = some (span d - 2 ^ 64) ∧ span d - 2 ^ 64 < headerLength ∧
      Message.decode (d.take (span d - 2 ^ 64)) =
        .error (.notEnoughBytes (span d - 2 ^ 64) headerLength) ∧
      (c.pending = d →
        receive c = .error (.failed (.notEnoughBytes (span d - 2 ^ 64) headerLength)) c)) ∧
    receive.Ends c (fun _ _ => True)
      (fun h c' => ∀ e, h = .failed e →
        e ≠ .packetSizeMismatch ∧ (Http2.IsWire e ∨ Refuses c'.pending e)) := by
  have hheader : 16 ≤ d.length := le_trans (by decide) hlong
  refine ⟨fun hspan => ⟨?_, fun hthere => ?_⟩, fun hwraps => ?_, ?_⟩
  · rw [frameLength?_eq hheader, Nat.mod_eq_of_lt hspan]
  · rw [decode_take hthere, if_neg (not_not_intro hbegins)]
  · have hless : span d - 2 ^ 64 < headerLength := by
      have hspan := span_lt d
      omega
    have hthere : span d - 2 ^ 64 ≤ d.length := le_trans (le_of_lt hless) hlong
    have hdecode := decode_take_of_wraps hwraps hthere
    refine ⟨?_, hless, hdecode, ?_⟩
    · rw [frameLength?_eq hheader, mod_of_wraps hwraps]
    · rintro rfl
      exact receive_of_error (completeLength?_of_wraps hheader hwraps hthere) hdecode
  · refine (ends_receive_refuses c).mono (fun _ _ _ => trivial) fun h c' hrefuses e he => ?_
    exact ⟨ne_packetSizeMismatch (hrefuses e he), hrefuses e he⟩

/-- A header that announces a body of this length. -/
def heading (length : Nat) : Bytes :=
  Bytes.ofNatLE 4 magic ++ Bytes.ofNatLE 4 0x101 ++ Bytes.ofNatLE 8 length ++ Bytes.ofNatLE 8 1

/-- A client that has read such a header and nothing more. -/
def stranded : Client where
  http := { transport := { unread := [] } }
  pending := heading (2 ^ 64 - 4)

/-- A message with a body is cut off whole; of a header that announces nearly 2⁶⁴ bytes, twenty
bytes are cut off. -/
theorem cut_heading :
    (headerLength ≤ (heading 16 ++ Xpc.encode (.bool true)).length ∧
      Begins (heading 16 ++ Xpc.encode (.bool true)) ∧
      span (heading 16 ++ Xpc.encode (.bool true)) = 40 ∧
      frameLength? (heading 16 ++ Xpc.encode (.bool true)) = some 40 ∧
      Message.decode ((heading 16 ++ Xpc.encode (.bool true)).take 40) =
        ofParts (heading 16) (Xpc.encode (.bool true))) ∧
    headerLength ≤ (heading (2 ^ 64 - 4)).length ∧ Begins (heading (2 ^ 64 - 4)) ∧
      span (heading (2 ^ 64 - 4)) = 2 ^ 64 + 20 ∧ frameLength? (heading (2 ^ 64 - 4)) = some 20 ∧
      receive stranded = .error (.failed (.notEnoughBytes 20 headerLength)) stranded := by
  have hwhole : span (heading 16 ++ Xpc.encode (.bool true)) = 40 := by decide
  have hwraps : span (heading (2 ^ 64 - 4)) = 2 ^ 64 + 20 := by decide
  have hlong : headerLength ≤ (heading 16 ++ Xpc.encode (.bool true)).length := by decide
  have hlong' : headerLength ≤ (heading (2 ^ 64 - 4)).length := by decide
  have hbegins : Begins (heading 16 ++ Xpc.encode (.bool true)) := by decide
  have hbegins' : Begins (heading (2 ^ 64 - 4)) := by decide
  obtain ⟨hframe, hdecode⟩ := (cut_of_span hlong hbegins stranded).1 (by rw [hwhole]; decide)
  obtain ⟨hframe', -, -, hreceive⟩ :=
    (cut_of_span hlong' hbegins' stranded).2.1 (by rw [hwraps]; decide)
  have hdecode := hdecode (by rw [hwhole]; decide)
  have hreceive := hreceive rfl
  rw [hwhole] at hframe hdecode
  rw [hwraps] at hframe' hreceive
  exact ⟨⟨hlong, hbegins, hwhole, hframe, hdecode⟩, hlong', hbegins', hwraps, hframe', hreceive⟩

/-- A client whose transport brings this header on the root stream and nothing more. -/
def topmost : Client where
  http :=
    { transport :=
        { unread := (Http2.Frame.data rootStream (heading (2 ^ 64 - 4))).toBytes
          ending := .silent } }

/-- The length that is cut off is not the one of the header and what it announces, and a receiver
does not wait for the rest. -/
theorem not_cut_topmost :
    headerLength ≤ (heading (2 ^ 64 - 4)).length ∧ Begins (heading (2 ^ 64 - 4)) ∧
      frameLength? (heading (2 ^ 64 - 4)) ≠ some (headerLength + announced (heading (2 ^ 64 - 4))) ∧
      receive.result topmost = .error (.failed (.notEnoughBytes 20 headerLength)) :=
  ⟨by decide, by decide, by decide, by cbv⟩

end Client

end Tether.Xpc
