import Tether.Proofs.Http2.Parcel
import Tether.Proofs.Xpc.Encoding
import Tether.Xpc.Client

/-!
# Requests as a peer reads them

A request is one message, and goes out in one frame, whatever its length. A frame has three bytes
for the length of its payload. So a peer that reads frames gets each message whole that is shorter
than 2²⁴ bytes; of a longer one it gets what the three bytes say, and takes what was cut off for the
next frame.

* `Object.Clean`: objects that can be encoded, but for their size;
* `fits_of_clean`: such an object fits, unless its bytes are too many;
* `Client.read_of_sends`: what a peer reads of any requests.
-/

namespace Tether

namespace Http2

/-- Reads so many frames. -/
def readFrames : Nat → Call DeviceError Transport (List Frame)
  | 0 => return []
  | n + 1 => do
    let frame ← Frame.read
    return frame :: (← readFrames n)

end Http2

namespace Xpc

/-! ## Objects of any size -/

/-- The keys of a dictionary are different and without zeros, and dates are those of 64 bits. -/
inductive Object.Clean : Object → Prop where
  | bool (value : Bool) : Clean (.bool value)
  | int64 (value : Int64) : Clean (.int64 value)
  | uint64 (value : UInt64) : Clean (.uint64 value)
  | double (value : Double) : Clean (.double value)
  | date {nanoseconds : Int} (hstart : 0 ≤ nanoseconds) (hend : nanoseconds < 2 ^ 64) :
    Clean (.date nanoseconds)
  | data (bytes : Bytes) : Clean (.data bytes)
  | string (text : String) : Clean (.string text)
  | uuid (value : Uuid) : Clean (.uuid value)
  | array {items : List Object} (hitems : ∀ o ∈ items, Clean o) : Clean (.array items)
  | dictionary {entries : List (String × Object)} (hkeys : (Entries.keys entries).Nodup)
    (hnul : ∀ e ∈ entries, '\x00' ∉ e.1.toList) (hvalues : ∀ e ∈ entries, Clean e.2) :
    Clean (.dictionary entries)

/-- Each thing that is written takes a byte at least. -/
theorem length_le_length_flatMap {α : Type} {write : α → Bytes} {as : List α}
    (h : ∀ a ∈ as, 1 ≤ (write a).length) : as.length ≤ (as.flatMap write).length := by
  induction as with
  | nil => exact Nat.le_refl 0
  | cons a as ih =>
    have ha := h a List.mem_cons_self
    have ih := ih fun b hb => h b (List.mem_cons_of_mem a hb)
    rw [List.length_cons, List.flatMap_cons, List.length_append]
    omega

/-- An object of few enough bytes has parts of few enough bytes. -/
theorem fits_of_clean {o : Object} (h : o.Clean) (hlength : (encodeObject o).length < 2 ^ 32) :
    o.Fits := by
  -- Each part is no longer than the object that it is in, and each entry takes a byte at least; so
  -- no length and no count is cut.
  induction h with
  | bool value => exact .bool value
  | int64 value => exact .int64 value
  | uint64 value => exact .uint64 value
  | double value => exact .double value
  | date hstart hend => exact .date hstart hend
  | data bytes =>
    simp only [encodeObject, padded, List.length_append] at hlength
    exact .data (by omega)
  | string text =>
    simp only [encodeObject, terminated, padded, List.length_append, List.length_singleton]
      at hlength
    exact .string (by omega)
  | uuid value => exact .uuid value
  | array hitems ih =>
    rename_i items
    simp only [encodeObject, sized, encodeItems_eq, List.length_append] at hlength
    refine .array ?_ fun o ho => ih o ho ?_
    · have hcount : items.length ≤ (items.flatMap encodeObject).length :=
        length_le_length_flatMap fun o _ => le_trans (by decide) (four_le_length_encodeObject o)
      omega
    · have hmem := length_le_length_flatMap_of_mem encodeObject ho
      omega
  | dictionary hkeys hnul hvalues ih =>
    rename_i entries
    simp only [encodeObject, sized, encodeEntries_eq, List.length_append] at hlength
    refine .dictionary ?_ hkeys hnul fun e he => ih e he ?_
    · have hcount : entries.length ≤
          (entries.flatMap fun e => terminated e.1 ++ encodeObject e.2).length :=
        length_le_length_flatMap fun e _ => by
          have hfour := four_le_length_encodeObject e.2
          rw [List.length_append]
          omega
      omega
    · have hmem := length_le_length_flatMap_of_mem
        (fun e : String × Object => terminated e.1 ++ encodeObject e.2) he
      rw [List.length_append] at hmem
      omega

/-! ## Messages -/

namespace Message

variable {m : Message} {t : Bytes}

/-- A message whose object is clean fits, unless it is too long. -/
theorem fits_of_clean (h : ∀ o ∈ m.body, o.Clean) (hlength : m.encode.length < 2 ^ 32) :
    m.Fits := by
  intro o ho
  have hbody : m.bodyBytes = Xpc.encode o := by
    rw [bodyBytes, Option.mem_def.1 ho]
    rfl
  rw [length_encode, hbody] at hlength
  refine ⟨Xpc.fits_of_clean (h o ho) ?_, by omega⟩
  simp only [Xpc.encode, List.length_append] at hlength
  omega

/-- Reads a message, which is as long as its header says. -/
def reader : Reader Message := fun bs =>
  match frameLength? bs with
  | none => .error (.notEnoughBytes bs.length headerLength)
  | some n => do
    let (front, rest) ← Reader.take n bs
    return (← decode front, rest)

theorem reader_encode (h : m.Fits) (t : Bytes) : reader (m.encode ++ t) = .ok (m, t) := by
  have hlong : 16 ≤ (m.encode ++ t).length := by
    rw [List.length_append, length_encode, headerLength]
    omega
  simp only [reader, frameLength?_of_prefix h List.prefix_rfl hlong, Reader.take_append rfl,
    bind, Except.bind, decode_encode h]
  rfl

end Message

namespace Client

/-- The message of a request. -/
def request (id : UInt64) (object : Object) (expectReply : Bool) : Message where
  flags :=
    (if expectReply then Flags.alwaysSet ||| Flags.wantingReply else Flags.alwaysSet) ||| Flags.data
  body := some object
  id := id

/-- The messages of some requests, which are numbered one after the other. -/
def requests (id : UInt64) : List (Object × Bool) → List Message
  | [] => []
  | (object, expectReply) :: items => request id object expectReply :: requests (id + 1) items

/-- Each message in one frame of the root stream. -/
def framed (ms : List Message) : Bytes :=
  ms.flatMap fun m => (Http2.Frame.data rootStream m.encode).toBytes

theorem framed_cons (m : Message) (ms : List Message) :
    framed (m :: ms) = (Http2.Frame.data rootStream m.encode).toBytes ++ framed ms :=
  List.flatMap_cons

theorem mem_requests {id : UInt64} {items : List (Object × Bool)} {m : Message}
    (h : m ∈ requests id items) : ∀ o ∈ m.body, ∃ x ∈ items, x.1 = o := by
  induction items generalizing id with
  | nil => cases h
  | cons x items ih =>
    rcases List.mem_cons.1 h with rfl | h
    · intro o ho
      exact ⟨x, List.mem_cons_self, Option.some.inj ho⟩
    · intro o ho
      obtain ⟨y, hy, rfl⟩ := ih h o ho
      exact ⟨y, List.mem_cons_of_mem x hy, rfl⟩

/-! ## Writing -/

variable {c : Client} {ms : List Message} {t : Transport} {rest : Bytes}

/-- Where writes succeed, a request adds the frame of its message. -/
theorem ends_send (h : c.http.transport.allowance = none) (object : Object) (expectReply : Bool) :
    (send object expectReply).Ends c
      (fun _ d => d.http.transport.allowance = none ∧ d.rootId = c.rootId + 1 ∧
        d.http.transport.sent = c.http.transport.sent ++
          framed [request c.rootId object expectReply])
      (fun _ _ => False) := by
  have hframed : framed [request c.rootId object expectReply] =
      (Http2.Frame.data rootStream (request c.rootId object expectReply).encode).toBytes := by
    rw [framed_cons]
    exact List.append_nil _
  have hne : framed [request c.rootId object expectReply] ≠ [] := by
    simp [hframed, Http2.Frame.toBytes, Http2.Frame.assemble]
  have hwrite : (Transport.writeAll (framed [request c.rootId object expectReply])).Ends
      c.http.transport
      (fun _ t => t.allowance = none ∧
        t.sent = c.http.transport.sent ++ framed [request c.rootId object expectReply])
      (fun _ _ => False) := by
    rw [Call.Ends, Transport.writeAll, if_neg (by simpa using hne), h]
    exact ⟨rfl, by simp [Transport.sent]⟩
  rw [hframed] at hwrite ⊢
  rw [send, sendRoot, Call.ends_bind, Call.ends_get, Call.ends_bind, onHttp, Call.ends_zoom,
    Http2.Client.send, Http2.Client.writeFrame, Http2.Client.write, Http2.Client.onTransport,
    Call.ends_zoom, Call.ends_zoom]
  exact hwrite.mono (fun _ _ ht => ⟨ht.1, rfl, ht.2⟩) fun _ _ => False.elim

/-- So do some requests, one after the other. -/
theorem ends_sends (h : c.http.transport.allowance = none) (items : List (Object × Bool)) :
    (items.forM fun x => send x.1 x.2).Ends c
      (fun _ d => d.rootId = c.rootId + UInt64.ofNat items.length ∧
        d.http.transport.sent = c.http.transport.sent ++ framed (requests c.rootId items))
      (fun _ _ => False) := by
  induction items generalizing c with
  | nil => exact ⟨by simp, (List.append_nil _).symm⟩
  | cons x items ih =>
    rw [List.forM, Call.ends_bind]
    refine (ends_send h x.1 x.2).mono (fun _ d hd => ?_) fun _ _ => id
    obtain ⟨hallowance, hid, hsent⟩ := hd
    refine (ih hallowance).mono (fun _ e he => ⟨?_, ?_⟩) fun _ _ => id
    · rw [he.1, hid, List.length_cons, UInt64.ofNat_add, UInt64.add_assoc, UInt64.add_comm 1]
      rfl
    · rw [he.2, hsent, hid, List.append_assoc, framed, framed, ← List.flatMap_append]
      rfl

/-! ## Reading -/

/-- A peer reads messages of fewer than 2²⁴ bytes as they were sent. -/
theorem readFrames_framed (hshort : ∀ m ∈ ms, m.encode.length < 2 ^ 24)
    (h : t.unread = framed ms ++ rest) :
    ∃ reads, Http2.readFrames ms.length t =
      .ok (ms.map fun m => .data rootStream m.encode)
        { t with unread := rest, reads := reads } := by
  induction ms generalizing t with
  | nil =>
    obtain rfl : t.unread = rest := h
    exact ⟨t.reads, rfl⟩
  | cons m ms ih =>
    rw [framed_cons, List.append_assoc] at h
    obtain ⟨n, hread⟩ := Http2.Frame.read_data h
    -- The length fits into three bytes, so the peer takes the whole message.
    rw [Nat.mod_eq_of_lt (hshort m List.mem_cons_self), List.take_length, List.drop_length] at hread
    obtain ⟨n', hreads⟩ := ih (fun k hk => hshort k (List.mem_cons_of_mem m hk))
      (t := { t with unread := framed ms ++ rest, reads := n }) rfl
    refine ⟨n', ?_⟩
    simp only [List.length_cons, Http2.readFrames, bind, EStateM.bind, hread, List.nil_append,
      hreads]
    rfl

/-- A peer reads of a message of 2²⁴ bytes or more what is over such a block, and what was cut off
comes next. -/
theorem read_framed_long {m : Message} (hlong : 2 ^ 24 ≤ m.encode.length)
    (h : t.unread = framed (m :: ms) ++ rest) :
    ∃ n reads, n < m.encode.length ∧
      Http2.Frame.read t =
        .ok (.data rootStream (m.encode.take n))
          { t with unread := m.encode.drop n ++ (framed ms ++ rest), reads := reads } := by
  rw [framed_cons, List.append_assoc] at h
  obtain ⟨reads, hread⟩ := Http2.Frame.read_data h
  have hless : m.encode.length % 2 ^ 24 < 2 ^ 24 := Nat.mod_lt _ (by decide)
  exact ⟨_, reads, lt_of_lt_of_le hless hlong, hread⟩

/-- Messages divide in front of the first one that is too long for a frame. -/
theorem exists_short_append (ms : List Message) :
    ∃ whole later, ms = whole ++ later ∧ (∀ m ∈ whole, m.encode.length < 2 ^ 24) ∧
      ∀ m ∈ later.head?, 2 ^ 24 ≤ m.encode.length := by
  induction ms with
  | nil => exact ⟨[], [], rfl, List.forall_mem_nil _, fun m hm => absurd hm (by simp)⟩
  | cons m ms ih =>
    by_cases hm : m.encode.length < 2 ^ 24
    · obtain ⟨whole, later, rfl, hshort, hlong⟩ := ih
      exact ⟨m :: whole, later, rfl, List.forall_mem_cons.2 ⟨hm, hshort⟩, hlong⟩
    · refine ⟨[], m :: ms, rfl, List.forall_mem_nil _, fun k hk => ?_⟩
      obtain rfl := Option.some.inj hk
      exact Nat.not_lt.1 hm

/-- What a peer reads of some requests with clean objects, whatever their sizes, in front of
anything else. As long as the messages have fewer than 2²⁴ bytes, they are read one frame each, and
their payloads are the messages of the requests, numbered one after the other. A longer message is
cut short, and the peer goes on in the middle of it. -/
theorem read_of_sends {items : List (Object × Bool)} (h : c.http.transport.allowance = none)
    (hclean : ∀ x ∈ items, x.1.Clean) :
    ∃ d, (items.forM fun x => send x.1 x.2) c = .ok ⟨⟩ d ∧
      d.rootId = c.rootId + UInt64.ofNat items.length ∧
      d.http.transport.sent = c.http.transport.sent ++ framed (requests c.rootId items) ∧
      ∀ (t : Transport) (rest : Bytes), t.unread = framed (requests c.rootId items) ++ rest →
        ∃ whole later u, requests c.rootId items = whole ++ later ∧
          (∀ m ∈ whole, m.encode.length < 2 ^ 24) ∧
          Http2.readFrames whole.length t = .ok (whole.map fun m => .data rootStream m.encode) u ∧
          Reader.times Message.reader whole.length (whole.flatMap Message.encode) =
            .ok (whole, []) ∧
          u.unread = framed later ++ rest ∧
          ∀ m ∈ later.head?, 2 ^ 24 ≤ m.encode.length ∧
            ∃ n v, n < m.encode.length ∧
              Http2.Frame.read u = .ok (.data rootStream (m.encode.take n)) v ∧
              v.unread = m.encode.drop n ++ (framed later.tail ++ rest) := by
  have hsends := ends_sends h items
  rw [Call.Ends] at hsends
  cases hrun : (items.forM fun x => send x.1 x.2) c with
  | error halt d => rw [hrun] at hsends; exact hsends.elim
  | ok a d =>
    rw [hrun] at hsends
    refine ⟨d, rfl, hsends.1, hsends.2, fun t rest ht => ?_⟩
    obtain ⟨whole, later, hsplit, hshort, hlong⟩ := exists_short_append (requests c.rootId items)
    have hfits : ∀ m ∈ whole, m.Fits := by
      intro m hm
      refine Message.fits_of_clean (fun o ho => ?_) (lt_trans (hshort m hm) (by decide))
      have hrequest : m ∈ requests c.rootId items := hsplit ▸ List.mem_append_left _ hm
      obtain ⟨x, hx, rfl⟩ := mem_requests hrequest o ho
      exact hclean x hx
    rw [hsplit, framed, List.flatMap_append, List.append_assoc] at ht
    obtain ⟨n, hreads⟩ := readFrames_framed hshort ht
    refine ⟨whole, later, _, hsplit, hshort, hreads, ?_, rfl, fun m hm => ?_⟩
    · have htimes := Reader.times_flatMap (fun m hm => Message.reader_encode (hfits m hm)) []
      rwa [List.append_nil] at htimes
    · obtain ⟨others, rfl⟩ : ∃ others, later = m :: others :=
        ⟨later.tail, (List.cons_head?_tail hm).symm⟩
      obtain ⟨k, reads, hk, hread⟩ := read_framed_long (t := { t with
        unread := framed (m :: others) ++ rest, reads := n }) (hlong m hm) rfl
      exact ⟨hlong m hm, k, _, hk, hread, rfl⟩

/-- A client that has sent nothing. -/
def fresh : Client where
  http := { transport := { unread := [] } }

/-- A question and an answer. -/
def brief : List (Object × Bool) :=
  [(.dictionary [("Port", .uint64 58783)], true), (.bool true, false)]

theorem clean_brief : ∀ x ∈ brief, x.1.Clean := by
  intro x hx
  rcases List.mem_pair.1 hx with rfl | rfl
  · refine .dictionary (by decide) (by decide) fun e he => ?_
    rw [List.mem_singleton.1 he]
    exact .uint64 58783
  · exact .bool true

theorem short_brief : ∀ m ∈ requests 1 brief, m.encode.length < 2 ^ 24 := by
  have hlengths : (requests 1 brief).map (fun m => m.encode.length) = [64, 40] := by cbv
  intro m hm
  have hmem := List.mem_map_of_mem (f := fun m : Message => m.encode.length) hm
  rw [hlengths] at hmem
  simp only [List.mem_cons, List.not_mem_nil, or_false] at hmem
  omega

/-- Both are read as they were sent. -/
theorem read_brief :
    ∃ d, (brief.forM fun x => send x.1 x.2) fresh = .ok ⟨⟩ d ∧
      ∃ u, Http2.readFrames 2 { unread := d.http.transport.sent } =
          .ok ((requests 1 brief).map fun m => .data rootStream m.encode) u ∧ u.unread = [] ∧
        Reader.times Message.reader 2 ((requests 1 brief).flatMap Message.encode) =
          .ok (requests 1 brief, []) := by
  obtain ⟨d, hrun, -, hsent, hreads⟩ := read_of_sends (c := fresh) rfl clean_brief
  have hsent : d.http.transport.sent = framed (requests 1 brief) := hsent
  obtain ⟨whole, later, u, hsplit, -, hframes, htimes, hu, hlong⟩ :=
    hreads { unread := d.http.transport.sent } [] (by simp [hsent, fresh])
  -- No message is too long.
  obtain rfl : later = [] := by
    rcases later with _ | ⟨m, others⟩
    · rfl
    · have hshort := short_brief m (hsplit ▸ List.mem_append_right _ List.mem_cons_self)
      exact absurd (hlong m rfl).1 (Nat.not_le.2 hshort)
  obtain rfl : requests 1 brief = whole := by simpa [fresh] using hsplit
  exact ⟨d, hrun, u, hframes, by simpa [framed] using hu, htimes⟩

/-- Zeros, as many as make a message of exactly 2²⁴ bytes. -/
def huge : Object :=
  .data (List.replicate (2 ^ 24 - 40) 0)

theorem length_huge : (request 1 huge false).encode.length = 2 ^ 24 := by
  -- The zeros are counted, not written out.
  have hdata (bytes : Bytes) : (request 1 (.data bytes) false).encode.length =
      40 + (bytes.length + padding bytes.length) := by
    simp [Message.length_encode, Message.headerLength, Message.bodyBytes, request, encode,
      encodeObject, Tag.toBytes, padded]
    omega
  rw [huge, hdata, List.length_replicate]
  decide

/-- Such a message begins with these nine bytes, the last of which says something of its length. -/
theorem encode_request (object : Object) :
    ∃ b behind, (request 1 object false).encode =
      [0x92, 0x0b, 0xb0, 0x29, 0x01, 0x01, 0x00, 0x00, b] ++ behind := by
  have hbits : (request 1 object false).flags = Flags.alwaysSet ||| Flags.data := rfl
  have hmagic : Bytes.ofNatLE 4 Message.magic = [0x92, 0x0b, 0xb0, 0x29] := by decide
  have hflags : Bytes.ofNatLE 4 (Flags.alwaysSet ||| Flags.data).bits.toNat =
      [0x01, 0x01, 0x00, 0x00] := by decide
  rw [Message.encode_eq, hbits, hmagic, hflags]
  exact ⟨_, _, rfl⟩

/-- A peer reads a frame without bytes where that message is, and then takes the message itself for
a frame, of a type that it does not know. -/
theorem read_huge :
    huge.Clean ∧ ∃ d, send huge false fresh = .ok ⟨⟩ d ∧
      ∃ u v, Http2.Frame.read { unread := d.http.transport.sent } = .ok (.data rootStream []) u ∧
        u.unread = (request 1 huge false).encode ∧
        Http2.Frame.read u = .error (.failed (.unknownFrame 0x29)) v := by
  have hsend := ends_send (c := fresh) rfl huge false
  rw [Call.Ends] at hsend
  cases hrun : send huge false fresh with
  | error halt d => rw [hrun] at hsend; exact hsend.elim
  | ok a d =>
    rw [hrun] at hsend
    have hunread : d.http.transport.sent =
        (Http2.Frame.data rootStream (request 1 huge false).encode).toBytes ++ [] := by
      rw [hsend.2.2]
      exact framed_cons _ []
    obtain ⟨n, hfirst⟩ := Http2.Frame.read_data (t := { unread := d.http.transport.sent }) hunread
    -- The length of the message leaves nothing in three bytes.
    rw [length_huge, Nat.mod_self, List.take_zero, List.drop_zero, List.append_nil] at hfirst
    obtain ⟨b, behind, hencode⟩ := encode_request huge
    have hbehind : 0x920bb0 ≤ behind.length := by
      have hlength := length_huge
      rw [hencode, List.length_append] at hlength
      simp only [List.length_cons, List.length_nil] at hlength
      omega
    let u : Transport := { unread := (request 1 huge false).encode, reads := n }
    obtain ⟨k, hsecond⟩ := Http2.Frame.read_of_header (t := u) rfl hencode hbehind
    exact ⟨.data _, d, rfl, u, _, hfirst, rfl, hsecond⟩

end Client

end Xpc

end Tether
