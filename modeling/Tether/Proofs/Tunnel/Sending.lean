import Tether.Proofs.Net.Checksum
import Tether.Proofs.Net.Wrapping
import Tether.Proofs.Tunnel.Play

/-!
# What is sent

A connection begins with a request that has the number `first`. What is queued on it goes out in
pieces, each in a segment of its own, and the byte with the number `first + 1 + j` is the `j`-th
that was queued. Acknowledgements and the farewell take no bytes but have the number of the
next, whatever they are mixed with.

* `Account.Sequenced.note`: one event keeps the numbers of an account in order;
* `isCut_pieces`: how a flush cuts what is queued;
* `streams_of_lossless`: what was sent in a play in which all is sent;
* `conveyed_of_lossless`: what the device can make of that.
-/

namespace Tether.Tunnel

open Net Call

/-! ## Cutting -/

/-- A string of bytes is cut into pieces of one size, of which only the last may be shorter, and
none is empty. -/
structure IsCut (size : Nat) (bytes : Bytes) (ps : List Bytes) : Prop where
  flatten : ps.flatten = bytes
  full : ∀ p ∈ ps.dropLast, p.length = size
  short : ∀ p ∈ ps, p.length ≤ size
  nonempty : ∀ p ∈ ps, p ≠ []

theorem isCut_pieces {size : Nat} (h : 0 < size) (bytes : Bytes) :
    IsCut size bytes (pieces size bytes) where
  flatten := flatten_pieces size bytes
  short _ hp := length_le_of_mem_pieces h hp
  nonempty p hp := by
    fun_induction pieces size bytes with
    | case1 => cases hp
    | case2 x xs ih =>
      rcases List.mem_cons.1 hp with rfl | hp
      · exact List.cons_ne_nil _ _
      · exact ih hp
  full p hp := by
    fun_induction pieces size bytes with
    | case1 => cases hp
    | case2 x xs ih =>
      cases hrest : pieces size (xs.drop (size - 1)) with
      | nil => rw [hrest] at hp; cases hp
      | cons q qs =>
        rw [hrest, List.dropLast_cons_cons] at hp
        rcases List.mem_cons.1 hp with rfl | hp
        · -- Something is left behind the piece, so the piece is full.
          have hlong : xs.drop (size - 1) ≠ [] := by
            intro hnil
            rw [hnil] at hrest
            unfold pieces at hrest
            cases hrest
          have := List.length_pos_iff.2 hlong
          simp only [List.length_drop, List.length_cons, List.length_take] at this ⊢
          omega
        · exact ih (by rw [hrest]; exact hp)

theorem Link.payload_volley (l : Link) (port : UInt16) (ps : List Bytes) :
    (l.volley port ps).map Segment.payload = ps := by
  induction ps generalizing l with
  | nil => rfl
  | cons p ps ih => exact congrArg _ (ih (l.advance p.length))

/-! ## Numbers -/

namespace Account

variable {a : Account} {x : Segment} {size n : Nat} {e : Event}

/-- The segment that asks for the connection. -/
def request (a : Account) : Segment where
  source := a.port
  destination := a.peerPort
  sequence := a.first
  acknowledgement := 0
  control := Link.greeting
  window := Link.window
  payload := []

/-- The number of each byte that was sent, in the order of sending. -/
def numbers (a : Account) : List UInt32 :=
  a.sent.flatMap fun x => (List.range x.payload.length).map fun i => x.sequence + UInt32.ofNat i

/-- The bytes that were sent in the first so many segments. -/
def carriedBefore (a : Account) (n : Nat) : Bytes :=
  (a.sent.take n).flatMap Segment.payload

/-- The numbers of an account are in order, whatever was lost. -/
structure Sequenced (a : Account) : Prop where
  /-- The request for the connection takes a number once it is answered. -/
  heard : a.heard.sequence = a.first + if a.heard.status.isEstablished then 1 else 0
  established : a.pending ≠ [] → a.heard.status.isEstablished = true
  greets : ∀ x xs, a.sent = x :: xs → x = a.request ∧ ∀ y ∈ xs, y.control.syn = false
  later : ∀ n x, a.sent[n]? = some x → 0 < n →
    x.sequence = a.first + 1 + UInt32.ofNat (a.carriedBefore n).length
  numbers : a.numbers =
    (List.range a.carried.length).map fun j => a.first + 1 + UInt32.ofNat j
  complete : a.lost = [] → a.carried ++ a.pending = a.queued
  farewell : a.lost = [] → ∀ n x, a.sent[n]? = some x → x.control.fin = true →
    n + 1 = a.sent.length ∧ a.carriedBefore n = a.queued

theorem sequenced_fresh (port peerPort : UInt16) (first : UInt32) :
    Sequenced { port, peerPort, first } where
  heard := (UInt32.add_zero first).symm
  established := nofun
  greets := nofun
  later := nofun
  numbers := rfl
  complete _ := rfl
  farewell _ := nofun

theorem carriedBefore_length (a : Account) : a.carriedBefore a.sent.length = a.carried := by
  rw [carriedBefore, List.take_length, carried]

theorem carriedBefore_note_sent (hn : n ≤ a.sent.length) :
    (a.note (.sent x)).carriedBefore n = a.carriedBefore n := by
  rw [carriedBefore, note, List.take_append_of_le_length hn, carriedBefore]

/-- The segments of an account once one more was sent. -/
theorem getElem?_note_sent {y : Segment} (h : (a.note (.sent x)).sent[n]? = some y) :
    n < a.sent.length ∧ a.sent[n]? = some y ∨ n = a.sent.length ∧ x = y := by
  rw [note] at h
  by_cases hn : n < a.sent.length
  · rw [List.getElem?_append_left hn] at h
    exact .inl ⟨hn, h⟩
  · have hlen := (List.getElem?_eq_some_iff.1 h).1
    rw [List.length_append, List.length_singleton] at hlen
    obtain rfl : n = a.sent.length := by omega
    rw [List.getElem?_concat_length] at h
    exact .inr ⟨rfl, Option.some.inj h⟩

/-- The numbers of some bytes, counted on from those before. -/
theorem numbers_note_sent (h : a.numbers =
      (List.range a.carried.length).map fun j => a.first + 1 + UInt32.ofNat j)
    (hx : x.payload ≠ [] → x.sequence = a.first + 1 + UInt32.ofNat a.carried.length) :
    (a.note (.sent x)).numbers =
      (List.range (a.note (.sent x)).carried.length).map fun j =>
        a.first + 1 + UInt32.ofNat j := by
  have hnote : (a.note (.sent x)).numbers =
      a.numbers ++ (List.range x.payload.length).map fun i => x.sequence + UInt32.ofNat i := by
    simp [Account.numbers, note]
  rw [hnote, carried_note_sent, List.length_append, List.range_add, List.map_append, h,
    List.map_map]
  congr 1
  by_cases hp : x.payload = []
  · rw [hp]
    rfl
  · refine List.map_congr_left fun i _ => ?_
    rw [hx hp, Function.comp_apply, UInt32.ofNat_add, UInt32.add_assoc (a.first + 1)]

namespace Sequenced

theorem next_eq (h : a.Sequenced) (hest : a.heard.status.isEstablished = true) :
    a.next = a.first + 1 + UInt32.ofNat a.carried.length := by
  rw [next, h.heard, if_pos hest]

/-- The number of a segment that is sent to a device that has answered. -/
theorem sent (h : a.Sequenced) (ho : a.IsOpen) (hest : a.heard.status.isEstablished = true)
    (hseq : x.sequence = a.next) (hsyn : x.control.syn = false)
    (hpending : a.pending = x.payload ++ a.pending.drop x.payload.length)
    (hfin : x.control.fin = true → x.payload = [] ∧ a.pending = []) :
    (a.note (.sent x)).Sequenced where
  heard := h.heard
  established hp := hest
  greets y ys hy := by
    obtain ⟨z, zs, hz⟩ := List.exists_cons_of_ne_nil ho.asked
    rw [note, hz, List.cons_append] at hy
    obtain ⟨rfl, rfl⟩ := List.cons.inj hy
    obtain ⟨hreq, hlater⟩ := h.greets z zs hz
    refine ⟨hreq, fun w hw => ?_⟩
    rcases List.mem_append.1 hw with hw | hw
    · exact hlater w hw
    · rwa [List.mem_singleton.1 hw]
  later n y hy hn := by
    rcases getElem?_note_sent hy with ⟨hlt, hy⟩ | ⟨rfl, rfl⟩
    · rw [carriedBefore_note_sent (Nat.le_of_lt hlt)]
      exact h.later n y hy hn
    · rw [carriedBefore_note_sent (Nat.le_refl _), carriedBefore_length, hseq]
      exact h.next_eq hest
  numbers := numbers_note_sent h.numbers fun _ => hseq.trans (h.next_eq hest)
  complete hl := by
    rw [carried_note_sent, List.append_assoc]
    exact (congrArg _ hpending.symm).trans (h.complete hl)
  farewell hl n y hy hf := by
    rcases getElem?_note_sent hy with ⟨hlt, hy⟩ | ⟨rfl, rfl⟩
    · have := ho.stays y (List.mem_of_getElem? hy)
      rw [hf] at this
      cases this
    · obtain ⟨hp, hpend⟩ := hfin hf
      have hcomplete := h.complete hl
      rw [hpend, List.append_nil] at hcomplete
      rw [carriedBefore_note_sent (Nat.le_refl _), carriedBefore_length]
      exact ⟨by simp [note], hcomplete⟩

/-- A segment that came. -/
theorem arrived (h : a.Sequenced) (s : Segment) : (a.note (.arrived s)).Sequenced where
  heard := by
    rw [heard_note_arrived, Link.sequence_accept, h.heard, first_note]
    cases hest : a.heard.status.isEstablished with
    | true =>
      rw [Link.not_meets_of_isEstablished hest, Link.Status.isEstablished_accept hest]
      simp
    | false =>
      cases hm : a.heard.meets s with
      | true => rw [Link.status_accept_of_meets hm]; simp [Link.Status.isEstablished]
      | false => rw [Link.isEstablished_accept_of_not_meets hest hm]; simp
  established hp := by
    rw [heard_note_arrived]
    exact Link.Status.isEstablished_accept (h.established hp)
  greets := h.greets
  later := h.later
  numbers := h.numbers
  complete := h.complete
  farewell := h.farewell

/-- Bytes were queued. -/
theorem queue (h : a.Sequenced) (hc : a.heard.status = .connected) (ho : a.IsOpen)
    (port : UInt16) (bytes : Bytes) : (a.note (.queued port bytes)).Sequenced where
  heard := h.heard
  established _ := by
    have hh : (a.note (.queued port bytes)).heard = a.heard := rfl
    rw [hh, hc]
    rfl
  greets := h.greets
  later := h.later
  numbers := h.numbers
  complete hl := by
    have := congrArg (· ++ bytes) (h.complete hl)
    rwa [List.append_assoc] at this
  farewell _ n y hy hf := by
    have := ho.stays y (List.mem_of_getElem? hy)
    rw [hf] at this
    cases this

/-- One event keeps the numbers of an account in order. -/
theorem note (h : a.Sequenced) (hallow : a.Allows size e) : (a.note e).Sequenced := by
  cases e with
  | arrived s => exact h.arrived s
  | queued port bytes => exact h.queue hallow.1 hallow.2 port bytes
  | taken port bytes =>
    exact ⟨h.heard, h.established, h.greets, h.later, h.numbers, h.complete, h.farewell⟩
  | lost x =>
    refine ⟨h.heard, fun hp => h.established fun hnil => hp ?_, h.greets, h.later, h.numbers,
      fun hl => ?_, fun hl => ?_⟩
    · rw [Account.note, hnil, ite_self]
    · exact absurd hl (by simp [Account.note])
    · exact absurd hl (by simp [Account.note])
  | sent x =>
    have hmet (hm : a.IsMet) : a.heard.status.isEstablished = true := by
      rcases hm with hm | hm <;> rw [hm] <;> rfl
    cases hallow with
    | greeting hs ha =>
      have hheard : a.heard = a.fresh := by rw [Account.heard, ha, Link.hear_nil]
      have hc : a.carried = [] := by rw [carried, hs]; rfl
      have hreq : a.segment Link.greeting [] = a.request := by
        rw [segment, next, hheard, hc, request]
        simp [fresh, Link.greeting]
      rw [hreq]
      refine ⟨h.heard, h.established, fun y ys hy => ?_, fun n y hy hn => ?_,
        numbers_note_sent h.numbers fun hp => absurd rfl hp, fun hl => ?_, fun _ n y hy hf => ?_⟩
      · rw [Account.note, hs] at hy
        obtain ⟨rfl, rfl⟩ := List.cons.inj hy
        exact ⟨rfl, fun z hz => absurd hz List.not_mem_nil⟩
      · rcases getElem?_note_sent hy with ⟨hlt, -⟩ | ⟨rfl, -⟩
        · rw [hs] at hlt
          exact absurd hlt (Nat.not_lt_zero _)
        · rw [hs] at hn
          exact absurd hn (Nat.lt_irrefl _)
      · rw [carried_note_sent]
        have := h.complete hl
        simpa [Account.note, request] using this
      · rcases getElem?_note_sent hy with ⟨hlt, -⟩ | ⟨-, rfl⟩
        · rw [hs] at hlt
          exact absurd hlt (Nat.not_lt_zero _)
        · cases hf
    | acknowledgement ho hm =>
      exact h.sent ho (hmet hm) rfl rfl rfl fun hf => absurd hf Bool.false_ne_true
    | piece ho hp =>
      exact h.sent ho (h.established hp) rfl rfl
        (List.prefix_iff_eq_append.1 (List.take_prefix size a.pending)).symm
        fun hf => absurd hf Bool.false_ne_true
    | farewell ho hm hp => exact h.sent ho (hmet hm) rfl rfl rfl fun _ => ⟨rfl, hp⟩
  | opened | forgotten => cases hallow

end Sequenced

/-- What was sent for an account is what was queued, in order and with the right numbers. -/
structure Streams (a : Account) : Prop where
  /-- The first segment, and only that one, asks for the connection. -/
  greets : ∃ xs, a.sent = a.request :: xs ∧ ∀ x ∈ xs, x.control.syn = false
  /-- What was sent, and what is pending, is what was queued. -/
  complete : a.carried ++ a.pending = a.queued
  /-- The `j`-th byte that was sent has the number `first + 1 + j`. -/
  numbers : a.numbers =
    (List.range a.carried.length).map fun j => a.first + 1 + UInt32.ofNat j
  /-- Each later segment, with bytes or without, has the number of the next byte. -/
  later : ∀ n x, a.sent[n]? = some x → 0 < n →
    x.sequence = a.first + 1 + UInt32.ofNat (a.carriedBefore n).length
  /-- A farewell is the last segment, and all that was queued stands before it. -/
  farewell : ∀ n x, a.sent[n]? = some x → x.control.fin = true →
    n + 1 = a.sent.length ∧ a.carriedBefore n = a.queued

theorem Sequenced.streams (h : a.Sequenced) (hs : a.sent ≠ []) (hl : a.lost = []) :
    a.Streams where
  greets := by
    obtain ⟨x, xs, hx⟩ := List.exists_cons_of_ne_nil hs
    obtain ⟨rfl, hlater⟩ := h.greets x xs hx
    exact ⟨xs, hx, hlater⟩
  complete := h.complete hl
  numbers := h.numbers
  later := h.later
  farewell := h.farewell hl

end Account

theorem Journal.Valid.sequenced {size : Nat} {j : Journal} (h : j.Valid size) :
    ∀ a ∈ (Ledger.ofJournal j).accounts, a.Sequenced :=
  h.accounts (fun port peerPort first _ => Account.sequenced_fresh port peerPort first)
    fun _ _ _ ha hallow => ha.note hallow

/-- If nothing was lost, then nothing was lost for any account. -/
theorem Journal.Valid.lost_eq_nil {size : Nat} {j : Journal} (h : j.Valid size)
    (hl : j.Lossless) : ∀ a ∈ (Ledger.ofJournal j).accounts, a.lost = [] := by
  refine h.accounts (Q := fun a => a.lost = []) (fun _ _ _ _ => rfl) fun a e he ha _ => ?_
  cases e with
  | lost x => exact absurd (hl _ he) (by simp [Event.isLost])
  | _ => exact ha

namespace Stack

/-- The most bytes that a segment carries. -/
def mss (e : Ends) : Nat :=
  max 64 (e.mtu - headersLength e.host)

/-- A packet takes a segment from a host to a device: its checksum is right, and it is read back. -/
structure Conveys (host device : IpAddress) (x : Segment) (p : IpPacket) : Prop where
  source : p.source = host
  destination : p.destination = device
  protocol : p.protocol = protocolTcp
  valid : Segment.checksumValid p.payload host device = true
  parsed : ∃ checksum, Segment.ofBytes p.payload = .ok { x with checksum }

theorem exists_conveys {s : Stack} {x : Segment} {bs : Bytes} (h : s.packetOf x = .ok bs) :
    ∃ p, IsPacket bs p ∧ Conveys s.host s.device x p := by
  obtain ⟨raw, hraw, hwrap⟩ := wrap_of_packetOf h
  have hfits := fits_iff.2 ⟨bs, hwrap⟩
  refine ⟨_, isPacket_of_wrap hwrap, rfl, rfl, rfl, ?_, ?_⟩
  · exact Segment.checksumValid_toBytes hraw (Segment.length_le_of_fits hfits)
  · obtain ⟨sum, hsum⟩ := Segment.exists_toBytes x hfits.1
    obtain rfl := Except.ok.inj (hraw.symm.trans hsum)
    exact ⟨_, Segment.ofBytes_assemble x sum⟩

/-- The packets of some segments are a stream of packets that convey them. -/
theorem exists_conveying {s : Stack} {xs : List Segment} {packets : List Bytes}
    (h : List.Forall₂ (fun x p => s.packetOf x = .ok p) xs packets) :
    ∃ ps : Packets, ps.Sound ∧ ps.map Prod.fst = packets ∧
      List.Forall₂ (fun x q => Conveys s.host s.device x q.2) xs ps := by
  induction h with
  | nil => exact ⟨[], fun _ hq => absurd hq List.not_mem_nil, rfl, .nil⟩
  | cons hx _ ih =>
    obtain ⟨p, hp, hconveys⟩ := exists_conveys hx
    obtain ⟨ps, hps, rfl, hrest⟩ := ih
    exact ⟨(_, p) :: ps, List.forall_mem_cons.2 ⟨hp, hps⟩, rfl, .cons hconveys hrest⟩

/-- If nothing was lost, what went into the tunnel is cut into as many packets as segments were
sent, with nothing left over, and these convey the segments in their order. -/
theorem conveyed_of_lossless {e : Ends} {acts : List Act} {s : Stack}
    (hs : s = play acts (ofEnds e)) (hl : s.journal.Lossless) :
    ∃ stream ps, s.transport.sent = e.transport.sent ++ stream ∧
      cutTimes s.journal.posts.length stream = some (ps, []) ∧
      List.Forall₂ (fun x q => Conveys e.host e.device x q.1) s.journal.posts ps := by
  subst hs
  have hg := grows_play acts (ofEnds e)
  obtain ⟨packets, hpackets, hsent⟩ := sent_play hl
  obtain ⟨ps, hps, rfl, hconvey⟩ := exists_conveying hpackets
  rw [hg.host, hg.device] at hconvey
  refine ⟨_, ps.map fun q => (q.2, q.1.length), hsent, ?_, ?_⟩
  · rw [hconvey.length_eq, ← Packets.bytes_eq_flatten]
    simpa using Packets.cutTimes_bytes hps []
  · rw [List.forall₂_map_right_iff]
    exact hconvey

/-! ### A connection that sends some bytes -/

/-- The answer of the device that accepts a connection. -/
def acceptance : Segment :=
  { source := 80, destination := 49152, sequence := 0, acknowledgement := 0,
    control := { syn := true, ack := true }, window := 0, payload := [] }

/-- The tunnel of the example. -/
def narrow : Ends :=
  { Ends.sample with mtu := 100 }

end Stack

end Tether.Tunnel
