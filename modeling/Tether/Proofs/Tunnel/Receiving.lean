import Tether.Proofs.Tunnel.Play

/-!
# What is received

Suppose that a connection is established by a segment with the number `I`, and that each segment
with bytes carries a stretch of one stream `B`, numbered from `I + 1` on and starting less than
2³¹ bytes from where the link has got to. Segments may come in any order and any number of
times, overlap, leave gaps, and be mixed with those of other connections. What the stack makes
of them is a beginning of the stream.

* `Link.Reads.accept`: one segment keeps a link in step with the stream;
* `taken_append_unread_eq_stretch`: what was taken, and what can be taken, at any moment of any
  play.
-/

namespace Tether.Tunnel

open Net

/-- The `n` bytes of a stream from the `k`-th on. -/
def stretch (B : Nat → UInt8) (k n : Nat) : Bytes :=
  (List.range n).map fun i => B (k + i)

@[simp] theorem length_stretch (B : Nat → UInt8) (k n : Nat) : (stretch B k n).length = n := by
  simp [stretch]

theorem stretch_append (B : Nat → UInt8) (k m n : Nat) :
    stretch B k m ++ stretch B (k + m) n = stretch B k (m + n) := by
  simp only [stretch, List.range_add, List.map_append, List.map_map]
  congr 1
  exact List.map_congr_left fun i _ => by simp [Nat.add_assoc]

namespace Link

variable {B : Nat → UInt8} {I : UInt32} {l : Link} {s : Segment} {ss : List Segment}
  {m : Link × Segment}

/-- A segment carries bytes of a stream whose first byte has the number `I + 1`, from a place
that is less than 2³¹ bytes from where the link has got to. -/
def Carries (B : Nat → UInt8) (I : UInt32) (l : Link) (s : Segment) : Prop :=
  ∃ k, s.payload = stretch B k s.payload.length ∧ s.sequence = I + 1 + UInt32.ofNat k ∧
    k < l.received.length + 2 ^ 31 ∧ l.received.length < k + 2 ^ 31

/-- A link has received a beginning of the stream, and expects what comes next. The end of the
stream takes a number of its own. -/
structure Reads (B : Nat → UInt8) (I : UInt32) (l : Link) : Prop where
  received : l.received = stretch B 0 l.received.length
  expected : l.expected = I + 1 + UInt32.ofNat l.received.length +
    if l.status = .ended .unexpectedEof then 1 else 0

/-- Numbers are taken modulo 2³², but places less than 2³¹ apart have different numbers. -/
theorem place_eq_of_number_eq {k n : Nat} (h : I + 1 + UInt32.ofNat k = I + 1 + UInt32.ofNat n)
    (hk : k < n + 2 ^ 31) (hn : n < k + 2 ^ 31) : k = n := by
  have h' := congrArg UInt32.toNat ((UInt32.add_right_inj (I + 1)).1 h)
  simp only [UInt32.toNat_ofNat'] at h'
  omega

theorem Reads.takeIn (h : l.Reads B I) (hl : l.status = .connected)
    (hseq : s.sequence = l.expected) (hs : s.payload ≠ [] → l.Carries B I s) :
    (l.takeIn s.payload).received = stretch B 0 (l.takeIn s.payload).received.length ∧
      (l.takeIn s.payload).expected =
        I + 1 + UInt32.ofNat (l.takeIn s.payload).received.length := by
  have hexp : l.expected = I + 1 + UInt32.ofNat l.received.length := by
    rw [h.expected, hl, if_neg (by decide), UInt32.add_zero]
  by_cases hp : s.payload = []
  · rw [Link.takeIn, hp]
    simpa using ⟨h.received, hexp⟩
  · obtain ⟨k, hpay, hk, hlt, hgt⟩ := hs hp
    -- A segment that starts where the last one ended carries what comes next in the stream.
    obtain rfl : k = l.received.length :=
      place_eq_of_number_eq (hk.symm.trans (hseq.trans hexp)) hlt hgt
    constructor
    · rw [Link.takeIn]
      dsimp only
      rw [List.length_append, ← stretch_append, Nat.zero_add, ← hpay, ← h.received]
    · rw [Link.takeIn]
      dsimp only
      rw [hexp, List.length_append, UInt32.ofNat_add, UInt32.add_assoc (I + 1)]

/-- One segment keeps a link in step with the stream. -/
theorem Reads.accept (h : l.Reads B I) (hl : l.status.isEstablished = true)
    (hs : l.status = .connected → s.payload ≠ [] → l.Carries B I s) :
    (l.accept s).1.Reads B I := by
  cases hst : l.status with
  | connecting => rw [hst] at hl; cases hl
  | ended fault => rwa [accept_ended hst]
  | connected =>
    rw [accept_connected hst]
    split
    · refine ⟨h.received, ?_⟩
      dsimp only
      rw [h.expected, hst, if_neg (by decide), if_neg (by decide)]
    · split
      · next hf =>
        simp only [finishes, Bool.and_eq_true, follows_eq_true_iff] at hf
        obtain ⟨hr, he⟩ := h.takeIn hst hf.1.2.2 (hs hst)
        refine ⟨hr, ?_⟩
        rw [finish]
        dsimp only
        rw [he, if_pos rfl]
      · split
        · next hf =>
          obtain ⟨hr, he⟩ := h.takeIn hst (follows_eq_true_iff.1 hf).2.2 (hs hst)
          refine ⟨hr, ?_⟩
          rw [he, Link.takeIn]
          dsimp only
          rw [hst, if_neg (by decide), UInt32.add_zero]
        · exact h

/-- A link that was just established has received nothing. -/
theorem reads_of_meets (h : l.meets s = true) (hr : l.received = []) :
    (l.accept s).1.Reads B s.sequence := by
  rw [accept_of_meets h]
  constructor
  · dsimp only
    rw [hr]
    rfl
  · dsimp only
    rw [hr, if_neg (by decide), List.length_nil]
    simp

/-! ## Sequences of segments -/

theorem isEstablished_of_mem_moments (h : l.status.isEstablished = true)
    (hm : m ∈ l.moments ss) : m.1.status.isEstablished = true := by
  induction ss generalizing l with
  | nil => exact absurd hm List.not_mem_nil
  | cons s ss ih =>
    rcases List.mem_cons.1 hm with rfl | hm
    · exact h
    · exact ih (Status.isEstablished_accept h) hm

theorem isEstablished_hear (h : l.status.isEstablished = true) :
    (l.hear ss).status.isEstablished = true := by
  induction ss generalizing l with
  | nil => exact h
  | cons s ss ih => exact ih (Status.isEstablished_accept h)

/-- Whatever comes after it, a link that was established at some moment stays so. -/
theorem isEstablished_hear_of_meets (hm : m ∈ l.moments ss) (h : m.1.meets m.2 = true) :
    (l.hear ss).status.isEstablished = true := by
  induction ss generalizing l with
  | nil => exact absurd hm List.not_mem_nil
  | cons s ss ih =>
    rcases List.mem_cons.1 hm with rfl | hm
    · exact isEstablished_hear (l := (l.accept s).1) (by rw [status_accept_of_meets h]; rfl)
    · exact ih hm

/-- A connection is established once. -/
theorem eq_of_meets {m' : Link × Segment} (hm : m ∈ l.moments ss) (hm' : m' ∈ l.moments ss)
    (h : m.1.meets m.2 = true) (h' : m'.1.meets m'.2 = true) : m = m' := by
  have later {l : Link} {s : Segment} {ss : List Segment} {m : Link × Segment}
      (hs : l.meets s = true) (hm : m ∈ (l.accept s).1.moments ss) : m.1.meets m.2 = false :=
    not_meets_of_isEstablished
      (isEstablished_of_mem_moments (by rw [status_accept_of_meets hs]; rfl) hm)
  induction ss generalizing l with
  | nil => exact absurd hm List.not_mem_nil
  | cons s ss ih =>
    rcases List.mem_cons.1 hm with rfl | hm <;> rcases List.mem_cons.1 hm' with rfl | hm'
    · rfl
    · rw [later h hm'] at h'
      cases h'
    · rw [later h' hm] at h
      cases h
    · exact ih hm hm'

/-- A link that was established by a segment with the number `I`, and hears stretches of the
stream, is in step with the stream at every moment. -/
theorem reads_hear (hfresh : l.status.isEstablished = false → l.received = [])
    (hl : l.status.isEstablished = true → l.Reads B I)
    (hI : ∀ m ∈ l.moments ss, m.1.meets m.2 = true → m.2.sequence = I)
    (hB : ∀ m ∈ l.moments ss, m.1.status = .connected → m.2.payload ≠ [] → m.1.Carries B I m.2) :
    (∀ m ∈ l.moments ss, m.1.status.isEstablished = true → m.1.Reads B I) ∧
      ((l.hear ss).status.isEstablished = true → (l.hear ss).Reads B I) := by
  induction ss generalizing l with
  | nil => exact ⟨fun m hm => absurd hm List.not_mem_nil, hl⟩
  | cons s ss ih =>
    have hnext : (l.accept s).1.status.isEstablished = true → (l.accept s).1.Reads B I := by
      intro hest
      cases he : l.status.isEstablished with
      | true => exact (hl he).accept he (hB (l, s) List.mem_cons_self)
      | false =>
        cases hm : l.meets s with
        | true =>
          rw [← hI (l, s) List.mem_cons_self hm]
          exact reads_of_meets hm (hfresh he)
        | false =>
          rw [isEstablished_accept_of_not_meets he hm] at hest
          cases hest
    have hfresh' : (l.accept s).1.status.isEstablished = false → (l.accept s).1.received = [] := by
      intro he
      have hle : l.status.isEstablished = false := by
        cases h : l.status.isEstablished with
        | false => rfl
        | true => rw [Status.isEstablished_accept h] at he; cases he
      have hnot : l.follows s = false := by
        cases h : l.follows s with
        | false => rfl
        | true => rw [(follows_eq_true_iff.1 h).1] at hle; cases hle
      rw [received_accept, hfresh hle, gain, if_neg (by simp [hnot])]
      rfl
    obtain ⟨hmoments, hend⟩ := ih hfresh' hnext
      (fun m hm => hI m (List.mem_cons_of_mem _ hm))
      (fun m hm => hB m (List.mem_cons_of_mem _ hm))
    refine ⟨fun m hm => ?_, hend⟩
    rcases List.mem_cons.1 hm with rfl | hm
    · exact hl
    · exact hmoments m hm

theorem hear_ended {fault : Fault} (h : l.status = .ended fault) : l.hear ss = l := by
  induction ss generalizing l with
  | nil => rfl
  | cons s ss ih =>
    have hs : (l.accept s).1 = l := by rw [accept_ended h]
    have ht : l.hear (s :: ss) = (l.accept s).1.hear ss := rfl
    rw [ht, hs, ih h]

/-- Once a link is over, nothing is added to it. -/
theorem hear_eq_of_ended {fault : Fault} (hm : m ∈ l.moments ss)
    (h : (m.1.accept m.2).1.status = .ended fault) : l.hear ss = (m.1.accept m.2).1 := by
  induction ss generalizing l with
  | nil => exact absurd hm List.not_mem_nil
  | cons s ss ih =>
    rcases List.mem_cons.1 hm with rfl | hm
    · exact hear_ended h
    · exact ih hm

/-- A link is over by the will of the device once it has accepted the end. -/
theorem status_hear_eq_eof_iff (h : l.status ≠ .ended .unexpectedEof) :
    (l.hear ss).status = .ended .unexpectedEof ↔
      (l.moments ss).any (fun m => m.1.finishes m.2) = true := by
  induction ss generalizing l with
  | nil => simp [moments, h]
  | cons s ss ih =>
    have ht : l.hear (s :: ss) = (l.accept s).1.hear ss := rfl
    rw [ht, moments, List.any_cons]
    cases hf : l.finishes s with
    | true =>
      have hs := status_accept_of_finishes hf
      rw [hear_ended hs]
      simp [hs]
    | false =>
      rw [ih (status_accept_ne_eof h hf), Bool.false_or]

/-- A link was reset by a segment that came once it held all that it has accepted. -/
theorem exists_resets (h : l.status ≠ .ended .connectionReset)
    (hs : (l.hear ss).status = .ended .connectionReset) :
    ∃ m ∈ l.moments ss, m.1.resets m.2 = true ∧ m.1.received = (l.hear ss).received := by
  induction ss generalizing l with
  | nil => exact absurd hs h
  | cons s ss ih =>
    have ht : l.hear (s :: ss) = (l.accept s).1.hear ss := rfl
    rw [ht] at hs ⊢
    cases hr : l.resets s with
    | true =>
      have ha := accept_of_resets hr
      refine ⟨(l, s), List.mem_cons_self, hr, ?_⟩
      rw [hear_ended (by rw [ha]), ha]
    | false =>
      obtain ⟨m, hm, hm'⟩ := ih (status_accept_ne_reset h hr) hs
      exact ⟨m, List.mem_cons_of_mem _ hm, hm'⟩

end Link

namespace Account

variable {a : Account} {B : Nat → UInt8} {I : UInt32}

/-- The connection was established by a segment with the number `I`. -/
def EstablishedBy (I : UInt32) (a : Account) : Prop :=
  ∃ m ∈ a.moments, m.1.meets m.2 = true ∧ m.2.sequence = I

/-- Each segment that came with bytes, when the connection was open, carries a stretch of the
stream. -/
def Hears (B : Nat → UInt8) (I : UInt32) (a : Account) : Prop :=
  ∀ m ∈ a.moments, m.1.status = .connected → m.2.payload ≠ [] → m.1.Carries B I m.2

/-- Whether the end of the connection was accepted from the device. -/
def isFinished (a : Account) : Bool :=
  a.moments.any fun m => m.1.finishes m.2

theorem reads_heard (hI : a.EstablishedBy I) (hB : a.Hears B I) :
    a.heard.Reads B I ∧ ∀ m ∈ a.moments, m.1.status.isEstablished = true → m.1.Reads B I := by
  obtain ⟨m, hm, hmeets, hseq⟩ := hI
  obtain ⟨hmoments, hend⟩ := Link.reads_hear (l := a.fresh) (B := B) (I := I) (fun _ => rfl) nofun
    (fun m' hm' h' => by rw [← hseq, Link.eq_of_meets hm' hm h' hmeets]) hB
  exact ⟨hend (Link.isEstablished_hear_of_meets hm hmeets), hmoments⟩

/-- What was taken from a connection is a beginning of what was accepted. -/
theorem taken_append_unread {size : Nat} {j : Journal} (hj : j.Valid size)
    (ha : a ∈ (Ledger.ofJournal j).accounts) : a.taken ++ a.unread = a.accepted := by
  have hprefix : a.taken <+: a.accepted := by
    refine hj.accounts (Q := fun a => a.taken <+: a.accepted) ?_ ?_ a ha
    · exact fun _ _ _ _ => List.nil_prefix
    · intro a e _ h hallow
      cases e with
      | arrived s =>
        rw [accepted, heard_note_arrived, Link.received_accept]
        exact h.trans (List.prefix_append _ _)
      | taken port bytes =>
        have ht : (a.note (.taken port bytes)).taken = a.taken ++ bytes := rfl
        have hh : (a.note (.taken port bytes)).accepted = a.accepted := rfl
        exact ⟨[], by rw [List.append_nil, ht, hh]; exact hallow⟩
      | opened | forgotten => cases hallow
      | _ => exact h
  obtain ⟨rest, hrest⟩ := hprefix
  rw [unread, ← hrest, List.drop_left]

end Account

namespace Stack

variable {e : Ends} {acts : List Act} {j : Journal} {a : Account} {B : Nat → UInt8} {I : UInt32}

/-- What a stack receives is a beginning of what the device sends, whatever the segments do on
their way. A moment of a play is a beginning `j` of its journal, and an account of the ledger of
`j` is a connection at that moment. Then, with `m` the number of bytes accepted so far:

* what was taken, followed by what was not, is the first `m` bytes of the stream;
* the number that is expected next is that of byte `m`, or one more once the end was accepted;
* an end is accepted only from a segment that starts where the link had got to;
* nothing is added once the link is over, be it by an end or by a reset;
* the table of the stack holds just this;
* each acknowledgement that was sent carries the number that was expected when it was sent;
* at the end of the play, and so between any two calls, what was taken are the bytes that the calls
  gave of the connection, and what was sent are the segments in the packets that went into the
  tunnel, if none was lost. -/
theorem taken_append_unread_eq_stretch (hj : j <:+ (play acts (ofEnds e)).journal)
    (ha : a ∈ (Ledger.ofJournal j).accounts) (hI : a.EstablishedBy I) (hB : a.Hears B I) :
    (∃ m, a.taken ++ a.unread = stretch B 0 m ∧
      a.heard.expected = I + 1 + UInt32.ofNat m + if a.isFinished then 1 else 0) ∧
    (∀ l x, (l, x) ∈ a.moments → l.finishes x = true →
      l.received = stretch B 0 l.received.length ∧
        x.sequence = I + 1 + UInt32.ofNat l.received.length) ∧
    (∀ l x fault, (l, x) ∈ a.moments → (l.accept x).1.status = .ended fault →
      a.taken ++ a.unread = (l.accept x).1.received) ∧
    (∀ l, j = (play acts (ofEnds e)).journal → (play acts (ofEnds e)).links.get? a.port = some l →
      (Ledger.ofJournal j).at? a.port = some a →
        l.received = a.unread ∧ l.expected = a.heard.expected) ∧
    (∀ i x, .sent x :: i <:+ j → x.control.ack = true →
      ∃ b, (Ledger.ofJournal i).at? x.source = some b ∧
        x.acknowledgement = b.heard.expected) ∧
    (∀ n, j = (play acts (ofEnds e)).journal → (Ledger.ofJournal j).accounts[n]? = some a →
      a.taken = given n acts (ofEnds e)) ∧
    (j = (play acts (ofEnds e)).journal → j.Lossless →
      ∃ packets,
        List.Forall₂ (fun x p => (play acts (ofEnds e)).packetOf x = .ok p) j.posts packets ∧
        (play acts (ofEnds e)).transport.sent = e.transport.sent ++ packets.flatten) := by
  have hk := kept_play e acts
  have hv := hk.valid.of_suffix hj
  have htaken := Account.taken_append_unread hv ha
  obtain ⟨hreads, hmoments⟩ := Account.reads_heard hI hB
  refine ⟨⟨a.accepted.length, ?_, ?_⟩, fun l x hm hf => ?_, fun l x fault hm hended => ?_,
    fun l hnow hl hat => ?_, fun i x hi hack => ?_, fun n hnow hn => ?_, ?_⟩
  · rw [htaken]
    exact hreads.received
  · have hfinished : a.heard.status = .ended .unexpectedEof ↔ a.isFinished = true :=
      Link.status_hear_eq_eof_iff nofun
    rw [hreads.expected]
    congr 1
    exact if_congr hfinished rfl rfl
  · simp only [Link.finishes, Bool.and_eq_true, Link.follows_eq_true_iff] at hf
    obtain ⟨⟨hc, -, hseq⟩, -⟩ := hf
    have hl := hmoments _ hm (by rw [hc]; rfl)
    refine ⟨hl.received, ?_⟩
    rw [hseq, hl.expected, hc, if_neg (by decide), UInt32.add_zero]
  · rw [htaken]
    exact congrArg Link.received (Link.hear_eq_of_ended hm hended)
  · subst hnow
    obtain ⟨b, hb, htells⟩ := hk.exists_account hl
    obtain rfl := Option.some.inj (hat.symm.trans hb)
    refine ⟨List.append_cancel_left (htells.received.trans htaken.symm), htells.expected⟩
  · obtain ⟨b, hb, hsends⟩ := (hv.of_suffix hi).1
    exact ⟨b, hb, hsends.acknowledgement_eq hack⟩
  · subst hnow
    have hgiven := takenOf_play (kept_ofEnds e) acts n
    rw [ledger, Ledger.takenOf, hn] at hgiven
    exact hgiven
  · rintro rfl
    exact sent_play

/-! ### A stream across the wrap of its numbers -/

/-- A segment from port 80 of the device. -/
def reply (sequence : UInt32) (control : Control) (payload : Bytes) (checksum : UInt16) : Segment :=
  { source := 80, destination := 49152, sequence, acknowledgement := 0, control, window := 0,
    checksum, payload }

/-- The device connects, sends three bytes in two segments, the second with the end, and between
them one that leaves a gap. -/
def replies : List Segment :=
  [reply 0xfffffffe { syn := true, ack := true } [] 56192,
    reply 0xffffffff { ack := true } [1, 2] 55933,
    reply 2 { ack := true } [4] 55166,
    reply 1 { fin := true, ack := true } [3] 55422]

/-- A connection that hears the replies. -/
def hearing : List Act :=
  [.world ((replies.take 1).flatMap Ends.sample.packet) .silent none, .connect 80 [0] 7,
    .world ((replies.drop 1).flatMap Ends.sample.packet) .silent none, .process, .take 49152]

/-- An acknowledgement of the host. -/
def receipt (acknowledgement : UInt32) : Segment :=
  { source := 49152, destination := 80, sequence := 8, acknowledgement,
    control := Link.acknowledgement, window := Link.window, payload := [] }

/-- The account of the connection that hears the replies. -/
def hearer : Account where
  port := 49152
  peerPort := 80
  first := 7
  arrived := replies
  taken := [1, 2, 3]
  sent :=
    [{ source := 49152, destination := 80, sequence := 7, acknowledgement := 0,
       control := Link.greeting, window := Link.window, payload := [] },
      receipt 0xffffffff, receipt 1, receipt 1, receipt 3]

theorem accounts_hearing :
    (Ledger.ofJournal (play hearing (ofEnds Ends.sample)).journal).accounts = [hearer] := by
  cbv

theorem taken_eq_stretch_hearing :
    (∃ m, hearer.taken ++ hearer.unread = stretch (fun i => UInt8.ofNat (i + 1)) 0 m ∧
      hearer.heard.expected = 0xffffffff + UInt32.ofNat m + if hearer.isFinished then 1 else 0) ∧
    hearer.isFinished = true ∧ given 0 hearing (ofEnds Ends.sample) = [1, 2, 3] := by
  have ha : hearer ∈ (Ledger.ofJournal (play hearing (ofEnds Ends.sample)).journal).accounts := by
    rw [accounts_hearing]
    exact List.mem_singleton_self hearer
  have hI : hearer.EstablishedBy 0xfffffffe := by
    unfold Account.EstablishedBy
    decide
  have hB : hearer.Hears (fun i => UInt8.ofNat (i + 1)) 0xfffffffe := by
    intro m hm hc hp
    refine ⟨(m.2.sequence - 0xffffffff).toNat, ?_⟩
    revert m
    decide
  obtain ⟨hstretch, -, -, -, -, hgiven, -⟩ :=
    taken_append_unread_eq_stretch (List.suffix_refl _) ha hI hB
  exact ⟨hstretch, by decide, (hgiven 0 rfl (by rw [accounts_hearing]; rfl)).symm⟩

end Stack

end Tether.Tunnel
