import Tether.Afc.Client
import Tether.Proofs.Afc.Packet

/-!
# Requests and their replies

A call on a client is made of requests, each with the next number, and takes one packet from
the device for each of them. `Exchanged` says so of a whole call: what it sent are the bytes of
some requests with consecutive numbers, and what it took are the bytes of as many packets. The
packets are taken as they come: nothing in them is compared with the request.

* `Client.ends_request`: a request takes the packet that comes next, or is given up;
* `Exchanged.trans`: exchanges one after the other.
-/

namespace Tether.Afc

/-- What a request asks, without its number. -/
structure Ask where
  operation : Operation
  lead : Bytes
  content : Bytes := []
  deriving DecidableEq, Repr

namespace Ask

/-- The request with a number. -/
def packet (a : Ask) (number : UInt64) : Packet :=
  .make a.operation number a.lead a.content

/-- The length of the request is one that its header can say. -/
def Fits (a : Ask) : Prop :=
  headerLength + a.lead.length + a.content.length < 2 ^ 64

theorem Fits.packet {a : Ask} (h : a.Fits) (number : UInt64) : (a.packet number).Fits :=
  Packet.fits_make h

/-- Requests with consecutive numbers. -/
def numbered (first : UInt64) : List Ask → List Packet
  | [] => []
  | a :: asks => a.packet first :: numbered (first + 1) asks

variable {first : UInt64} {asks asks' : List Ask}

@[simp] theorem length_numbered (first : UInt64) (asks : List Ask) :
    (numbered first asks).length = asks.length := by
  induction asks generalizing first with
  | nil => rfl
  | cons a asks ih => simp [numbered, ih]

theorem ofNat_succ (n : Nat) : UInt64.ofNat (n + 1) = 1 + UInt64.ofNat n := by
  rw [UInt64.ofNat_add, UInt64.add_comm]
  rfl

theorem numbered_append (first : UInt64) (asks asks' : List Ask) :
    numbered first (asks ++ asks') =
      numbered first asks ++ numbered (first + UInt64.ofNat asks.length) asks' := by
  induction asks generalizing first with
  | nil => simp [numbered]
  | cons a asks ih =>
    simp only [List.cons_append, numbered, ih, List.length_cons, ofNat_succ, UInt64.add_assoc]

theorem fits_numbered (h : ∀ a ∈ asks, a.Fits) : ∀ q ∈ numbered first asks, q.Fits := by
  induction asks generalizing first with
  | nil => simp [numbered]
  | cons a asks ih =>
    simp only [numbered, List.mem_cons, forall_eq_or_imp] at h ⊢
    exact ⟨h.1.packet first, ih h.2⟩

end Ask

namespace Client

/-- All bytes sent so far. -/
def sent (c : Client) : Bytes :=
  c.connection.transport.sent

/-- The bytes that have arrived and were not read. -/
def unread (c : Client) : Bytes :=
  c.connection.transport.unread

/-- The client once more bytes have arrived. -/
def hear (c : Client) (bs : Bytes) : Client :=
  { c with connection := { c.connection with transport := c.connection.transport.deliver bs } }

/-- The connection is there, and writes succeed. -/
structure Ready (c : Client) : Prop where
  isOpen : c.connection.isOpen
  allowance : c.connection.transport.allowance = none

/-- The connection is there, and writes do not yet fail. -/
def CanSend (c : Client) : Prop :=
  c.connection.isOpen ∧ ∀ fault, c.connection.transport.allowance ≠ some (0, fault)

/-- What is sent is behind what was sent before. -/
def Extends (s t : Client) : Prop :=
  s.sent <+: t.sent

instance isPreorder_extends : IsPreorder Client Extends where
  refl _ := List.prefix_refl _
  trans _ _ _ h h' := h.trans h'

/-- A client on a connection that is silent once nothing is left to read. -/
def quiet : Client :=
  { connection := { transport := { unread := [], ending := .silent }, label := "" } }

variable {s t u : Client} {bs bs' rest : Bytes} {p q : Packet}

theorem ready_quiet : quiet.Ready :=
  ⟨rfl, rfl⟩

@[simp] theorem sent_hear (c : Client) (bs : Bytes) : (c.hear bs).sent = c.sent :=
  rfl

@[simp] theorem unread_hear (c : Client) (bs : Bytes) : (c.hear bs).unread = c.unread ++ bs :=
  rfl

@[simp] theorem canSend_hear {c : Client} {bs : Bytes} : (c.hear bs).CanSend ↔ c.CanSend :=
  Iff.rfl

theorem Ready.hear (h : s.Ready) (bs : Bytes) : (s.hear bs).Ready :=
  ⟨h.isOpen, h.allowance⟩

theorem Ready.canSend (h : s.Ready) : s.CanSend :=
  ⟨h.isOpen, by simp [h.allowance]⟩

/-! ### Sending -/

/-- From `t` to `u` no more was read, and where writes fail they go on to fail. -/
structure Wrote (t u : Transport) : Prop where
  sent : t.sent <+: u.sent
  unread : u.unread = t.unread
  allowance : t.allowance = none → u.allowance = none
  failing : ∀ fault, t.allowance = some (0, fault) → u.allowance = some (0, fault)

theorem Wrote.trans {t u v : Transport} (h : Wrote t u) (h' : Wrote u v) : Wrote t v :=
  ⟨h.sent.trans h'.sent, h'.unread.trans h.unread, h'.allowance ∘ h.allowance,
    fun fault => h'.failing fault ∘ h.failing fault⟩

/-- A write adds its bytes, if it has any while writes do not yet fail. Once one fails, they do. -/
theorem ends_writeAll (bs : Bytes) (t : Transport) :
    (Transport.writeAll bs).Ends t
      (fun _ u => u.sent = t.sent ++ bs ∧ Wrote t u ∧
        (bs ≠ [] → ∀ fault, t.allowance ≠ some (0, fault)))
      (fun h u => Wrote t u ∧ ∃ fault, h = .failed fault ∧ u.allowance = some (0, fault)) := by
  by_cases hne : bs = []
  · subst hne
    exact ⟨by simp, ⟨List.prefix_rfl, rfl, id, fun _ => id⟩, fun hne => absurd rfl hne⟩
  · have hpos : 0 < bs.length := List.length_pos_of_ne_nil hne
    refine (Transport.ends_writeAll_exact hne t).mono ?_ ?_
    · rintro _ _ ⟨hroom, rfl⟩
      have hnone (fault : Fault) : t.allowance ≠ some (0, fault) := fun hspent =>
        absurd (hroom 0 fault hspent) (Nat.not_le.2 hpos)
      exact ⟨by simp [Transport.sent], ⟨by simp [Transport.sent], rfl, fun h => by rw [h]; rfl,
        fun fault h => absurd h (hnone fault)⟩, fun _ => hnone⟩
    · rintro _ _ ⟨left, fault, rfl, -, hallowance, rfl⟩
      refine ⟨⟨by simp [Transport.sent], rfl, fun h => ?_, fun fault' h => ?_⟩, fault, rfl, rfl⟩
      · rw [hallowance] at h
        cases h
      · rw [hallowance] at h
        cases h
        rfl

theorem ends_writeAll_forM (bss : List Bytes) (t : Transport) :
    (bss.forM Transport.writeAll).Ends t
      (fun _ u => u.sent = t.sent ++ bss.flatten ∧ Wrote t u ∧
        (bss.flatten ≠ [] → ∀ fault, t.allowance ≠ some (0, fault)))
      (fun h u => Wrote t u ∧ ∃ fault, h = .failed fault ∧ u.allowance = some (0, fault)) := by
  induction bss generalizing t with
  | nil => exact ⟨by simp, ⟨List.prefix_refl _, rfl, id, fun _ => id⟩, by simp⟩
  | cons bs bss ih =>
    rw [List.forM, Call.ends_bind]
    refine (ends_writeAll bs t).mono (fun _ u hu => ?_) fun _ _ h => h
    obtain ⟨hsent, hwrote, hcan⟩ := hu
    refine (ih u).mono (fun _ v hv => ?_) fun _ v hv => ⟨hwrote.trans hv.1, hv.2⟩
    obtain ⟨hsent', hwrote', hcan'⟩ := hv
    refine ⟨by rw [hsent', hsent]; simp, hwrote.trans hwrote', fun hne fault hallow => ?_⟩
    by_cases hbs : bs = []
    · exact hcan' (by simpa [hbs] using hne) fault (hwrote.failing fault hallow)
    · exact hcan hbs fault hallow

/-- From `s` to `t` no more was read and no request was made. -/
structure Still (s t : Client) : Prop where
  sent : Extends s t
  unread : t.unread = s.unread
  number : t.nextNumber = s.nextNumber
  isOpen : t.connection.isOpen = s.connection.isOpen
  ready : s.Ready → t.Ready
  canSend : t.CanSend → s.CanSend

/-- A packet is sent as its bytes, or nothing can be sent any more. -/
theorem ends_send (p : Packet) (s : Client) :
    (send p).Ends s
      (fun _ t => s.CanSend ∧ t.sent = s.sent ++ p.toBytes ∧ Still s t)
      (fun h t => ¬ t.CanSend ∧ Connection.isLost h ∧ Still s t) := by
  by_cases ho : s.connection.isOpen
  · rw [send, onConnection, Call.ends_zoom, Connection.sendRaw, Call.Ends,
      Connection.onTransport_open _ ho, ← Call.Ends, Call.ends_zoom]
    have hstill (u : Transport) (h : Wrote s.connection.transport u) :
        Still s { s with connection := { s.connection with transport := u } } :=
      ⟨h.sent, h.unread, rfl, rfl, fun hs => ⟨ho, h.allowance hs.allowance⟩,
        fun hu => ⟨ho, fun fault hallow => hu.2 fault (h.failing fault hallow)⟩⟩
    refine (ends_writeAll_forM _ _).mono ?_ ?_
    · rintro _ u ⟨hsent, hwrote, hcan⟩
      rw [flatten_pieces] at hsent hcan
      exact ⟨⟨ho, hcan p.toBytes_ne_nil⟩, hsent, hstill u hwrote⟩
    · rintro _ u ⟨hwrote, fault, rfl, hallow⟩
      exact ⟨fun hu => hu.2 fault hallow, rfl, hstill u hwrote⟩
  · rw [send, onConnection, Call.ends_zoom, Connection.sendRaw, Call.Ends,
      Connection.onTransport_lost _ (by simpa using ho)]
    exact ⟨fun hs => ho hs.1, rfl, ⟨List.prefix_refl _, rfl, rfl, rfl, id, id⟩⟩

/-! ### Receiving -/

/-- The client with these bytes left unread. -/
def left (c : Client) (rest : Bytes) (reads : Nat) : Client :=
  { c with connection := c.connection.left rest reads }

@[simp] theorem sent_left (c : Client) (rest : Bytes) (reads : Nat) : (c.left rest reads).sent = c.sent :=
  rfl

@[simp] theorem unread_left (c : Client) (rest : Bytes) (reads : Nat) :
    (c.left rest reads).unread = rest :=
  rfl

@[simp] theorem canSend_left {c : Client} {rest : Bytes} {reads : Nat} :
    (c.left rest reads).CanSend ↔ c.CanSend :=
  Iff.rfl

@[simp] theorem nextNumber_left (c : Client) (rest : Bytes) (reads : Nat) :
    (c.left rest reads).nextNumber = c.nextNumber :=
  rfl

/-- Receiving takes the packet that has arrived, or what there is of it is lost. -/
theorem ends_receive (ho : s.connection.isOpen) (h : Packet.Arriving s.unread) :
    receive.Ends s
      (fun p t => p.IsReply ∧ failureOf p = .ok () ∧
        ∃ rest reads, s.unread = p.toBytes ++ rest ∧ t = s.left rest reads)
      (fun halt t => (∃ p e rest reads, p.IsReply ∧ failureOf p = .error e ∧ halt = .failed e ∧
          s.unread = p.toBytes ++ rest ∧ t = s.left rest reads) ∨
        Packet.Cut s.unread ∧ Connection.isLost halt ∧ ∃ reads, t = s.left [] reads) := by
  rw [receive, Call.ends_bind, onConnection, Call.ends_zoom]
  obtain ⟨p, rest, hp, hs⟩ | hcut := h
  · obtain ⟨reads, hreceive⟩ := Packet.receive_of_eq hp ho hs
    rw [Call.Ends, hreceive]
    show Call.Ends _ _ _ _
    rw [Call.ends_bind]
    cases hf : failureOf p with
    | ok => exact ⟨hp, hf, rest, reads, hs, rfl⟩
    | error e => exact .inl ⟨p, e, rest, reads, hp, hf, rfl, hs, rfl⟩
  · obtain ⟨halt, reads, hlost, hreceive⟩ := Packet.receive_of_cut ho hcut
    rw [Call.Ends, hreceive]
    cases halt with
    | waiting => exact .inr ⟨hcut, hlost, reads, rfl⟩
    | failed e => exact .inr ⟨hcut, hlost, reads, rfl⟩

end Client

/-! ### Requests -/

/-- From `s` to `t` these requests were sent, and these packets were taken for them. -/
structure Exchanged (asks : List Ask) (replies : List Packet) (s t : Client) : Prop where
  length : replies.length = asks.length
  isReply : ∀ p ∈ replies, p.IsReply
  sent : t.sent = s.sent ++ Packet.bytesOf (Ask.numbered s.nextNumber asks)
  taken : s.unread = Packet.bytesOf replies ++ t.unread
  next : t.nextNumber = s.nextNumber + UInt64.ofNat asks.length
  /-- Where anything is exchanged it could be sent. -/
  wasAble : asks ≠ [] → s.CanSend
  canSend : t.CanSend → s.CanSend

/-- From `s` to `t` these packets were taken, and then a request was given up: of its reply no
more than a part was read, which is lost. Unless nothing can be sent any more, the request was
sent. -/
structure GivenUp (replies : List Packet) (s t : Client) : Prop where
  isReply : ∀ p ∈ replies, p.IsReply
  taken : ∃ part, Packet.Cut part ∧ s.unread = Packet.bytesOf replies ++ (part ++ t.unread)
  sent : t.CanSend → ∃ asks, asks.length = replies.length + 1 ∧
    t.sent = s.sent ++ Packet.bytesOf (Ask.numbered s.nextNumber asks)
  canSend : t.CanSend → s.CanSend

variable {asks asks' : List Ask} {replies replies' : List Packet} {s t u : Client}

/-- Nothing is exchanged where nothing is sent or read. -/
theorem Exchanged.nil (hsent : t.sent = s.sent) (hunread : t.unread = s.unread)
    (hnumber : t.nextNumber = s.nextNumber) (hcan : t.CanSend → s.CanSend) :
    Exchanged [] [] s t where
  length := rfl
  isReply := by simp
  sent := by simp [hsent, Ask.numbered]
  taken := by simp [hunread]
  next := by simp [hnumber]
  wasAble := by simp
  canSend := hcan

theorem Exchanged.trans (h : Exchanged asks replies s t) (h' : Exchanged asks' replies' t u) :
    Exchanged (asks ++ asks') (replies ++ replies') s u where
  length := by simp [h.length, h'.length]
  isReply := by
    simp only [List.mem_append]
    exact fun p hp => hp.elim (h.isReply p) (h'.isReply p)
  sent := by rw [h'.sent, h.sent, h.next, Ask.numbered_append]; simp
  taken := by rw [h.taken, h'.taken]; simp
  next := by
    rw [h'.next, h.next, List.length_append, UInt64.ofNat_add, UInt64.add_assoc]
  wasAble := by
    intro hne
    by_cases hasks : asks = []
    · exact h.canSend (h'.wasAble fun h => hne (by simp [hasks, h]))
    · exact h.wasAble hasks
  canSend := h.canSend ∘ h'.canSend

theorem Exchanged.trans_givenUp (h : Exchanged asks replies s t) (h' : GivenUp replies' t u) :
    GivenUp (replies ++ replies') s u where
  isReply := by
    simp only [List.mem_append]
    exact fun p hp => hp.elim (h.isReply p) (h'.isReply p)
  taken := by
    obtain ⟨part, hcut, htaken⟩ := h'.taken
    exact ⟨part, hcut, by rw [h.taken, htaken]; simp⟩
  sent hu := by
    obtain ⟨more, hlength, hsent⟩ := h'.sent hu
    refine ⟨asks ++ more, by simp [hlength, h.length, Nat.add_assoc], ?_⟩
    rw [hsent, h.sent, h.next, Ask.numbered_append]
    simp
  canSend := h.canSend ∘ h'.canSend

/-- What is taken comes first in what has arrived. -/
theorem Exchanged.eq_append {ps : List Packet} (h : Exchanged asks replies s t)
    (hps : ∀ p ∈ ps, p.IsReply) (hs : s.unread <+: Packet.bytesOf ps) :
    ∃ ps', ps = replies ++ ps' ∧ t.unread <+: Packet.bytesOf ps' := by
  rw [h.taken] at hs
  obtain ⟨ps', rfl⟩ := Packet.prefix_of_bytesOf_prefix (fun p hp => (h.isReply p hp).toFits)
    (fun p hp => (hps p hp).toFits) ((List.prefix_append _ _).trans hs)
  refine ⟨ps', rfl, ?_⟩
  rw [Packet.bytesOf_append] at hs
  exact (List.prefix_append_right_inj _).1 hs

namespace Client

/-- A request takes the packet that comes next, whatever it is, or it is given up. -/
theorem ends_request (operation : Operation) (lead content : Bytes)
    (h : Packet.Arriving s.unread) :
    (request operation lead content).Ends s
      (fun p t => failureOf p = .ok () ∧ Exchanged [⟨operation, lead, content⟩] [p] s t ∧
        (s.Ready → t.Ready))
      (fun halt t => (∃ p e, failureOf p = .error e ∧ halt = .failed e ∧
          Exchanged [⟨operation, lead, content⟩] [p] s t) ∨
        Connection.isLost halt ∧ GivenUp [] s t ∧ (s.Ready → Packet.Cut s.unread)) := by
  rw [request, Call.ends_bind, Call.ends_get, Call.ends_bind, Call.ends_modify, Call.ends_bind]
  refine (ends_send _ { s with nextNumber := s.nextNumber + 1 }).mono
    (fun _ t ⟨hable, hsent, hstill⟩ => ?_) fun halt t ⟨hunable, hlost, hstill⟩ => ?_
  · have ho : t.connection.isOpen := by rw [hstill.isOpen]; exact hable.1
    have hut : t.unread = s.unread := hstill.unread
    -- Whatever packet comes next, it is taken for the request.
    have hexchanged (p : Packet) (rest : Bytes) (reads : Nat) (hp : p.IsReply)
        (hs : t.unread = p.toBytes ++ rest) :
        Exchanged [⟨operation, lead, content⟩] [p] s (t.left rest reads) :=
      { length := rfl
        isReply := by simpa using hp
        sent := by
          rw [sent_left, hsent]
          simp [Ask.numbered, Ask.packet, sent]
        taken := by rw [← hut, hs]; simp
        next := hstill.number
        wasAble := fun _ => hable
        canSend := fun _ => hable }
    refine (ends_receive ho (hut ▸ h)).mono ?_ ?_
    · rintro p _ ⟨hp, hf, rest, reads, hs, rfl⟩
      refine ⟨hf, hexchanged p rest reads hp hs, fun hready => ?_⟩
      exact ⟨ho, (hstill.ready ⟨hready.isOpen, hready.allowance⟩).allowance⟩
    · rintro halt _ (⟨p, e, rest, reads, hp, hf, rfl, hs, rfl⟩ | ⟨hcut, hlost, reads, rfl⟩)
      · exact .inl ⟨p, e, hf, rfl, hexchanged p rest reads hp hs⟩
      · rw [hut] at hcut
        refine .inr ⟨hlost, ⟨by simp, ⟨s.unread, hcut, by simp⟩, fun _ => ?_, fun _ => hable⟩,
          fun _ => hcut⟩
        refine ⟨[⟨operation, lead, content⟩], rfl, ?_⟩
        rw [sent_left, hsent]
        simp [Ask.numbered, Ask.packet, sent]
  · refine .inr ⟨hlost, ⟨by simp, ⟨[], Packet.cut_nil, ?_⟩, fun hu => absurd hu hunable,
      fun hu => absurd hu hunable⟩, fun hs => ?_⟩
    · exact hstill.unread.symm
    · exact absurd (hstill.ready ⟨hs.isOpen, hs.allowance⟩).canSend hunable

end Client

end Tether.Afc
