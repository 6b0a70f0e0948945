import Tether.Afc.Packet
import Tether.Proofs.Connection

/-!
# Packets on the wire

A packet *fits* when its header tells the lengths of its parts. Packets that fit can be told
apart on the wire, whatever follows them, and one that is not too long is received as it was
sent, however its bytes arrive. Where less than a packet has arrived, receiving it fails with
the transport or waits, and what had arrived is lost.

* `Packet.toBytes_append_inj`: the packets in a string of bytes are unique;
* `Packet.receive_of_eq`, `Packet.receive_of_cut`: receiving a packet that has arrived, and one of
  which only a part has.
-/

namespace Tether

namespace Bytes

theorem ofNatLE_inj {n m width : Nat} (hn : n < 256 ^ width) (hm : m < 256 ^ width)
    (h : ofNatLE width n = ofNatLE width m) : n = m := by
  rw [← Nat.mod_eq_of_lt hn, ← Nat.mod_eq_of_lt hm, ← toNatLE_ofNatLE, ← toNatLE_ofNatLE, h]

/-- The bytes of a word. -/
theorem toNatLE_word (n : UInt64) : UInt64.ofNat (toNatLE (ofNatLE 8 n.toNat)) = n := by
  rw [toNatLE_ofNatLE, Nat.mod_eq_of_lt n.toNat_lt, UInt64.ofNat_toNat]

theorem word_inj {n m : UInt64} (h : ofNatLE 8 n.toNat = ofNatLE 8 m.toNat) : n = m :=
  UInt64.toNat_inj.1 (ofNatLE_inj n.toNat_lt m.toNat_lt h)

end Bytes

/-! ## Packets -/

namespace Afc

namespace Header

variable {h h' : Header} {rest rest' : Bytes}

theorem toBytes_eq (h : Header) :
    h.toBytes = Bytes.ofNatLE 8 h.magic.toNat ++ (Bytes.ofNatLE 8 h.entireLength.toNat ++
      (Bytes.ofNatLE 8 h.leadLength.toNat ++ (Bytes.ofNatLE 8 h.number.toNat ++
        Bytes.ofNatLE 8 h.operation.code.toNat))) := by
  simp [toBytes]

@[simp] theorem length_toBytes (h : Header) : h.toBytes.length = headerLength := by
  simp [toBytes_eq, headerLength]

theorem toBytes_inj (heq : h.toBytes = h'.toBytes) : h = h' := by
  rw [toBytes_eq, toBytes_eq] at heq
  have hlen (n m : Nat) : (Bytes.ofNatLE 8 n).length = (Bytes.ofNatLE 8 m).length := by simp
  obtain ⟨hmagic, heq⟩ := List.append_inj heq (hlen _ _)
  obtain ⟨hentire, heq⟩ := List.append_inj heq (hlen _ _)
  obtain ⟨hlead, heq⟩ := List.append_inj heq (hlen _ _)
  obtain ⟨hnumber, hcode⟩ := List.append_inj heq (hlen _ _)
  have hoperation : some h.operation = some h'.operation := by
    rw [← Operation.ofCode?_code, ← Operation.ofCode?_code, Bytes.word_inj hcode]
  cases h
  cases h'
  simp only [Option.some.injEq] at hoperation
  simp only [mk.injEq]
  exact ⟨Bytes.word_inj hmagic, Bytes.word_inj hentire, Bytes.word_inj hlead,
    Bytes.word_inj hnumber, hoperation⟩

/-- A header whose lengths can be those of a packet is read back. -/
theorem ofBytes_toBytes (hmagic : h.magic = Afc.magic) (hlengths : h.hasLengths) :
    ofBytes h.toBytes = .ok h := by
  have hfields : fieldOf h.toBytes 0 = h.magic ∧ fieldOf h.toBytes 1 = h.entireLength ∧
      fieldOf h.toBytes 2 = h.leadLength ∧ fieldOf h.toBytes 3 = h.number ∧
      fieldOf h.toBytes 4 = h.operation.code := by
    simp [fieldOf, toBytes_eq, List.drop_append, List.drop_eq_nil_of_le, List.take_of_length_le,
      Bytes.toNatLE_word]
  obtain ⟨h0, h1, h2, h3, h4⟩ := hfields
  simp only [ofBytes, length_toBytes, Nat.lt_irrefl, if_false, h0, h1, h2, h3, h4, hmagic,
    ne_eq, not_true_eq_false, Operation.ofCode?_code]
  rw [← hmagic, if_pos hlengths]

end Header

namespace Packet

variable {p q : Packet} {ps qs : List Packet} {c : Connection} {rest rest' : Bytes}

/-- The header tells the lengths of the parts. -/
structure Fits (p : Packet) : Prop where
  magic : p.header.magic = Afc.magic
  lead : p.header.leadLength.toNat = headerLength + p.lead.length
  entire : p.header.entireLength.toNat = headerLength + p.lead.length + p.content.length

/-- A packet that the client accepts. -/
structure IsReply (p : Packet) : Prop extends p.Fits where
  short : p.header.entireLength.toNat ≤ maxLength

/-- Packets one after the other. -/
def bytesOf (ps : List Packet) : Bytes :=
  ps.flatMap toBytes

@[simp] theorem bytesOf_nil : bytesOf [] = [] :=
  rfl

@[simp] theorem bytesOf_cons (p : Packet) (ps : List Packet) :
    bytesOf (p :: ps) = p.toBytes ++ bytesOf ps :=
  List.flatMap_cons

@[simp] theorem bytesOf_append (ps qs : List Packet) :
    bytesOf (ps ++ qs) = bytesOf ps ++ bytesOf qs :=
  List.flatMap_append

@[simp] theorem length_toBytes (p : Packet) :
    p.toBytes.length = headerLength + p.lead.length + p.content.length := by
  simp [toBytes, Nat.add_assoc]

theorem toBytes_ne_nil (p : Packet) : p.toBytes ≠ [] := by
  apply List.ne_nil_of_length_pos
  simp [headerLength]

/-- A packet that is made of parts fits, unless it is longer than its header can say. -/
theorem fits_make {operation : Operation} {number : UInt64} {lead content : Bytes}
    (h : headerLength + lead.length + content.length < 2 ^ 64) :
    (make operation number lead content).Fits where
  magic := rfl
  lead := by
    simp only [make, UInt64.toNat_ofNat']
    exact Nat.mod_eq_of_lt (by omega)
  entire := by
    simp only [make, UInt64.toNat_ofNat']
    exact Nat.mod_eq_of_lt h

theorem isReply_make {operation : Operation} {number : UInt64} {lead content : Bytes}
    (h : headerLength + lead.length + content.length ≤ maxLength) :
    (make operation number lead content).IsReply := by
  have hfits : (make operation number lead content).Fits :=
    fits_make (Nat.lt_of_le_of_lt h (by decide))
  exact ⟨hfits, hfits.entire ▸ h⟩

/-! ### The packets in a string of bytes -/

theorem toBytes_append_inj (hp : p.Fits) (hq : q.Fits)
    (h : p.toBytes ++ rest = q.toBytes ++ rest') : p = q ∧ rest = rest' := by
  simp only [toBytes, List.append_assoc] at h
  obtain ⟨hheader, h⟩ := List.append_inj h (by simp)
  have hheader := Header.toBytes_inj hheader
  have hleads : p.lead.length = q.lead.length := by
    have hp := hp.lead
    have hq := hq.lead
    rw [hheader] at hp
    omega
  have hcontents : p.content.length = q.content.length := by
    have hp := hp.entire
    have hq := hq.entire
    rw [hheader] at hp
    omega
  obtain ⟨hlead, h⟩ := List.append_inj h hleads
  obtain ⟨hcontent, hrest⟩ := List.append_inj h hcontents
  cases p
  cases q
  simp only at hheader hlead hcontent
  exact ⟨by rw [hheader, hlead, hcontent], hrest⟩

/-- Of two strings of packets one of which starts the other, the shorter has the first packets
of the longer. -/
theorem prefix_of_bytesOf_prefix (hps : ∀ p ∈ ps, p.Fits) (hqs : ∀ q ∈ qs, q.Fits)
    (h : bytesOf ps <+: bytesOf qs) : ps <+: qs := by
  induction ps generalizing qs with
  | nil => exact List.nil_prefix
  | cons p ps ih =>
    obtain ⟨rest, h⟩ := h
    cases qs with
    | nil =>
      simp only [bytesOf_cons, bytesOf_nil, List.append_eq_nil_iff] at h
      exact absurd h.1.1 p.toBytes_ne_nil
    | cons q qs =>
      simp only [bytesOf_cons, List.append_assoc] at h
      obtain ⟨rfl, hrest⟩ :=
        toBytes_append_inj (hps p List.mem_cons_self) (hqs q List.mem_cons_self) h
      exact List.cons_prefix_cons.2 ⟨rfl, ih (fun x hx => hps x (List.mem_cons_of_mem _ hx))
        (fun x hx => hqs x (List.mem_cons_of_mem _ hx)) ⟨rest, hrest⟩⟩

theorem bytesOf_inj (hps : ∀ p ∈ ps, p.Fits) (hqs : ∀ q ∈ qs, q.Fits)
    (h : bytesOf ps = bytesOf qs) : ps = qs := by
  have hle := prefix_of_bytesOf_prefix hps hqs (h ▸ List.prefix_refl _)
  have hge := prefix_of_bytesOf_prefix hqs hps (h ▸ List.prefix_refl _)
  exact hle.eq_of_length (Nat.le_antisymm hle.length_le hge.length_le)

/-- A part of a packet, but not all of it. -/
def Cut (bs : Bytes) : Prop :=
  ∃ p : Packet, p.IsReply ∧ bs <+: p.toBytes ∧ bs.length < p.toBytes.length

theorem cut_nil : Cut [] :=
  ⟨.make .status 0 [] [], isReply_make (by decide), List.nil_prefix, by simp [headerLength]⟩

theorem not_cut_toBytes (hp : p.IsReply) : ¬ Cut (p.toBytes ++ rest) := by
  rintro ⟨q, hq, ⟨more, h⟩, hlt⟩
  have heq : p.toBytes ++ (rest ++ more) = q.toBytes ++ [] := by
    rw [← List.append_assoc, h, List.append_nil]
  obtain ⟨rfl, -⟩ := toBytes_append_inj hp.toFits hq.toFits heq
  simp only [List.length_append] at hlt
  omega

/-- The bytes start with a packet, or they are a part of one. -/
def Arriving (bs : Bytes) : Prop :=
  (∃ (p : Packet) (rest : Bytes), p.IsReply ∧ bs = p.toBytes ++ rest) ∨ Cut bs

/-- What has arrived of some packets starts with the first of them, or is a part of it. -/
theorem arriving_of_prefix {bs : Bytes} (hps : ∀ p ∈ ps, p.IsReply) (h : bs <+: bytesOf ps) :
    Arriving bs := by
  cases ps with
  | nil => exact .inr (by rw [List.prefix_nil.1 h]; exact cut_nil)
  | cons p ps =>
    have hp := hps p List.mem_cons_self
    rw [bytesOf_cons] at h
    by_cases hle : p.toBytes.length ≤ bs.length
    · obtain ⟨rest, rfl⟩ := List.prefix_of_prefix_length_le (List.prefix_append _ _) h hle
      exact .inl ⟨p, rest, hp, rfl⟩
    · exact .inr ⟨p, hp, List.prefix_of_prefix_length_le h (List.prefix_append _ _) (by omega),
        by omega⟩

/-! ### Receiving a packet -/

theorem IsReply.hasLengths (h : p.IsReply) : p.header.hasLengths := by
  have hlead := h.lead
  have hentire := h.entire
  have hshort := h.short
  simp only [Header.hasLengths, Bool.and_eq_true, decide_eq_true_eq, UInt64.le_iff_toNat_le]
  omega

theorem IsReply.ofBytes (h : p.IsReply) : Header.ofBytes p.header.toBytes = .ok p.header :=
  Header.ofBytes_toBytes h.magic h.hasLengths

/-- A packet that has arrived is received. -/
theorem receive_of_eq (hp : p.IsReply) (ho : c.isOpen)
    (h : c.transport.unread = p.toBytes ++ rest) :
    ∃ reads, receive c = .ok p (c.left rest reads) := by
  have hlead : p.header.leadLength.toNat - headerLength = p.lead.length := by
    have := hp.lead
    omega
  have hcontent :
      p.header.entireLength.toNat - p.header.leadLength.toNat = p.content.length := by
    have hlead := hp.lead
    have hentire := hp.entire
    omega
  rw [toBytes, List.append_assoc, List.append_assoc] at h
  obtain ⟨r, hr⟩ := Connection.readRaw_of_le (n := headerLength) ho (by rw [h]; simp)
  rw [h, List.take_left' (by simp), List.drop_left' (by simp)] at hr
  obtain ⟨r', hr'⟩ := Connection.readRaw_of_le (c := c.left (p.lead ++ (p.content ++ rest)) r)
    (n := p.lead.length) ho (by simp)
  rw [Connection.unread_left, List.take_left, List.drop_left] at hr'
  obtain ⟨r'', hr''⟩ := Connection.readRaw_of_le (c := c.left (p.content ++ rest) r')
    (n := p.content.length) ho (by simp)
  rw [Connection.unread_left, List.take_left, List.drop_left] at hr''
  refine ⟨r'', ?_⟩
  simp only [receive, bind, EStateM.bind, hr, hp.ofBytes, Call.ofExcept, pure, EStateM.pure,
    hlead, hr', Connection.left_left, hcontent, hr'']

/-- A packet of which only a part has arrived is not received, and the part is lost. -/
theorem receive_of_cut (ho : c.isOpen) (h : Cut c.transport.unread) :
    ∃ halt reads, Connection.isLost halt ∧ receive c = .error halt (c.left [] reads) := by
  obtain ⟨p, hp, h, hlt⟩ := h
  rw [length_toBytes] at hlt
  have hlead : p.header.leadLength.toNat - headerLength = p.lead.length := by
    have := hp.lead
    omega
  have hcontent :
      p.header.entireLength.toNat - p.header.leadLength.toNat = p.content.length := by
    have hlead := hp.lead
    have hentire := hp.entire
    omega
  by_cases hheader : headerLength ≤ c.transport.unread.length
  · obtain ⟨part, hpart⟩ : ∃ part, c.transport.unread = p.header.toBytes ++ part := by
      obtain ⟨part, hpart⟩ := List.prefix_of_prefix_length_le
        (List.prefix_append p.header.toBytes (p.lead ++ p.content))
        (by simpa [toBytes] using h) (by simpa using hheader)
      exact ⟨part, hpart.symm⟩
    obtain ⟨r, hr⟩ := Connection.readRaw_of_le (n := headerLength) ho hheader
    rw [hpart, List.take_left' (by simp), List.drop_left' (by simp)] at hr
    rw [hpart, List.length_append, Header.length_toBytes] at hlt
    by_cases hleads : p.lead.length ≤ part.length
    · obtain ⟨r', hr'⟩ := Connection.readRaw_of_le (c := c.left part r) (n := p.lead.length) ho
        hleads
      rw [Connection.unread_left] at hr'
      obtain ⟨halt, r'', hlost, hr''⟩ := Connection.readRaw_of_lt
        (c := c.left (part.drop p.lead.length) r') (n := p.content.length) ho
        (by simp only [Connection.unread_left, List.length_drop]; omega)
      refine ⟨halt, r'', hlost, ?_⟩
      simp only [receive, bind, EStateM.bind, hr, hp.ofBytes, Call.ofExcept, pure, EStateM.pure,
        hlead, hr', Connection.left_left, hcontent, hr'']
    · obtain ⟨halt, r', hlost, hr'⟩ := Connection.readRaw_of_lt (c := c.left part r)
        (n := p.lead.length) ho (by simpa using hleads)
      refine ⟨halt, r', hlost, ?_⟩
      simp only [receive, bind, EStateM.bind, hr, hp.ofBytes, Call.ofExcept, pure, EStateM.pure,
        hlead, hr', Connection.left_left]
  · obtain ⟨halt, r, hlost, hr⟩ := Connection.readRaw_of_lt (n := headerLength) ho (by omega)
    refine ⟨halt, r, hlost, ?_⟩
    simp only [receive, bind, EStateM.bind, hr]

end Packet

end Afc

end Tether
