import Mathlib
import Tether.Net.Packet

/-!
# Packets in a stream of bytes

What is cut off the front of some bytes depends on nothing behind it: once the bytes are known
to start with a packet, or not to, more bytes change nothing. So a stream of packets is cut
into the same packets wherever its bytes arrive apart.

* `cutPacket_append`: more bytes matter only to an incomplete packet;
* `IsPacket.cut_of_prefix`: a part of a packet is incomplete;
* `wellFormed_iff`: a packet is cut off as a whole exactly where its header says so;
* `Packets.split_of_prefix`: what has arrived of a stream of packets is some whole ones and a part of
  the next;
* `Packets.exists_append_of_le`: it divides in one way.
-/

namespace Tether.Net

variable {bs t : Bytes} {p : IpPacket} {n : Nat}

theorem slice_append {start stop : Nat} (h : stop ≤ bs.length) :
    slice (bs ++ t) start stop = slice bs start stop := by
  by_cases hs : start ≤ bs.length
  · rw [slice, slice, List.drop_append_of_le_length hs,
      List.take_append_of_le_length (by rw [List.length_drop]; omega)]
  · have hlength : stop - start = 0 := by omega
    simp [slice, hlength]

theorem getD_append_of_lt {i : Nat} {d : UInt8} (h : i < bs.length) :
    (bs ++ t).getD i d = bs.getD i d := by
  simp [List.getD, List.getElem?_append_left h]

theorem headD_append {d : UInt8} (h : bs ≠ []) : (bs ++ t).headD d = bs.headD d := by
  cases bs with
  | nil => exact absurd rfl h
  | cons b bs => rfl

theorem Ipv4Packet.cut_append (bs t : Bytes) :
    cut bs = .incomplete ∨ cut (bs ++ t) = cut bs := by
  by_cases hshort : bs.length < headerLength
  · exact .inl (by rw [cut, if_pos hshort])
  have hlength : 20 ≤ bs.length := Nat.le_of_not_lt hshort
  have hlong : ¬ (bs ++ t).length < headerLength := by
    rw [List.length_append]
    omega
  have hne : bs ≠ [] := List.ne_nil_of_length_pos (by omega)
  simp only [cut, if_neg hshort, if_neg hlong, headD_append hne,
    slice_append (show 4 ≤ bs.length by omega)]
  split
  · exact .inr rfl
  · split
    · exact .inr rfl
    · split
      · exact .inl rfl
      · next hwhole =>
        have hwhole' : ¬ (bs ++ t).length < Bytes.toNatBE (slice bs 2 4) := by
          rw [List.length_append]
          omega
        right
        rw [if_neg hwhole', slice_append (by omega), slice_append (by omega),
          slice_append (by omega), slice_append (by omega), getD_append_of_lt (by omega),
          getD_append_of_lt (by omega)]

theorem Ipv6Packet.cut_append (bs t : Bytes) :
    cut bs = .incomplete ∨ cut (bs ++ t) = cut bs := by
  by_cases hshort : bs.length < headerLength
  · exact .inl (by rw [cut, if_pos hshort])
  have hlength : 40 ≤ bs.length := Nat.le_of_not_lt hshort
  have hlong : ¬ (bs ++ t).length < headerLength := by
    rw [List.length_append]
    omega
  have hne : bs ≠ [] := List.ne_nil_of_length_pos (by omega)
  simp only [cut, if_neg hshort, if_neg hlong, headD_append hne,
    slice_append (show 6 ≤ bs.length by omega)]
  split
  · exact .inr rfl
  · split
    · exact .inl rfl
    · next hwhole =>
      have hwhole' :
          ¬ (bs ++ t).length < headerLength + Bytes.toNatBE (slice bs 4 6) := by
        rw [List.length_append]
        omega
      right
      rw [if_neg hwhole', slice_append (by omega), slice_append (by omega),
        slice_append (by omega), getD_append_of_lt (by omega), getD_append_of_lt (by omega)]

/-- More bytes matter only to an incomplete packet. -/
theorem cutPacket_append (bs t : Bytes) :
    cutPacket bs = .incomplete ∨ cutPacket (bs ++ t) = cutPacket bs := by
  cases bs with
  | nil => exact .inl rfl
  | cons first bs =>
    rw [List.cons_append]
    simp only [cutPacket]
    split
    · rcases Ipv4Packet.cut_append (first :: bs) t with h | h
      · exact .inl (by rw [h]; rfl)
      · exact .inr (by rw [← List.cons_append, h])
    · rcases Ipv6Packet.cut_append (first :: bs) t with h | h
      · exact .inl (by rw [h]; rfl)
      · exact .inr (by rw [← List.cons_append, h])
    · exact .inr rfl

theorem Ipv4Packet.length_of_cut {q : Ipv4Packet} (h : cut bs = .packet q n) :
    headerLength ≤ n ∧ n ≤ bs.length := by
  simp only [cut] at h
  split at h
  · cases h
  · split at h
    · cases h
    · split at h
      · cases h
      · split at h
        · cases h
        · cases h
          omega

theorem Ipv6Packet.length_of_cut {q : Ipv6Packet} (h : cut bs = .packet q n) :
    headerLength ≤ n ∧ n ≤ bs.length := by
  simp only [cut] at h
  split at h
  · cases h
  · split at h
    · cases h
    · split at h
      · cases h
      · cases h
        omega

theorem Cut.eq_packet_of_map {α β : Type} {f : α → β} {c : Cut α} {b : β}
    (h : c.map f = .packet b n) : ∃ a, c = .packet a n ∧ f a = b := by
  cases c with
  | packet a m =>
    cases h
    exact ⟨a, rfl, rfl⟩
  | incomplete => cases h
  | invalid => cases h

/-- A packet is at least as long as a header and at most as long as what it is cut off. -/
theorem length_of_cutPacket (h : cutPacket bs = .packet p n) :
    Ipv4Packet.headerLength ≤ n ∧ n ≤ bs.length := by
  cases bs with
  | nil => cases h
  | cons first bs =>
    simp only [cutPacket] at h
    split at h
    · obtain ⟨q, hq, -⟩ := Cut.eq_packet_of_map h
      exact Ipv4Packet.length_of_cut hq
    · obtain ⟨q, hq, -⟩ := Cut.eq_packet_of_map h
      obtain ⟨hlong, hle⟩ := Ipv6Packet.length_of_cut hq
      exact ⟨le_trans (by decide) hlong, hle⟩
    · cases h

/-- These bytes are one packet. -/
def IsPacket (bs : Bytes) (p : IpPacket) : Prop :=
  cutPacket bs = .packet p bs.length

theorem IsPacket.cut (h : IsPacket bs p) (t : Bytes) :
    cutPacket (bs ++ t) = .packet p bs.length := by
  rw [IsPacket] at h
  rcases cutPacket_append bs t with h' | h'
  · rw [h] at h'
    cases h'
  · rw [h', h]

theorem Ipv4Packet.cut_ne_incomplete {q : Ipv4Packet}
    (h : cut (bs ++ t) = .packet q bs.length) : cut bs ≠ .incomplete := by
  have hlong : 20 ≤ bs.length := (length_of_cut h).1
  have hfront : ¬ bs.length < headerLength := Nat.not_lt.2 hlong
  have hwhole : ¬ (bs ++ t).length < headerLength := by
    rw [List.length_append]
    omega
  have hne : bs ≠ [] := List.ne_nil_of_length_pos (by omega)
  simp only [cut, if_neg hwhole, if_neg hfront, headD_append hne,
    slice_append (show 4 ≤ bs.length by omega)] at h ⊢
  split at h
  · cases h
  · next hversion =>
    split at h
    · cases h
    · next hheader =>
      split at h
      · cases h
      · -- The header says that the packet ends where the part in front does.
        have htotal : ¬ bs.length < Bytes.toNatBE (slice bs 2 4) := by
          simp only [Cut.packet.injEq] at h
          omega
        rw [if_neg hversion, if_neg hheader, if_neg htotal]
        nofun

theorem Ipv6Packet.cut_ne_incomplete {q : Ipv6Packet}
    (h : cut (bs ++ t) = .packet q bs.length) : cut bs ≠ .incomplete := by
  have hlong : 40 ≤ bs.length := (length_of_cut h).1
  have hfront : ¬ bs.length < headerLength := Nat.not_lt.2 hlong
  have hwhole : ¬ (bs ++ t).length < headerLength := by
    rw [List.length_append]
    omega
  have hne : bs ≠ [] := List.ne_nil_of_length_pos (by omega)
  simp only [cut, if_neg hwhole, if_neg hfront, headD_append hne,
    slice_append (show 6 ≤ bs.length by omega)] at h ⊢
  split at h
  · cases h
  · next hversion =>
    split at h
    · cases h
    · have htotal : ¬ bs.length < headerLength + Bytes.toNatBE (slice bs 4 6) := by
        simp only [Cut.packet.injEq] at h
        omega
      rw [if_neg hversion, if_neg htotal]
      nofun

/-- What is cut off is one packet. -/
theorem isPacket_of_cut (h : cutPacket (bs ++ t) = .packet p bs.length) : IsPacket bs p := by
  have hlong := (length_of_cutPacket h).1
  rcases cutPacket_append bs t with hpart | hwhole
  · -- The version in the first byte says which of the two formats it is.
    cases bs with
    | nil => cases Nat.le_zero.1 hlong
    | cons first bs =>
      simp only [cutPacket, List.cons_append] at h hpart
      split at h
      · next hversion =>
        obtain ⟨q, hq, -⟩ := Cut.eq_packet_of_map h
        simp only [hversion] at hpart
        cases hcut : Ipv4Packet.cut (first :: bs) with
        | incomplete => exact absurd hcut (Ipv4Packet.cut_ne_incomplete hq)
        | _ => simp [hcut, Cut.map] at hpart
      · next hversion =>
        obtain ⟨q, hq, -⟩ := Cut.eq_packet_of_map h
        simp only [hversion] at hpart
        cases hcut : Ipv6Packet.cut (first :: bs) with
        | incomplete => exact absurd hcut (Ipv6Packet.cut_ne_incomplete hq)
        | _ => simp [hcut, Cut.map] at hpart
      · cases h
  · rw [IsPacket, ← hwhole, h]

/-- A part of a packet is incomplete. -/
theorem IsPacket.cut_of_prefix {part : Bytes} (h : IsPacket bs p) (hpart : part <+: bs)
    (hlt : part.length < bs.length) : cutPacket part = .incomplete := by
  obtain ⟨t, rfl⟩ := hpart
  rcases cutPacket_append part t with h' | h'
  · exact h'
  · rw [h] at h'
    have hlength := (length_of_cutPacket h'.symm).2
    omega

/-! ### What a header says -/

/-- The version of a packet, which its first byte says. -/
def versionOf (bs : Bytes) : Nat :=
  (bs.headD 0).toNat / 16

/-- The length of a version 4 header, which its first byte says. -/
def headerOf (bs : Bytes) : Nat :=
  (bs.headD 0).toNat % 16 * 4

/-- These bytes start with a header that says that they are one packet. -/
inductive WellFormed (bs : Bytes) : Prop where
  | v4 (hversion : versionOf bs = 4) (hheader : Ipv4Packet.headerLength ≤ headerOf bs)
    (htotal : headerOf bs ≤ bs.length) (hlength : Bytes.toNatBE (slice bs 2 4) = bs.length)
  | v6 (hversion : versionOf bs = 6)
    (hlength : Ipv6Packet.headerLength + Bytes.toNatBE (slice bs 4 6) = bs.length)

instance WellFormed.decidable (bs : Bytes) : Decidable (WellFormed bs) :=
  decidable_of_iff
    ((versionOf bs = 4 ∧ Ipv4Packet.headerLength ≤ headerOf bs ∧ headerOf bs ≤ bs.length ∧
        Bytes.toNatBE (slice bs 2 4) = bs.length) ∨
      versionOf bs = 6 ∧ Ipv6Packet.headerLength + Bytes.toNatBE (slice bs 4 6) = bs.length)
    ⟨fun h => h.elim (fun h => .v4 h.1 h.2.1 h.2.2.1 h.2.2.2) fun h => .v6 h.1 h.2,
      fun h => by
        cases h with
        | v4 hversion hheader htotal hlength => exact .inl ⟨hversion, hheader, htotal, hlength⟩
        | v6 hversion hlength => exact .inr ⟨hversion, hlength⟩⟩

theorem Ipv4Packet.exists_cut_iff :
    (∃ q, Ipv4Packet.cut bs = .packet q bs.length) ↔
      versionOf bs = 4 ∧ headerLength ≤ headerOf bs ∧ headerOf bs ≤ bs.length ∧
        Bytes.toNatBE (slice bs 2 4) = bs.length := by
  constructor
  · rintro ⟨q, hq⟩
    simp only [Ipv4Packet.cut] at hq
    split at hq
    · cases hq
    · split at hq
      · cases hq
      · split at hq
        · cases hq
        · split at hq
          · cases hq
          · simp only [Cut.packet.injEq] at hq
            rw [versionOf, headerOf]
            omega
  · rintro ⟨hversion, hheader, htotal, hlength⟩
    rw [versionOf] at hversion
    rw [headerOf] at hheader htotal
    simp only [Ipv4Packet.cut]
    rw [if_neg (by omega), if_neg (by omega), if_neg (by omega), if_neg (by omega), hlength]
    exact ⟨_, rfl⟩

theorem Ipv6Packet.exists_cut_iff :
    (∃ q, Ipv6Packet.cut bs = .packet q bs.length) ↔
      versionOf bs = 6 ∧ headerLength + Bytes.toNatBE (slice bs 4 6) = bs.length := by
  constructor
  · rintro ⟨q, hq⟩
    simp only [Ipv6Packet.cut] at hq
    split at hq
    · cases hq
    · split at hq
      · cases hq
      · split at hq
        · cases hq
        · simp only [Cut.packet.injEq] at hq
          rw [versionOf]
          omega
  · rintro ⟨hversion, hlength⟩
    rw [versionOf] at hversion
    simp only [Ipv6Packet.cut]
    rw [if_neg (by omega), if_neg (by omega), if_neg (by omega), hlength]
    exact ⟨_, rfl⟩

/-- A packet is cut off as a whole exactly where its header says so. -/
theorem wellFormed_iff : WellFormed bs ↔ ∃ p, IsPacket bs p := by
  cases bs with
  | nil =>
    constructor
    · rintro (⟨hversion, -, -, -⟩ | ⟨hversion, -⟩) <;> cases hversion
    · rintro ⟨p, hp⟩
      cases hp
  | cons first rest =>
    have hmap {α β : Type} {f : α → β} {c : Cut α} {n : Nat} :
        (∃ b, c.map f = .packet b n) ↔ ∃ a, c = .packet a n := by
      constructor
      · rintro ⟨b, hb⟩
        obtain ⟨a, ha, -⟩ := Cut.eq_packet_of_map hb
        exact ⟨a, ha⟩
      · rintro ⟨a, rfl⟩
        exact ⟨f a, rfl⟩
    have hfirst : versionOf (first :: rest) = first.toNat / 16 := rfl
    constructor
    · rintro (⟨hversion, hheader, htotal, hlength⟩ | ⟨hversion, hlength⟩)
      · rw [hfirst] at hversion
        simp only [IsPacket, cutPacket, hversion]
        exact hmap.2 (Ipv4Packet.exists_cut_iff.2 ⟨hversion, hheader, htotal, hlength⟩)
      · rw [hfirst] at hversion
        simp only [IsPacket, cutPacket, hversion]
        exact hmap.2 (Ipv6Packet.exists_cut_iff.2 ⟨hversion, hlength⟩)
    · rintro ⟨p, hp⟩
      simp only [IsPacket, cutPacket] at hp
      split at hp
      · obtain ⟨hversion, hheader, htotal, hlength⟩ :=
          Ipv4Packet.exists_cut_iff.1 (hmap.1 ⟨p, hp⟩)
        exact .v4 hversion hheader htotal hlength
      · obtain ⟨hversion, hlength⟩ := Ipv6Packet.exists_cut_iff.1 (hmap.1 ⟨p, hp⟩)
        exact .v6 hversion hlength
      · cases hp

/-- The length of a packet stands in two bytes of its header, in version 6 without the header. -/
theorem IsPacket.length_lt (h : IsPacket bs p) : bs.length < 2 ^ 17 := by
  have hfield (start stop : Nat) (hwidth : stop - start = 2) :
      Bytes.toNatBE (slice bs start stop) < 2 ^ 16 := by
    have hlength : (slice bs start stop).reverse.length ≤ 2 := by simp [slice, hwidth]
    rw [← List.reverse_reverse (slice bs start stop), Bytes.toNatBE_reverse]
    exact (Bytes.toNatLE_lt _).trans_le (Nat.pow_le_pow_right (by decide) hlength)
  have hheader : Ipv6Packet.headerLength = 40 := rfl
  rcases wellFormed_iff.2 ⟨p, h⟩ with ⟨-, -, -, hlength⟩ | ⟨-, hlength⟩
  · have := hfield 2 4 rfl
    omega
  · have := hfield 4 6 rfl
    omega

/-- The addresses of a packet are of one family, so that an answer can be written. -/
theorem IsPacket.exists_wrap (h : IsPacket bs p) (protocol : UInt8) :
    ∃ packet, wrap p.destination p.source protocol [] = .ok packet := by
  cases bs with
  | nil => cases h
  | cons first rest =>
    simp only [IsPacket, cutPacket] at h
    split at h
    · obtain ⟨q, -, rfl⟩ := Cut.eq_packet_of_map h
      exact ⟨_, rfl⟩
    · obtain ⟨q, -, rfl⟩ := Cut.eq_packet_of_map h
      exact ⟨_, rfl⟩
    · cases h

/-! ### Streams of packets -/

/-- A stream of packets. -/
abbrev Packets := List (Bytes × IpPacket)

namespace Packets

/-- The bytes of a stream of packets. -/
def bytes (ps : Packets) : Bytes :=
  ps.flatMap Prod.fst

theorem bytes_append (ps qs : Packets) : bytes (ps ++ qs) = bytes ps ++ bytes qs :=
  List.flatMap_append

theorem bytes_eq_flatten (ps : Packets) : bytes ps = (ps.map Prod.fst).flatten :=
  List.flatMap_def

/-- All of them are packets. -/
def Sound (ps : Packets) : Prop :=
  ∀ x ∈ ps, IsPacket x.1 x.2

/-- Bytes with headers that say so are a stream of packets. -/
theorem exists_of_wellFormed {pieces : List Bytes} (h : ∀ bs ∈ pieces, WellFormed bs) :
    ∃ ps, Sound ps ∧ ps.map Prod.fst = pieces := by
  induction pieces with
  | nil => exact ⟨[], fun _ hx => absurd hx List.not_mem_nil, rfl⟩
  | cons bs pieces ih =>
    obtain ⟨p, hp⟩ := wellFormed_iff.1 (h bs List.mem_cons_self)
    obtain ⟨ps, hps, rfl⟩ := ih fun bs hbs => h bs (List.mem_cons_of_mem _ hbs)
    exact ⟨(bs, p) :: ps, List.forall_mem_cons.2 ⟨hp, hps⟩, rfl⟩

theorem mul_length_le {ps : Packets} (hps : Sound ps) :
    Ipv4Packet.headerLength * ps.length ≤ (bytes ps).length := by
  induction ps with
  | nil => exact Nat.zero_le _
  | cons x ps ih =>
    have ih := ih fun y hy => hps y (List.mem_cons_of_mem x hy)
    have hx := (length_of_cutPacket (hps x List.mem_cons_self)).1
    have hbytes : bytes (x :: ps) = x.1 ++ bytes ps := List.flatMap_cons
    rw [List.length_cons, hbytes, List.length_append, Nat.mul_succ]
    omega

theorem cutAtMost_bytes {ps : Packets} (hps : Sound ps) {fuel : Nat} (hfuel : ps.length < fuel) :
    cutAtMost fuel (bytes ps) = ps.map Prod.fst ++ [[]] := by
  induction ps generalizing fuel with
  | nil =>
    obtain ⟨fuel, rfl⟩ : ∃ n, fuel = n + 1 := ⟨fuel - 1, by omega⟩
    rfl
  | cons x ps ih =>
    rw [List.length_cons] at hfuel
    obtain ⟨fuel, rfl⟩ : ∃ n, fuel = n + 1 := ⟨fuel - 1, by omega⟩
    have hbytes : bytes (x :: ps) = x.1 ++ bytes ps := List.flatMap_cons
    rw [cutAtMost, hbytes, (hps x List.mem_cons_self).cut]
    simp only [List.take_left, List.drop_left]
    rw [ih (fun y hy => hps y (List.mem_cons_of_mem x hy)) (by omega)]
    rfl

/-- A stream of packets is cut into its packets. -/
theorem cutAll_bytes {ps : Packets} (hps : Sound ps) :
    cutAll (bytes ps) = ps.map Prod.fst ++ [[]] := by
  have hlength := mul_length_le hps
  refine cutAtMost_bytes hps ?_
  simp only [Ipv4Packet.headerLength] at hlength ⊢
  omega

/-- What has arrived of a stream of packets is some whole ones and a part of the next, which
is incomplete. -/
theorem split_of_prefix {ps : Packets} (hps : Sound ps) {arrived : Bytes}
    (h : arrived <+: bytes ps) :
    ∃ whole later part, ps = whole ++ later ∧ arrived = bytes whole ++ part ∧
      part <+: bytes later ∧ cutPacket part = .incomplete := by
  induction ps generalizing arrived with
  | nil =>
    obtain rfl : arrived = [] := List.prefix_nil.1 h
    exact ⟨[], [], [], rfl, rfl, List.prefix_refl _, rfl⟩
  | cons x ps ih =>
    have hx : IsPacket x.1 x.2 := hps x List.mem_cons_self
    have hbytes : bytes (x :: ps) = x.1 ++ bytes ps := List.flatMap_cons
    rw [hbytes] at h
    by_cases hwhole : x.1.length ≤ arrived.length
    · obtain ⟨rest, rfl⟩ := List.prefix_of_prefix_length_le (List.prefix_append _ _) h hwhole
      obtain ⟨whole, later, part, rfl, rfl, hpart, hcut⟩ :=
        ih (fun y hy => hps y (List.mem_cons_of_mem x hy)) ((List.prefix_append_right_inj _).1 h)
      exact ⟨x :: whole, later, part, rfl, by simp [bytes], hpart, hcut⟩
    · have hpart : arrived <+: x.1 :=
        List.prefix_of_prefix_length_le h (List.prefix_append _ _) (by omega)
      exact ⟨[], x :: ps, arrived, rfl, rfl, hbytes ▸ h, hx.cut_of_prefix hpart (by omega)⟩

/-- A stream of packets divides in front of a part in one way; so where more is left, fewer packets
are behind. -/
theorem exists_append_of_le {ps qs rs us : Packets} {part rest : Bytes}
    (hps : Sound (ps ++ qs)) (h : ps ++ qs = rs ++ us) (hpart : cutPacket part = .incomplete)
    (hus : bytes us = part ++ rest) (hlength : rest.length ≤ (bytes qs).length) :
    ∃ vs, rs = ps ++ vs ∧ qs = vs ++ us := by
  rcases List.append_eq_append_iff.1 h with ⟨vs, hrs, hqs⟩ | ⟨vs, hfront, hus'⟩
  · exact ⟨vs, hrs, hqs⟩
  · cases vs with
    | nil => exact ⟨[], by simpa using hfront.symm, by simpa using hus'.symm⟩
    | cons x vs =>
      -- The part would hold the packet `x`.
      have hwhole : bytes (x :: vs) <+: part := by
        refine List.prefix_of_prefix_length_le ?_ (List.prefix_append part rest) ?_
        · rw [← hus, hus', bytes_append]
          exact List.prefix_append _ _
        · have hlen := congrArg List.length hus
          rw [hus', bytes_append, List.length_append, List.length_append] at hlen
          omega
      obtain ⟨tail, htail⟩ := hwhole
      have hx : IsPacket x.1 x.2 := hps x (by simp [hfront])
      rw [← htail, bytes, List.flatMap_cons, List.append_assoc, hx.cut] at hpart
      cases hpart

/-- A stream of packets is not one with something behind it that starts no packet. -/
theorem bytes_ne_append {ps qs : Packets} {bad : Bytes} (hps : Sound ps) (hqs : Sound qs)
    (hbad : cutPacket bad = .invalid) : bytes ps ≠ bytes qs ++ bad := by
  intro h
  induction qs generalizing ps with
  | nil =>
    obtain rfl : bad = bytes ps := h.symm
    cases ps with
    | nil => cases hbad
    | cons x ps =>
      rw [bytes, List.flatMap_cons, (hps x List.mem_cons_self).cut] at hbad
      cases hbad
  | cons y qs ih =>
    have hy := hqs y List.mem_cons_self
    have hbytes : bytes (y :: qs) ++ bad = y.1 ++ (bytes qs ++ bad) := by simp [bytes]
    rw [hbytes] at h
    cases ps with
    | nil =>
      -- Nothing is left where there should be the packet `y`.
      have hcut := hy.cut (bytes qs ++ bad)
      rw [← h] at hcut
      cases hcut
    | cons x ps =>
      have hx := hps x List.mem_cons_self
      have hbytes' : bytes (x :: ps) = x.1 ++ bytes ps := List.flatMap_cons
      rw [hbytes'] at h
      -- Both streams start with the same packet.
      have hlength : x.1.length = y.1.length := by
        have hcut := hx.cut (bytes ps)
        rw [h, hy.cut] at hcut
        exact (Cut.packet.inj hcut).2.symm
      obtain ⟨-, hrest⟩ := List.append_inj h hlength
      exact ih (fun z hz => hps z (List.mem_cons_of_mem x hz))
        (fun z hz => hqs z (List.mem_cons_of_mem y hz)) hrest

end Packets

end Tether.Net
