import Tether.Proofs.Net.Packet

/-!
# Packets that are written

The two versions of a packet say in different ways how long they are: a version 4 header counts
itself, a version 6 header does not. Both have 16 bits for it, so the longest payloads differ by
the twenty bytes of a header without options. What is longer, or goes between addresses of
different families, is refused; everything else is written as one packet, which is cut off again
wherever it stands in a stream of bytes.

* `isPacket_of_wrap`: what is written is one packet, with the addresses and the payload given;
* `wrap_eq_error_iff`: what is refused;
* `Packets.cutTimes_bytes`: packets one behind the other are cut off one by one;
* `cut_exactly`: all of it, with the bounds on what is cut off any bytes.
-/

namespace Tether.Net

variable {source destination : IpAddress} {protocol : UInt8} {payload bs : Bytes}

/-! ## Addresses in bytes -/

@[simp] theorem Ipv4Address.length_toBytes (a : Ipv4Address) : a.toBytes.length = 4 :=
  Bytes.length_ofNatBE 4 _

@[simp] theorem Ipv6Address.length_toBytes (a : Ipv6Address) : a.toBytes.length = 16 :=
  Bytes.length_ofNatBE 16 _

@[simp] theorem Ipv4Address.ofBytes_toBytes (a : Ipv4Address) : ofBytes a.toBytes = a := by
  rw [ofBytes, toBytes, Bytes.toNatBE_ofNatBE, Nat.mod_eq_of_lt a.value.isLt, BitVec.ofNat_toNat,
    BitVec.setWidth_eq]

@[simp] theorem Ipv6Address.ofBytes_toBytes (a : Ipv6Address) : ofBytes a.toBytes = a := by
  rw [ofBytes, toBytes, Bytes.toNatBE_ofNatBE, Nat.mod_eq_of_lt a.value.isLt, BitVec.ofNat_toNat,
    BitVec.setWidth_eq]

/-! ## What fits into a packet -/

/-- Two addresses of one family. -/
def IpAddress.SameFamily : IpAddress → IpAddress → Prop
  | .v4 _, .v4 _ => True
  | .v6 _, .v6 _ => True
  | _, _ => False

/-- What the length field of a packet has to hold for a payload of some length. -/
def IpAddress.lengthField (source : IpAddress) (length : Nat) : Nat :=
  match source with
  | .v4 _ => Ipv4Packet.headerLength + length
  | .v6 _ => length

/-- The failure of a packet whose length does not go into its header. -/
def IpAddress.tooLarge : IpAddress → TunnelError
  | .v4 _ => ⟨.invalidInput, "IPv4 payload too large"⟩
  | .v6 _ => ⟨.invalidInput, "IPv6 payload too large"⟩

/-- A payload of this length goes into one packet between these addresses. -/
def Fits (source destination : IpAddress) (length : Nat) : Prop :=
  source.SameFamily destination ∧ source.lengthField length < 65536

instance IpAddress.decidableSameFamily (source destination : IpAddress) :
    Decidable (source.SameFamily destination) :=
  match source, destination with
  | .v4 _, .v4 _ => isTrue trivial
  | .v6 _, .v6 _ => isTrue trivial
  | .v4 _, .v6 _ => isFalse id
  | .v6 _, .v4 _ => isFalse id

instance Fits.decidable (source destination : IpAddress) (length : Nat) :
    Decidable (Fits source destination length) :=
  inferInstanceAs (Decidable (_ ∧ _))

/-! ## Writing and cutting -/

theorem slice_length_append (header payload : Bytes) :
    slice (header ++ payload) header.length (header.length + payload.length) = payload := by
  rw [slice, List.drop_left, Nat.add_sub_cancel_left, List.take_length]

@[simp] theorem Ipv4Packet.length_header (s d : Ipv4Address) (protocol : UInt8) (total sum : Nat) :
    (header s d protocol total sum).length = headerLength := by
  simp [header, headerLength]

theorem Ipv4Packet.create_eq_ok_iff {s d : Ipv4Address} :
    create s d protocol payload = .ok bs ↔
      headerLength + payload.length < 65536 ∧
        header s d protocol (headerLength + payload.length)
            (Net.checksum [header s d protocol (headerLength + payload.length) 0]) ++
          payload = bs := by
  simp only [create]
  split <;> simp [*]

/-- A header says how long the packet is, whatever its checksum. -/
theorem Ipv4Packet.cut_header {s d : Ipv4Address} (sum : Nat)
    (h : headerLength + payload.length < 65536) :
    ∃ checksum, cut (header s d protocol (headerLength + payload.length) sum ++ payload) =
      .packet ⟨Net.hopLimit, protocol, checksum, s, d, payload⟩
        (headerLength + payload.length) := by
  let front := header s d protocol (headerLength + payload.length) sum
  have hfront : front.length = headerLength := length_header s d protocol _ sum
  have hlength : (front ++ payload).length = headerLength + payload.length := by
    rw [List.length_append, hfront]
  -- All fields stand in front of the payload, so they are found whatever it is.
  have hfirst : ((front ++ payload).headD 0).toNat = 0x45 := rfl
  have htotal : Bytes.toNatBE (slice (front ++ payload) 2 4) = headerLength + payload.length := by
    have hfield : slice (front ++ payload) 2 4 = Bytes.ofNatBE 2 (headerLength + payload.length) :=
      rfl
    rw [hfield, Bytes.toNatBE_ofNatBE, Nat.mod_eq_of_lt h]
  have httl : (front ++ payload).getD 8 0 = Net.hopLimit := rfl
  have hprotocol : (front ++ payload).getD 9 0 = protocol := rfl
  have hs : slice (front ++ payload) 12 16 = s.toBytes := rfl
  have hd : slice (front ++ payload) 16 20 = d.toBytes := rfl
  have hpayload : slice (front ++ payload) 20 (headerLength + payload.length) = payload :=
    slice_length_append front payload
  refine ⟨UInt16.ofNat (Bytes.toNatBE (slice (front ++ payload) 10 12)), ?_⟩
  change cut (front ++ payload) = _
  simp only [cut, hfirst, htotal, hlength, httl, hprotocol, hs, hd]
  rw [if_neg (by omega), if_neg (by decide), if_neg (by simp only [headerLength]; omega),
    if_neg (by omega), Ipv4Address.ofBytes_toBytes, Ipv4Address.ofBytes_toBytes, hpayload]

theorem Ipv4Packet.cut_of_create {s d : Ipv4Address} (h : create s d protocol payload = .ok bs) :
    ∃ checksum, cut bs = .packet ⟨Net.hopLimit, protocol, checksum, s, d, payload⟩ bs.length := by
  obtain ⟨hfits, rfl⟩ := create_eq_ok_iff.1 h
  rw [List.length_append, length_header]
  exact cut_header _ hfits

/-- A header says how long the payload is. -/
theorem Ipv6Packet.cut_of_create {s d : Ipv6Address} (h : create s d protocol payload = .ok bs) :
    cut bs = .packet ⟨protocol, Net.hopLimit, s, d, payload⟩ bs.length := by
  rw [create] at h
  split at h
  · next hfits =>
    let front : Bytes := [0x60, 0, 0, 0] ++ Bytes.ofNatBE 2 payload.length ++
      [protocol, Net.hopLimit] ++ s.toBytes ++ d.toBytes
    obtain rfl : front ++ payload = bs := Except.ok.inj h
    have hfront : front.length = headerLength := by simp [front, headerLength]
    have hlength : (front ++ payload).length = headerLength + payload.length := by
      rw [List.length_append, hfront]
    have hfirst : ((front ++ payload).headD 0).toNat = 0x60 := rfl
    have hfield : Bytes.toNatBE (slice (front ++ payload) 4 6) = payload.length := by
      have hslice : slice (front ++ payload) 4 6 = Bytes.ofNatBE 2 payload.length := rfl
      rw [hslice, Bytes.toNatBE_ofNatBE, Nat.mod_eq_of_lt hfits]
    have hprotocol : (front ++ payload).getD 6 0 = protocol := rfl
    have hhops : (front ++ payload).getD 7 0 = Net.hopLimit := rfl
    have hs : slice (front ++ payload) 8 24 = s.toBytes := rfl
    have hd : slice (front ++ payload) 24 40 = d.toBytes := rfl
    have hpayload :
        slice (front ++ payload) headerLength (headerLength + payload.length) = payload :=
      slice_length_append front payload
    simp only [cut, hfirst, hfield, hlength, hprotocol, hhops, hs, hd]
    rw [if_neg (by omega), if_neg (by decide), if_neg (by omega), Ipv6Address.ofBytes_toBytes,
      Ipv6Address.ofBytes_toBytes, hpayload]
  · cases h

theorem Ipv4Packet.isPacket_of_cut {q : Ipv4Packet} (h : cut bs = .packet q bs.length) :
    IsPacket bs ⟨.v4 q.source, .v4 q.destination, q.protocol, q.payload⟩ := by
  have hversion := (exists_cut_iff.1 ⟨q, h⟩).1
  cases bs with
  | nil => cases h
  | cons first bs =>
    have hfirst : first.toNat / 16 = 4 := hversion
    simp only [IsPacket, cutPacket, hfirst, h, Cut.map]

theorem Ipv6Packet.isPacket_of_cut {q : Ipv6Packet} (h : cut bs = .packet q bs.length) :
    IsPacket bs ⟨.v6 q.source, .v6 q.destination, q.nextHeader, q.payload⟩ := by
  have hversion := (exists_cut_iff.1 ⟨q, h⟩).1
  cases bs with
  | nil => cases h
  | cons first bs =>
    have hfirst : first.toNat / 16 = 6 := hversion
    simp only [IsPacket, cutPacket, hfirst, h, Cut.map]

/-- What is written is one packet, with the addresses and the payload given. -/
theorem isPacket_of_wrap (h : wrap source destination protocol payload = .ok bs) :
    IsPacket bs ⟨source, destination, protocol, payload⟩ := by
  cases source with
  | v4 s =>
    cases destination with
    | v4 d =>
      obtain ⟨checksum, hcut⟩ := Ipv4Packet.cut_of_create h
      exact Ipv4Packet.isPacket_of_cut hcut
    | v6 d => cases h
  | v6 s =>
    cases destination with
    | v4 d => cases h
    | v6 d => exact Ipv6Packet.isPacket_of_cut (Ipv6Packet.cut_of_create h)

/-- What is refused, and why: addresses of two families, or a payload whose length the field of
the header cannot hold. -/
theorem wrap_eq_error_iff {e : TunnelError} :
    wrap source destination protocol payload = .error e ↔
      ¬ source.SameFamily destination ∧ e = mixedFamilies ∨
        source.SameFamily destination ∧ 65535 < source.lengthField payload.length ∧
          e = source.tooLarge := by
  cases source with
  | v4 s =>
    cases destination with
    | v4 d =>
      simp only [wrap, Ipv4Packet.create, IpAddress.SameFamily, IpAddress.lengthField,
        IpAddress.tooLarge]
      split <;> grind
    | v6 d => simp [wrap, IpAddress.SameFamily, eq_comm]
  | v6 s =>
    cases destination with
    | v4 d => simp [wrap, IpAddress.SameFamily, eq_comm]
    | v6 d =>
      simp only [wrap, Ipv6Packet.create, IpAddress.SameFamily, IpAddress.lengthField,
        IpAddress.tooLarge]
      split <;> grind

/-- What fits is written, and nothing else. -/
theorem fits_iff :
    Fits source destination payload.length ↔
      ∃ bs, wrap source destination protocol payload = .ok bs := by
  constructor
  · rintro ⟨hfamily, hlength⟩
    cases hwrap : wrap source destination protocol payload with
    | ok bs => exact ⟨bs, rfl⟩
    | error e =>
      rcases wrap_eq_error_iff.1 hwrap with ⟨hmixed, -⟩ | ⟨-, hlarge, -⟩
      · exact absurd hfamily hmixed
      · omega
  · rintro ⟨bs, hbs⟩
    by_contra hfits
    have herror : ∃ e, wrap source destination protocol payload = .error e := by
      by_cases hfamily : source.SameFamily destination
      · have hlarge : ¬ source.lengthField payload.length < 65536 := fun h => hfits ⟨hfamily, h⟩
        exact ⟨_, wrap_eq_error_iff.2 (.inr ⟨hfamily, by omega, rfl⟩)⟩
      · exact ⟨_, wrap_eq_error_iff.2 (.inl ⟨hfamily, rfl⟩)⟩
    obtain ⟨e, he⟩ := herror
    rw [hbs] at he
    cases he

/-! ## One packet behind the other -/

/-- Cuts so many packets off the front, each with its length, and gives what is left. -/
def cutTimes : Nat → Bytes → Option (List (IpPacket × Nat) × Bytes)
  | 0, bs => some ([], bs)
  | count + 1, bs =>
    match cutPacket bs with
    | .packet p n => (cutTimes count (bs.drop n)).map fun (ps, rest) => ((p, n) :: ps, rest)
    | _ => none

/-- Packets one behind the other are cut off one by one, whatever is behind them. -/
theorem Packets.cutTimes_bytes {ps : Packets} (hps : Sound ps) (tail : Bytes) :
    cutTimes ps.length (bytes ps ++ tail) = some (ps.map fun x => (x.2, x.1.length), tail) := by
  induction ps with
  | nil => rfl
  | cons x ps ih =>
    have hx : IsPacket x.1 x.2 := hps x List.mem_cons_self
    have ih := ih fun y hy => hps y (List.mem_cons_of_mem x hy)
    have hbytes : bytes (x :: ps) ++ tail = x.1 ++ (bytes ps ++ tail) := by simp [bytes]
    rw [List.length_cons, hbytes, cutTimes, hx.cut]
    simp only [List.drop_left, ih, Option.map_some, List.map_cons]

/-- What `wrap` makes of a packet. -/
def IpPacket.wrapped (p : IpPacket) : Except TunnelError Bytes :=
  wrap p.source p.destination p.protocol p.payload

/-- Packets that were written, with their bytes. -/
def Packets.Wrapped (ps : Packets) : Prop :=
  ∀ x ∈ ps, x.2.wrapped = .ok x.1

instance Packets.Wrapped.decidable (ps : Packets) : Decidable ps.Wrapped :=
  inferInstanceAs (Decidable (∀ x ∈ ps, x.2.wrapped = .ok x.1))

theorem Packets.Wrapped.sound {ps : Packets} (h : ps.Wrapped) : ps.Sound :=
  fun x hx => isPacket_of_wrap (h x hx)

/-- Packets of either version are cut exactly: what `wrap` writes, one packet behind the other and
with anything behind them, is cut into these packets; each of them takes its own length, and a part
of one is incomplete. What is not written has addresses of two families or is too long for the
length field of its header. Whatever the bytes, a packet that is cut off them takes twenty of them
at least, and not more than there are. -/
theorem cut_exactly :
    (∀ ps : Packets, ps.Wrapped → ∀ tail,
      cutTimes ps.length (ps.bytes ++ tail) = some (ps.map fun x => (x.2, x.1.length), tail)) ∧
    (∀ (p : IpPacket) (bs part : Bytes), p.wrapped = .ok bs → part <+: bs → part ≠ bs →
      cutPacket part = .incomplete) ∧
    (∀ (p : IpPacket) (e : TunnelError), p.wrapped = .error e ↔
      ¬ p.source.SameFamily p.destination ∧ e = mixedFamilies ∨
        p.source.SameFamily p.destination ∧ 65535 < p.source.lengthField p.payload.length ∧
          e = p.source.tooLarge) ∧
    ∀ (bs : Bytes) (p : IpPacket) (n : Nat), cutPacket bs = .packet p n →
      20 ≤ n ∧ n ≤ bs.length := by
  refine ⟨fun ps hps => Packets.cutTimes_bytes hps.sound, ?_, fun p e => wrap_eq_error_iff,
    fun bs p n => length_of_cutPacket⟩
  intro p bs part hp hpart hne
  have hlength : part.length < bs.length :=
    lt_of_le_of_ne hpart.length_le fun h => hne (hpart.eq_of_length h)
  exact IsPacket.cut_of_prefix (isPacket_of_wrap hp) hpart hlength

/-- A packet of each version, and the first one once more. -/
def mixedStream : Packets :=
  let four : Bytes × IpPacket :=
    ([69, 0, 0, 23, 0, 0, 64, 0, 64, 6, 38, 223, 10, 0, 0, 1, 10, 0, 0, 2, 1, 2, 3],
      ⟨.v4 ⟨0x0a000001⟩, .v4 ⟨0x0a000002⟩, protocolTcp, [1, 2, 3]⟩)
  let six : Bytes × IpPacket :=
    ([96, 0, 0, 0, 0, 0, 17, 64] ++ Ipv6Address.toBytes ⟨1⟩ ++ Ipv6Address.toBytes ⟨2⟩,
      ⟨.v6 ⟨1⟩, .v6 ⟨2⟩, 17, []⟩)
  [four, six, four]

theorem cut_exactly_mixed :
    mixedStream.Wrapped ∧
    cutTimes 3 (mixedStream.bytes ++ [0x45]) =
      some (mixedStream.map fun x => (x.2, x.1.length), [0x45]) ∧
    (∀ x ∈ mixedStream, cutPacket (x.1.take 22) = .incomplete) ∧
    (∀ zeros, zeros = List.replicate 65516 (0 : UInt8) →
      (IpPacket.mk (.v4 ⟨1⟩) (.v4 ⟨2⟩) 6 zeros).wrapped =
        .error ⟨.invalidInput, "IPv4 payload too large"⟩) ∧
    cutPacket mixedStream.bytes = .packet ⟨.v4 ⟨0x0a000001⟩, .v4 ⟨0x0a000002⟩, 6, [1, 2, 3]⟩ 23 ∧
    20 ≤ 23 ∧ 23 ≤ mixedStream.bytes.length := by
  have hwrapped : mixedStream.Wrapped := by decide +kernel
  have hcut : cutPacket mixedStream.bytes =
      .packet ⟨.v4 ⟨0x0a000001⟩, .v4 ⟨0x0a000002⟩, 6, [1, 2, 3]⟩ 23 := by decide +kernel
  have hshort : ∀ x ∈ mixedStream, x.1.take 22 ≠ x.1 := by decide +kernel
  obtain ⟨hstream, hpart, herror, hbounds⟩ := cut_exactly
  refine ⟨hwrapped, hstream mixedStream hwrapped [0x45], ?_, ?_, hcut, hbounds _ _ _ hcut⟩
  · intro x hx
    exact hpart x.2 x.1 _ (hwrapped x hx) (List.take_prefix 22 x.1) (hshort x hx)
  · intro zeros hzeros
    refine (herror _ _).2 (.inr ⟨trivial, ?_, rfl⟩)
    rw [hzeros, List.length_replicate]
    decide

end Tether.Net
