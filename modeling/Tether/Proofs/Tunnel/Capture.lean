import Tether.Proofs.Tunnel.Passing
import Tether.Proofs.Tunnel.Sending

/-!
# What a capture tells

The file of a capture is a header and one record for each packet. The two lengths in a record are
those of its packet, so that the records can be told apart, and nothing is left behind the last one.
What is recorded is what passes through the tunnel: each packet cut out of what the device sends,
and each that the host hands to the tunnel, which is recorded before the tunnel has taken any of it.

* `Capture.IsFile`: the format, and `Capture.IsFile.read`: any such file reads back as its packets;
* `captures_passages`: the file of a capture holds just the packets that have passed since its
  start.
-/

namespace Tether.Tunnel

open Net Call

/-! ## Files -/

namespace Capture

/-- The record of a packet: sixteen bytes, of which the last eight are its length twice, and the
packet. -/
structure IsRecord (bs packet : Bytes) : Prop where
  le_length : 16 ≤ bs.length
  captured : Bytes.toNatLE ((bs.drop 8).take 4) = packet.length
  original : Bytes.toNatLE ((bs.drop 12).take 4) = packet.length
  packet : bs.drop 16 = packet

/-- A file of some packets: the header, which has 24 bytes, and a record for each, in order. -/
def IsFile (bs : Bytes) (packets : List Bytes) : Prop :=
  bs.take 24 = header ∧
    ∃ records, bs.drop 24 = records.flatten ∧ List.Forall₂ IsRecord records packets

variable {bs rest packet : Bytes} {packets : List Bytes}

/-- A record at the front is read, and what is behind it is left. -/
theorem IsRecord.read (h : IsRecord bs packet) (rest : Bytes) :
    ∃ r, Record.ofBytes? (bs ++ rest) = some (r, rest) ∧ r.packet = packet := by
  obtain ⟨hle, hcaptured, horiginal, rfl⟩ := h
  have hword (i : Nat) (hi : i ≤ 12) :
      ((bs ++ rest).drop i).take 4 = (bs.drop i).take 4 := by
    rw [List.drop_append_of_le_length (by omega),
      List.take_append_of_le_length (by rw [List.length_drop]; omega)]
  have hrest : (bs ++ rest).drop 16 = bs.drop 16 ++ rest := List.drop_append_of_le_length hle
  have hcheck : ¬ ((bs ++ rest).length < 16 ∨ (bs.drop 16).length ≠ (bs.drop 16).length ∨
      (bs.drop 16 ++ rest).length < (bs.drop 16).length) := by
    simp only [List.length_append]
    omega
  simp only [Record.ofBytes?, hrest, hword (4 * 2) (by decide), hword (4 * 3) (by decide),
    hcaptured, horiginal]
  rw [if_neg hcheck, List.take_left, List.drop_left]
  exact ⟨_, rfl, rfl⟩

theorem read_records {records : List Bytes} (h : List.Forall₂ IsRecord records packets)
    {fuel : Nat} (hfuel : records.flatten.length ≤ fuel) :
    (recordsOf? fuel records.flatten).map (·.map Record.packet) = some packets := by
  induction h generalizing fuel with
  | nil => cases fuel <;> rfl
  | @cons bs packet records packets hrecord _ ih =>
    rw [List.flatten_cons, List.length_append] at hfuel
    have hle := hrecord.le_length
    obtain ⟨fuel, rfl⟩ : ∃ n, fuel = n + 1 := ⟨fuel - 1, by omega⟩
    obtain ⟨r, hread, hpacket⟩ := hrecord.read records.flatten
    have hless : records.flatten.length ≤ fuel := by omega
    obtain ⟨c, hc, hpackets⟩ := Option.map_eq_some_iff.1 (ih hless)
    have hne : bs ++ records.flatten ≠ [] := List.ne_nil_of_length_pos (by simp; omega)
    rw [List.flatten_cons, recordsOf?.eq_3 _ _ hne, hread]
    simp [hc, hpacket, hpackets]

/-- A file reads back, up to its end. -/
theorem IsFile.read (h : IsFile bs packets) :
    (ofBytes? bs).map (·.map Record.packet) = some packets := by
  obtain ⟨hheader, records, hrecords, hpackets⟩ := h
  rw [ofBytes?, if_pos hheader, hrecords]
  refine read_records hpackets ?_
  rw [← hrecords, List.length_drop]
  omega

theorem Record.isRecord (r : Record) (h : r.packet.length < 2 ^ 32) :
    IsRecord r.toBytes r.packet := by
  have hlength : Bytes.toNatLE (Bytes.ofNatLE 4 r.packet.length) = r.packet.length := by
    rw [Bytes.toNatLE_ofNatLE, Nat.mod_eq_of_lt h]
  have h4 (n : Nat) : (Bytes.ofNatLE 4 n).length = 4 := Bytes.length_ofNatLE 4 n
  generalize hstamp : Bytes.ofNatLE 4 (r.time.toNat / 1000000) ++
    Bytes.ofNatLE 4 (r.time.toNat % 1000000) = stamp
  have h8 : stamp.length = 8 := by rw [← hstamp, List.length_append, h4, h4]
  have hbytes : r.toBytes = stamp ++
      (Bytes.ofNatLE 4 r.packet.length ++ (Bytes.ofNatLE 4 r.packet.length ++ r.packet)) := by
    rw [← hstamp, toBytes]
    simp only [List.append_assoc]
  have hdrop : r.toBytes.drop 12 = Bytes.ofNatLE 4 r.packet.length ++ r.packet := by
    rw [hbytes, ← List.append_assoc, List.drop_left' (by rw [List.length_append, h8, h4])]
  refine ⟨?_, ?_, ?_, ?_⟩
  · rw [hbytes]
    simp only [List.length_append, h8, h4]
    omega
  · rw [hbytes, List.drop_left' h8, List.take_left' (h4 _), hlength]
  · rw [hdrop, List.take_left' (h4 _), hlength]
  · rw [show 16 = 12 + 4 from rfl, ← List.drop_drop, hdrop, List.drop_left' (h4 _)]

/-- The file of a capture holds its packets. -/
theorem isFile_toBytes {c : Capture} (h : ∀ r ∈ c, r.packet.length < 2 ^ 32) :
    IsFile c.toBytes (c.map Record.packet) := by
  have hlength : header.length = 24 := rfl
  refine ⟨?_, c.map Record.toBytes, ?_, ?_⟩
  · rw [toBytes, ← hlength, List.take_left]
  · rw [toBytes, ← hlength, List.drop_left, List.flatMap_def]
  · rw [List.forall₂_map_left_iff, List.forall₂_map_right_iff, List.forall₂_same]
    exact fun r hr => r.isRecord (h r hr)

end Capture

/-! ## Captures of a tunnel -/

namespace Stack

/-- The file of a capture holds just the packets that have passed since its start, in that order. Of
those of the host the tunnel has what it took. -/
theorem captures_passages {s : Stack} {acts : List Act}
    (hacts : ∀ act ∈ acts, act ≠ .startCapture (.ok ())) :
    let started := (Act.startCapture (.ok ())).call.state s
    ∃ ps c, Passes started acts ps ∧ (play acts started).capture = some c ∧
      c.map Capture.Record.packet = ps.map Passage.packet ∧
      Capture.IsFile c.toBytes (ps.map Passage.packet) ∧
      (Capture.ofBytes? c.toBytes).map (·.map Capture.Record.packet) =
        some (ps.map Passage.packet) ∧
      (play acts started).transport.written =
        s.transport.written ++ ps.flatMap Passage.taken := by
  intro started
  obtain ⟨ps, hpasses, hnotes⟩ := exists_passes acts started
  have hshows := hpasses.shows
  have hrecorded : (play acts started).recorded = some (ps.map Passage.packet) := hnotes hacts
  obtain ⟨c, hc, hpackets⟩ := Option.map_eq_some_iff.1 hrecorded
  have hlength (r : Capture.Record) (hr : r ∈ c) : r.packet.length < 2 ^ 32 := by
    have hmem := List.mem_map_of_mem (f := Capture.Record.packet) hr
    rw [hpackets] at hmem
    obtain ⟨a, ha, hpacket⟩ := List.mem_map.1 hmem
    obtain ⟨p, hp⟩ := hshows.isPacket a ha
    rw [← hpacket]
    exact hp.length_lt.trans (by decide)
  have hfile := Capture.isFile_toBytes hlength
  rw [hpackets] at hfile
  exact ⟨ps, c, hpasses, hc, hpackets, hfile, hfile.read, hshows.written⟩

/-- A capture is started before a connection is made through a tunnel that takes one packet and no
more. -/
def refusing : List Act :=
  [.world (Ends.sample.packet acceptance) .silent (some (40, .brokenPipe)), .connect 80 [0] 0]

theorem captures_passages_refusing :
    (∀ act ∈ refusing, act ≠ .startCapture (.ok ())) ∧
      ∃ ps c, Passes ((Act.startCapture (.ok ())).call.state (ofEnds Ends.sample)) refusing ps ∧
        (play refusing ((Act.startCapture (.ok ())).call.state (ofEnds Ends.sample))).capture =
          some c ∧
        Capture.IsFile c.toBytes (ps.map Passage.packet) ∧ ps.length = 3 := by
  have hacts : ∀ act ∈ refusing, act ≠ .startCapture (.ok ()) := by
    simp [refusing]
  have hthree : (play refusing
      ((Act.startCapture (.ok ())).call.state (ofEnds Ends.sample))).capture.map List.length =
      some 3 := by
    cbv
  obtain ⟨ps, c, hpasses, hc, hpackets, hfile, -, -⟩ :=
    captures_passages (s := ofEnds Ends.sample) hacts
  refine ⟨hacts, ps, c, hpasses, hc, hfile, ?_⟩
  rw [hc] at hthree
  rw [← List.length_map Passage.packet, ← hpackets, List.length_map]
  exact Option.some.inj hthree

/-- What is recorded need have passed into neither direction: the tunnel takes none of the last
packet of the host. -/
theorem records_refused :
    ∃ syn ack : Bytes,
      (play (.startCapture (.ok ()) :: refusing) (ofEnds Ends.sample)).recorded =
        some [syn, Ends.sample.packet acceptance, ack] ∧
      (play (.startCapture (.ok ()) :: refusing) (ofEnds Ends.sample)).transport.written = [syn] ∧
      ack ≠ syn ∧ ¬ ack <:+: Ends.sample.packet acceptance := by
  let syn : Bytes :=
    [0x45, 0, 0, 40, 0, 0, 0x40, 0, 64, 6, 38, 206, 10, 0, 0, 1, 10, 0, 0, 2, 192, 0, 0, 80, 0, 0,
      0, 0, 0, 0, 0, 0, 0x50, 2, 255, 255, 219, 143, 0, 0]
  let ack : Bytes :=
    [0x45, 0, 0, 40, 0, 0, 0x40, 0, 64, 6, 38, 206, 10, 0, 0, 1, 10, 0, 0, 2, 192, 0, 0, 80, 0, 0,
      0, 1, 0, 0, 0, 1, 0x50, 16, 255, 255, 219, 127, 0, 0]
  exact ⟨syn, ack, by cbv, by cbv, by decide, by decide +kernel⟩

end Stack

end Tether.Tunnel
