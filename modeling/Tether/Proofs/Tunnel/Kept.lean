import Tether.Proofs.Tunnel.Growth
import Tether.Proofs.Tunnel.Hearing
import Tether.Proofs.Tunnel.Validity

/-!
# Stacks keep their journals

A stack works on its table, and the ledger is worked out from its journal. Both say the same: a
port that is in use has an account that tells its link (`Account.Tells`), and other ports have
none. This makes the ledger a specification of the stack, and `Kept` the simulation between the
two.

* `Account.Tells.arrived`, `Account.Tells.piece`, ...: an event and what it does to the link;
* `KeptBut.note`: an event concerns one port, and all others stay in agreement.
-/

namespace Tether.Tunnel

open Net Call

namespace Event

/-- Traffic takes no bytes. -/
theorem isTaken_of_isTraffic {e : Event} (h : e.isTraffic = true) : e.isTaken = false := by
  cases e <;> first | rfl | cases h

/-- Traffic neither begins nor ends an account. -/
theorem isTurn_of_isTraffic {e : Event} (h : e.isTraffic = true) : e.isTurn = false := by
  cases e <;> first | rfl | cases h

end Event

/-! ## Accounts and links -/

/-- An account tells all there is to a link. -/
structure Account.Tells (a : Account) (l : Link) : Prop where
  peerPort : l.peerPort = a.peerPort
  status : l.status = a.heard.status
  expected : l.expected = a.heard.expected
  received : a.taken ++ l.received = a.accepted
  queued : l.queued = a.pending
  sequence : l.sequence = a.next
  isOpen : a.IsOpen

namespace Account

variable {a : Account} {l : Link} {x : Segment} {size : Nat}

theorem IsOpen.sent (h : a.IsOpen) (hx : x.control.fin = false) : (a.note (.sent x)).IsOpen where
  asked := by simp [note]
  stays y hy := by
    rcases List.mem_append.1 hy with hy | hy
    · exact h.stays y hy
    · rwa [List.mem_singleton.1 hy]

theorem next_note_sent (a : Account) (x : Segment) :
    (a.note (.sent x)).next = a.next + UInt32.ofNat x.payload.length := by
  have hh : (a.note (.sent x)).heard = a.heard := rfl
  rw [next, next, carried_note_sent, hh, List.length_append, UInt32.ofNat_add, UInt32.add_assoc]

namespace Tells

theorem segment_eq (h : a.Tells l) (control : Control) (payload : Bytes) :
    l.segment a.port control payload = a.segment control payload := by
  rw [Link.segment, Account.segment, h.peerPort, h.sequence, h.expected]

theorem isMet (h : a.Tells l)
    (hl : l.status = .connected ∨ l.status = .ended .unexpectedEof) : a.IsMet := by
  rwa [h.status] at hl

theorem arrived (h : a.Tells l) (x : Segment) : (a.note (.arrived x)).Tells (l.accept x).1 where
  peerPort := by rw [Link.peerPort_accept, h.peerPort, peerPort_note]
  status := by rw [heard_note_arrived]; exact Link.status_accept_congr h.status h.expected
  expected := by rw [heard_note_arrived]; exact Link.expected_accept_congr h.status h.expected
  received := by
    have ht : (a.note (.arrived x)).taken = a.taken := rfl
    rw [accepted, heard_note_arrived, Link.received_accept, Link.received_accept, ht,
      ← List.append_assoc, h.received, Link.gain_congr h.status h.expected, accepted]
  queued := by rw [Link.queued_accept]; exact h.queued
  sequence := by
    have hc : (a.note (.arrived x)).carried = a.carried := rfl
    rw [next, heard_note_arrived, hc, Link.sequence_accept, Link.sequence_accept, h.sequence, next,
      Link.meets_congr h.status]
    ac_rfl
  isOpen := ⟨h.isOpen.asked, h.isOpen.stays⟩

theorem queue (h : a.Tells l) (port : UInt16) (bytes : Bytes) :
    (a.note (.queued port bytes)).Tells { l with queued := l.queued ++ bytes } where
  peerPort := h.peerPort
  status := h.status
  expected := h.expected
  received := h.received
  queued := by rw [h.queued]; rfl
  sequence := h.sequence
  isOpen := ⟨h.isOpen.asked, h.isOpen.stays⟩

theorem take (h : a.Tells l) (port : UInt16) :
    (a.note (.taken port l.received)).Tells { l with received := [] } where
  peerPort := h.peerPort
  status := h.status
  expected := h.expected
  received := by rw [List.append_nil]; exact h.received
  queued := h.queued
  sequence := h.sequence
  isOpen := ⟨h.isOpen.asked, h.isOpen.stays⟩

/-- A segment without bytes changes nothing. -/
theorem sent (h : a.Tells l) (hx : x.payload = []) (hf : x.control.fin = false) :
    (a.note (.sent x)).Tells l where
  peerPort := h.peerPort
  status := h.status
  expected := h.expected
  received := h.received
  queued := by rw [h.queued, note, hx]; rfl
  sequence := by rw [next_note_sent, hx, h.sequence]; simp
  isOpen := h.isOpen.sent hf

theorem lost (h : a.Tells l) (hx : x.payload = []) : (a.note (.lost x)).Tells l where
  peerPort := h.peerPort
  status := h.status
  expected := h.expected
  received := h.received
  queued := by rw [h.queued, note, hx]; rfl
  sequence := h.sequence
  isOpen := ⟨h.isOpen.asked, h.isOpen.stays⟩

/-- A piece of what is queued was sent. -/
theorem piece {bytes rest : Bytes} (h : a.Tells { l with queued := bytes ++ rest })
    (hx : x.payload = bytes) (hf : x.control.fin = false) :
    (a.note (.sent x)).Tells { l.advance bytes.length with queued := rest } where
  peerPort := h.peerPort
  status := h.status
  expected := h.expected
  received := h.received
  queued := by
    rw [note, hx, ← h.queued]
    exact List.drop_left.symm
  sequence := by
    rw [next_note_sent, hx, ← h.sequence]
    rfl
  isOpen := h.isOpen.sent hf

/-- When a piece is lost, what is queued is gone with it. -/
theorem breaks {bytes : Bytes} (h : a.Tells { l with queued := bytes }) (hx : x.payload ≠ [])
    (hl : l.queued = []) : (a.note (.lost x)).Tells l where
  peerPort := h.peerPort
  status := h.status
  expected := h.expected
  received := h.received
  queued := by
    rw [hl, note, if_neg (by simpa using hx)]
  sequence := h.sequence
  isOpen := ⟨h.isOpen.asked, h.isOpen.stays⟩

end Tells

end Account

/-! ## Stacks and journals -/

namespace Table

variable {t : Table} {p q : UInt16} {l : Link}

theorem ports_cons (entry : UInt16 × Link) (t : Table) :
    ports (entry :: t) = entry.1 :: t.ports :=
  rfl

theorem mem_ports_iff : p ∈ t.ports ↔ t.get? p ≠ none := by
  simp [ports, get?, List.find?_eq_none]

@[simp] theorem ports_update (t : Table) (port : UInt16) (link : Link) :
    (t.update port link).ports = t.ports := by
  induction t with
  | nil => rfl
  | cons entry t ih =>
    rw [ports, update, List.map_cons, List.map_cons]
    by_cases h : entry.1 = port
    · rw [if_pos h, ports, List.map_cons]
      exact congrArg₂ List.cons h.symm ih
    · rw [if_neg h, ports, List.map_cons]
      exact congrArg _ ih

theorem get?_update_self {l' : Link} (h : t.get? p = some l') :
    (t.update p l).get? p = some l := by
  rw [get?_update, if_pos rfl, h]
  rfl

theorem get?_insert_of_ne (h : q ≠ p) : (t.insert p l).get? q = t.get? q := by
  simp [get?, insert, Ne.symm h]

theorem get?_update_of_ne (h : q ≠ p) : (t.update p l).get? q = t.get? q := by
  rw [get?_update, if_neg h]

theorem get?_erase_of_ne (h : q ≠ p) : (t.erase p).get? q = t.get? q := by
  rw [get?_erase, if_neg h]

theorem nodup_insert (h : t.ports.Nodup) (hp : t.get? p = none) :
    (t.insert p l).ports.Nodup := by
  have hn : p ∉ t.ports := fun hm => mem_ports_iff.1 hm hp
  rw [insert, ports, List.map_append, List.nodup_append]
  refine ⟨h, List.pairwise_singleton _ _, fun q hq r hr => ?_⟩
  rintro rfl
  obtain rfl : q = p := by simpa using hr
  exact hn hq

theorem nodup_erase (h : t.ports.Nodup) : (t.erase p).ports.Nodup :=
  h.sublist (List.filter_sublist.map _)

theorem mem_of_get? (h : t.get? p = some l) : (p, l) ∈ t := by
  obtain ⟨⟨q, l'⟩, hf, rfl⟩ := Option.map_eq_some_iff.1 h
  obtain rfl : q = p := by simpa using List.find?_some hf
  exact List.mem_of_find?_eq_some hf

theorem get?_of_mem (h : t.ports.Nodup) (hm : (p, l) ∈ t) : t.get? p = some l := by
  induction t with
  | nil => exact absurd hm List.not_mem_nil
  | cons entry t ih =>
    rw [ports, List.map_cons, List.nodup_cons] at h
    rcases List.mem_cons.1 hm with rfl | hm
    · simp [get?]
    · have hne : entry.1 ≠ p := by
        rintro rfl
        exact h.1 (List.mem_map.2 ⟨(entry.1, l), hm, rfl⟩)
      have := ih h.2 hm
      simpa [get?, hne] using this

end Table

namespace Stack

/-- The ledger of a stack's journal. -/
def ledger (s : Stack) : Ledger :=
  Ledger.ofJournal s.journal

/-- The table and the ledger say the same about a port. -/
def AgreesAt (s : Stack) (p : UInt16) : Prop :=
  Option.Rel (fun l a => Account.Tells a l) (s.links.get? p) (s.ledger.at? p)

/-- The journal is valid, and the table and the ledger say the same, about one port excepted. -/
structure KeptBut (p : UInt16) (s : Stack) : Prop where
  valid : s.journal.Valid s.segmentSize
  sized : 0 < s.segmentSize
  nodup : s.links.ports.Nodup
  agrees : ∀ q, q ≠ p → s.AgreesAt q

/-- The journal is valid, and the table and the ledger say the same. -/
structure Kept (s : Stack) : Prop where
  valid : s.journal.Valid s.segmentSize
  sized : 0 < s.segmentSize
  nodup : s.links.ports.Nodup
  agrees : ∀ q, s.AgreesAt q

variable {s t : Stack} {p port : UInt16} {l : Link} {a : Account} {e : Event}

theorem Kept.but (h : s.Kept) (p : UInt16) : s.KeptBut p :=
  ⟨h.valid, h.sized, h.nodup, fun q _ => h.agrees q⟩

theorem KeptBut.kept (h : s.KeptBut p) (hp : s.AgreesAt p) : s.Kept := by
  refine ⟨h.valid, h.sized, h.nodup, fun q => ?_⟩
  by_cases hq : q = p
  · exact hq ▸ hp
  · exact h.agrees q hq

theorem Kept.exists_account (h : s.Kept) (hl : s.links.get? p = some l) :
    ∃ a, s.ledger.at? p = some a ∧ a.Tells l := by
  have hp := h.agrees p
  rw [AgreesAt, hl] at hp
  cases ha : s.ledger.at? p with
  | none => rw [ha] at hp; cases hp
  | some a =>
    rw [ha] at hp
    cases hp with
    | some hp => exact ⟨a, rfl, hp⟩

theorem Kept.exists_link (h : s.Kept) (ha : s.ledger.at? p = some a) :
    ∃ l, s.links.get? p = some l ∧ a.Tells l := by
  have hp := h.agrees p
  rw [AgreesAt, ha] at hp
  cases hl : s.links.get? p with
  | none => rw [hl] at hp; cases hp
  | some l =>
    rw [hl] at hp
    cases hp with
    | some hp => exact ⟨l, rfl, hp⟩

/-- The table has a link where the ledger has an account. -/
theorem Kept.get?_eq_none_iff (h : s.Kept) : s.links.get? p = none ↔ s.ledger.at? p = none := by
  constructor <;> intro hn
  · refine Option.eq_none_iff_forall_not_mem.2 fun a ha => ?_
    obtain ⟨l, hl, -⟩ := h.exists_link ha
    rw [hn] at hl
    cases hl
  · refine Option.eq_none_iff_forall_not_mem.2 fun l hl => ?_
    obtain ⟨a, ha, -⟩ := h.exists_account hl
    rw [hn] at ha
    cases ha

theorem port_of_at? (h : s.ledger.at? p = some a) : a.port = p := by
  obtain ⟨n, hn, ha⟩ := Ledger.at?_eq_some_iff.1 h
  obtain ⟨b, hb, hp⟩ := Ledger.sound_ofJournal s.journal p n hn
  rw [ledger, hb] at ha
  rwa [← Option.some.inj ha]

theorem agreesAt_of_tells (hl : s.links.get? p = some l) (ha : s.ledger.at? p = some a)
    (h : a.Tells l) : s.AgreesAt p := by
  rw [AgreesAt, hl, ha]
  exact .some h

/-- Only the table and the journal matter. -/
theorem Kept.of_eq (h : s.Kept) (hl : t.links = s.links) (hj : t.journal = s.journal)
    (hs : t.segmentSize = s.segmentSize) : t.Kept := by
  refine ⟨by rw [hj, hs]; exact h.valid, hs ▸ h.sized, hl ▸ h.nodup, fun q => ?_⟩
  rw [AgreesAt, hl, ledger, hj]
  exact h.agrees q

/-- An event and a change of the table at its port leave all other ports in agreement. -/
theorem KeptBut.note (h : s.KeptBut e.port) (hj : t.journal = e :: s.journal)
    (hs : t.segmentSize = s.segmentSize) (ha : s.ledger.Allows s.segmentSize e)
    (hn : t.links.ports.Nodup) (hl : ∀ q, q ≠ e.port → t.links.get? q = s.links.get? q) :
    t.KeptBut e.port := by
  refine ⟨?_, hs ▸ h.sized, hn, fun q hq => ?_⟩
  · rw [hj, hs]
    exact ⟨ha, h.valid⟩
  · rw [AgreesAt, hl q hq, ledger, hj, Ledger.ofJournal,
      Ledger.at?_note_of_ne (Ledger.sound_ofJournal _) (Ne.symm hq)]
    exact h.agrees q hq

theorem at?_of_journal (hj : t.journal = e :: s.journal) (he : e.isTurn = false)
    (ha : s.ledger.at? e.port = some a) : t.ledger.at? e.port = some (a.note e) := by
  rw [ledger, hj, Ledger.ofJournal, Ledger.at?_note he]
  exact congrArg _ ha

/-- The call takes a stack that is kept to one that is kept, however it ends. -/
abbrev Keeps (s t : Stack) : Prop :=
  s.Kept → t.Kept

instance : IsPreorder Stack Keeps where
  refl _ := id
  trans _ _ _ h h' := h' ∘ h

end Stack

end Tether.Tunnel
