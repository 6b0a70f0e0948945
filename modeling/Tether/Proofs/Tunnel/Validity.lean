import Tether.Proofs.Tunnel.Ledger

/-!
# Valid journals

Not every list of events is the journal of a stack. `Account.Allows` says which events may
follow when one looks at a single account: segments are sent in the order greeting, then
acknowledgements and pieces of what is pending, then a farewell, each with the numbers that the
account calls for; only accepted bytes are taken, in their order. A journal is *valid* when
each event is allowed by the ledger of the events before it.

* `Journal.Valid.of_suffix`: what was valid at the end was valid all the time;
* `Journal.Valid.accounts`: what fresh accounts have, and allowed events keep, all accounts of
  a valid journal have;
* `Journal.Valid.extend`: the same from some moment on.
-/

namespace Tether.Tunnel

open Net

namespace Account

/-- The number of the next byte of the host. -/
def next (a : Account) : UInt32 :=
  a.heard.sequence + UInt32.ofNat a.carried.length

/-- The next segment of the host. -/
def segment (a : Account) (control : Control) (payload : Bytes) : Segment where
  source := a.port
  destination := a.peerPort
  sequence := a.next
  acknowledgement := if control.ack then a.heard.expected else 0
  control := control
  window := Link.window
  payload := payload

/-- Whether the host has asked for the connection and not said farewell. -/
structure IsOpen (a : Account) : Prop where
  asked : a.sent ≠ []
  stays : ∀ s ∈ a.sent, s.control.fin = false

/-- Whether the device is connected, or has been and is done. -/
def IsMet (a : Account) : Prop :=
  a.heard.status = .connected ∨ a.heard.status = .ended .unexpectedEof

/-- The segments that the host may send next. -/
inductive Sends (size : Nat) (a : Account) : Segment → Prop
  | greeting (hs : a.sent = []) (ha : a.arrived = []) : Sends size a (a.segment Link.greeting [])
  | acknowledgement (ho : a.IsOpen) (hm : a.IsMet) :
    Sends size a (a.segment Link.acknowledgement [])
  | piece (ho : a.IsOpen) (hp : a.pending ≠ []) :
    Sends size a (a.segment Link.carrying (a.pending.take size))
  | farewell (ho : a.IsOpen) (hm : a.IsMet) (hp : a.pending = []) :
    Sends size a (a.segment Link.farewell [])

theorem Sends.acknowledgement_eq {size : Nat} {a : Account} {x : Segment} (h : a.Sends size x)
    (hx : x.control.ack = true) : x.acknowledgement = a.heard.expected := by
  cases h <;> first | rfl | cases hx

theorem Sends.payload_eq {size : Nat} {a : Account} {x : Segment} (h : a.Sends size x)
    (hx : x.payload ≠ []) : x.payload = a.pending.take size := by
  cases h <;> first | rfl | exact absurd rfl hx

/-- The events that may come next for an account that is neither begun nor forgotten by them. -/
def Allows (size : Nat) (a : Account) : Event → Prop
  | .arrived s => s.source = a.peerPort ∧ a.IsOpen
  | .queued _ _ => a.heard.status = .connected ∧ a.IsOpen
  | .taken _ bytes => a.taken ++ bytes = a.accepted
  | .sent s | .lost s => a.Sends size s
  | .opened .. | .forgotten _ => False

end Account

/-- The events that may come next. A connection is not forgotten before the host has tried to
ask for it. -/
def Ledger.Allows (size : Nat) (l : Ledger) : Event → Prop
  | .opened port _ _ => l.holder port = none ∧ 49152 ≤ port.toNat
  | .forgotten port => ∀ a, l.at? port = some a → a.sent ≠ [] ∨ a.lost ≠ []
  | e => ∃ a, l.at? e.port = some a ∧ a.Allows size e

/-- Whether each event was allowed when it came; `size` is the most bytes of a segment. -/
def Journal.Valid (size : Nat) : Journal → Prop
  | [] => True
  | e :: j => (Ledger.ofJournal j).Allows size e ∧ Valid size j

variable {size : Nat} {l : Ledger} {e : Event} {j : Journal} {a : Account}

theorem Ledger.allows_iff (h : e.isTurn = false) :
    l.Allows size e ↔ ∃ a, l.at? e.port = some a ∧ a.Allows size e := by
  cases e <;> first | exact Iff.rfl | cases h

namespace Journal.Valid

theorem of_suffix {i : Journal} (h : Journal.Valid size j) (hi : i <:+ j) :
    Journal.Valid size i := by
  induction j with
  | nil => rwa [List.suffix_nil.1 hi]
  | cons e j ih =>
    rcases List.suffix_cons_iff.1 hi with rfl | hi
    · exact h
    · exact ih h.2 hi

/-- An account that is not held any more has asked for its connection, or tried to. -/
theorem asked (h : Journal.Valid size j) {n : Nat} (ha : (Ledger.ofJournal j).accounts[n]? = some a) :
    (Ledger.ofJournal j).holder a.port = some n ∨ a.sent ≠ [] ∨ a.lost ≠ [] := by
  induction j generalizing a with
  | nil => cases ha
  | cons e j ih =>
    obtain ⟨he, hj⟩ := h
    rw [Ledger.ofJournal] at ha ⊢
    cases hturn : e.isTurn with
    | false =>
      rw [Ledger.note_eq_change hturn] at ha ⊢
      rw [Ledger.holder_change]
      rw [Ledger.getElem?_change] at ha
      split at ha
      · next hn =>
        obtain ⟨b, hb, rfl⟩ := Option.map_eq_some_iff.1 ha
        left
        rcases Ledger.sound_ofJournal j _ _ hn with ⟨c, hc, hp⟩
        obtain rfl := Option.some.inj (hb.symm.trans hc)
        rwa [Account.port_note, hp]
      · exact ih hj ha
    | true =>
      cases e with
      | opened port peerPort first =>
        by_cases hn : n < (Ledger.ofJournal j).accounts.length
        · rw [Ledger.note, List.getElem?_append_left hn] at ha
          refine (ih hj ha).imp_left fun hold => ?_
          have hne : a.port ≠ port := by
            rintro rfl
            rw [he.1] at hold
            cases hold
          rw [Ledger.holder_note_of_ne (Ne.symm hne)]
          exact hold
        · rw [Ledger.note, List.getElem?_append_right (Nat.le_of_not_lt hn)] at ha
          have hz : n - (Ledger.ofJournal j).accounts.length = 0 := by
            have := (List.getElem?_eq_some_iff.1 ha).1
            rw [List.length_singleton] at this
            omega
          rw [hz] at ha
          obtain rfl := Option.some.inj ha
          left
          rw [Ledger.note]
          dsimp only
          rw [if_pos rfl]
          congr 1
          omega
      | forgotten port =>
        rcases ih hj ha with hold | hasked
        · by_cases hp : a.port = port
          · refine .inr (he a (Ledger.at?_eq_some_iff.2 ⟨n, hp ▸ hold, ha⟩))
          · exact .inl ((Ledger.holder_note_of_ne (Ne.symm hp)).trans hold)
        · exact .inr hasked
      | _ => cases hturn

/-- Induction over the life of an account, from some moment on. -/
theorem extend {Q : Account → Prop} {es : Journal} {n : Nat} (h : Journal.Valid size (es ++ j))
    (fresh : (Ledger.ofJournal j).accounts[n]? = none →
      ∀ port peerPort first, 49152 ≤ port.toNat → Q { port, peerPort, first })
    (note : ∀ a, ∀ e ∈ es, Q a → a.Allows size e → Q (a.note e))
    (hj : ∀ a, (Ledger.ofJournal j).accounts[n]? = some a → Q a)
    (ha : (Ledger.ofJournal (es ++ j)).accounts[n]? = some a) : Q a := by
  induction es generalizing a with
  | nil => exact hj a ha
  | cons e es ih =>
    obtain ⟨he, hes⟩ := h
    have ih {b : Account} := @ih b hes fun b e' he' => note b e' (List.mem_cons_of_mem _ he')
    cases hturn : e.isTurn with
    | false =>
      rw [List.cons_append, Ledger.ofJournal, Ledger.note_eq_change hturn,
        Ledger.getElem?_change] at ha
      split at ha
      · next hn =>
        obtain ⟨b, hb, rfl⟩ := Option.map_eq_some_iff.1 ha
        obtain ⟨c, hc, hallow⟩ := (Ledger.allows_iff hturn).1 he
        obtain rfl : b = c :=
          Option.some.inj ((Ledger.at?_eq_some_iff.2 ⟨n, hn, hb⟩).symm.trans hc)
        exact note b e List.mem_cons_self (ih hb) hallow
      · exact ih ha
    | true =>
      cases e with
      | opened port peerPort first =>
        by_cases hn : n < (Ledger.ofJournal (es ++ j)).accounts.length
        · exact ih ((List.getElem?_append_left hn).symm.trans ha)
        · rw [List.mem_singleton.1 (List.mem_of_getElem?
            ((List.getElem?_append_right (Nat.le_of_not_lt hn)).symm.trans ha))]
          refine fresh (Option.eq_none_iff_forall_not_mem.2 fun b hb => hn ?_) port peerPort first he.2
          obtain ⟨c, hc, -⟩ := Ledger.exists_precedes hb es
          exact (List.getElem?_eq_some_iff.1 hc).1
      | forgotten port => exact ih ha
      | _ => cases hturn

/-- Induction over the life of an account. -/
theorem accounts {Q : Account → Prop} (h : Journal.Valid size j)
    (fresh : ∀ port peerPort first, 49152 ≤ port.toNat → Q { port, peerPort, first })
    (note : ∀ a, ∀ e ∈ j, Q a → a.Allows size e → Q (a.note e)) :
    ∀ a ∈ (Ledger.ofJournal j).accounts, Q a := by
  intro a ha
  obtain ⟨n, hn⟩ := List.mem_iff_getElem?.1 ha
  rw [← List.append_nil j] at h hn
  exact h.extend (fun _ => fresh) note (fun _ hb => by cases hb) hn

end Journal.Valid

end Tether.Tunnel
