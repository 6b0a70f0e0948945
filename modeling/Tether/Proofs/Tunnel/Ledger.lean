import Mathlib
import Tether.Tunnel.Journal

/-!
# The ledger of a journal

A journal tells, event by event, what happened to all connections of a stack. The *ledger*
sorts this by connection: it has an *account* for each connection that was ever begun, in the
order in which they were begun, and says which account a host port stands for at present. A
port may stand for one account after another, but an account belongs to one port.

* `Account.heard`: what an account's link has made of the segments that came, had nothing been
  taken from it;
* `Ledger.sound_ofJournal`: a port stands for an account of its own;
* `Ledger.at?_note`, `Ledger.getElem?_note_of_ne`: an event reaches the account of its port, and
  no other.
-/

namespace Tether.Tunnel

open Net

namespace Event

/-- Whether an event takes received bytes. -/
def isTaken : Event → Bool
  | taken .. => true
  | _ => false

/-- Whether an event begins or ends an account. -/
def isTurn : Event → Bool
  | opened .. | forgotten _ => true
  | _ => false

end Event

/-! ## Accounts -/

/-- The link after some segments have come for it. -/
def Link.hear (l : Link) (segments : List Segment) : Link :=
  segments.foldl (fun l s => (l.accept s).1) l

@[simp] theorem Link.hear_nil (l : Link) : l.hear [] = l :=
  rfl

@[simp] theorem Link.hear_append (l : Link) (ss : List Segment) (s : Segment) :
    l.hear (ss ++ [s]) = ((l.hear ss).accept s).1 := by
  rw [hear, List.foldl_append]
  rfl

/-- What happened to one connection. -/
structure Account where
  port : UInt16
  peerPort : UInt16
  /-- The number that the host began with. -/
  first : UInt32
  /-- The segments that came. -/
  arrived : List Segment := []
  /-- All bytes that were queued. -/
  queued : Bytes := []
  /-- Those of the queued bytes that are still to be sent. -/
  pending : Bytes := []
  /-- All bytes that were taken. -/
  taken : Bytes := []
  /-- The segments that went into the tunnel. -/
  sent : List Segment := []
  /-- The segments that did not, or not as a whole. -/
  lost : List Segment := []
  deriving DecidableEq, Repr

namespace Account

/-- The link that the connection began with. -/
def fresh (a : Account) : Link :=
  { peerPort := a.peerPort, sequence := a.first }

/-- The link after all that has come, with nothing taken and nothing sent. -/
def heard (a : Account) : Link :=
  a.fresh.hear a.arrived

/-- The bytes of the device that were accepted, in order. -/
def accepted (a : Account) : Bytes :=
  a.heard.received

/-- The accepted bytes that were not taken. -/
def unread (a : Account) : Bytes :=
  a.accepted.drop a.taken.length

/-- The bytes of the host that were sent, in order. -/
def carried (a : Account) : Bytes :=
  a.sent.flatMap Segment.payload

/-- Enters an event. What is queued is gone when bytes are lost on their way. -/
def note (a : Account) : Event → Account
  | .arrived segment => { a with arrived := a.arrived ++ [segment] }
  | .queued _ bytes => { a with queued := a.queued ++ bytes, pending := a.pending ++ bytes }
  | .taken _ bytes => { a with taken := a.taken ++ bytes }
  | .sent segment =>
    { a with sent := a.sent ++ [segment], pending := a.pending.drop segment.payload.length }
  | .lost segment =>
    { a with
      lost := a.lost ++ [segment]
      pending := if segment.payload.isEmpty then a.pending else [] }
  | _ => a

@[simp] theorem port_note (a : Account) (e : Event) : (a.note e).port = a.port := by
  cases e <;> rfl

@[simp] theorem peerPort_note (a : Account) (e : Event) : (a.note e).peerPort = a.peerPort := by
  cases e <;> rfl

@[simp] theorem first_note (a : Account) (e : Event) : (a.note e).first = a.first := by
  cases e <;> rfl

@[simp] theorem heard_note_arrived (a : Account) (s : Segment) :
    (a.note (.arrived s)).heard = (a.heard.accept s).1 :=
  Link.hear_append _ _ _

@[simp] theorem carried_note_sent (a : Account) (s : Segment) :
    (a.note (.sent s)).carried = a.carried ++ s.payload := by
  simp [note, carried]

/-- An account at some moment, and at a later one: bytes are taken one after another, and what
is over is over. -/
structure Precedes (a b : Account) : Prop where
  port : b.port = a.port
  taken : a.taken <+: b.taken
  ended : ∀ fault, a.heard.status = .ended fault → b.heard = a.heard

theorem Precedes.refl (a : Account) : a.Precedes a :=
  ⟨rfl, List.prefix_rfl, fun _ _ => rfl⟩

theorem Precedes.trans {a b c : Account} (h : a.Precedes b) (h' : b.Precedes c) : a.Precedes c where
  port := h'.port.trans h.port
  taken := h.taken.trans h'.taken
  ended fault hf := (h'.ended fault (by rw [h.ended fault hf]; exact hf)).trans (h.ended fault hf)

theorem precedes_note (a : Account) (e : Event) : a.Precedes (a.note e) where
  port := port_note a e
  taken := by
    cases e with
    | taken port bytes => exact List.prefix_append _ _
    | _ => exact List.prefix_rfl
  ended fault h := by
    cases e with
    | arrived s => rw [heard_note_arrived, Link.accept_ended h]
    | _ => rfl

theorem taken_note {e : Event} (a : Account) (h : e.isTaken = false) :
    (a.note e).taken = a.taken := by
  cases e <;> first | rfl | cases h

end Account

/-! ## Ledgers -/

/-- The accounts of all connections, and the one that each port stands for. -/
structure Ledger where
  /-- In the order in which the connections were begun. -/
  accounts : List Account := []
  /-- The place of the account of a port. -/
  holder : UInt16 → Option Nat := fun _ => none

namespace Ledger

/-- The account that a port stands for. -/
def at? (l : Ledger) (port : UInt16) : Option Account :=
  (l.holder port).bind (l.accounts[·]?)

/-- Changes the account that a port stands for. -/
def change (l : Ledger) (port : UInt16) (f : Account → Account) : Ledger :=
  match l.holder port with
  | some n => { l with accounts := l.accounts.modify n f }
  | none => l

/-- Enters an event. -/
def note (l : Ledger) : Event → Ledger
  | .opened port peerPort first =>
    { accounts := l.accounts ++ [{ port, peerPort, first }]
      holder := fun p => if p = port then some l.accounts.length else l.holder p }
  | .forgotten port => { l with holder := fun p => if p = port then none else l.holder p }
  | e => l.change e.port (·.note e)

/-- The ledger of a journal. -/
def ofJournal : Journal → Ledger
  | [] => {}
  | e :: j => (ofJournal j).note e

/-- Each port stands for an account of its own. -/
def Sound (l : Ledger) : Prop :=
  ∀ p n, l.holder p = some n → ∃ a, l.accounts[n]? = some a ∧ a.port = p

variable {l : Ledger} {p : UInt16} {n : Nat} {e : Event}

@[simp] theorem holder_change (l : Ledger) (port : UInt16) (f : Account → Account) :
    (l.change port f).holder = l.holder := by
  unfold change
  split <;> rfl

theorem getElem?_change (l : Ledger) (port : UInt16) (f : Account → Account) (n : Nat) :
    (l.change port f).accounts[n]? =
      if l.holder port = some n then l.accounts[n]?.map f else l.accounts[n]? := by
  unfold change
  split
  · next m hm =>
    rw [List.getElem?_modify, hm]
    by_cases h : m = n <;> simp [h]
  · next hm => simp [hm]

theorem Sound.change (h : l.Sound) (port : UInt16) {f : Account → Account}
    (hf : ∀ a, (f a).port = a.port) : (l.change port f).Sound := by
  intro p n hn
  rw [holder_change] at hn
  obtain ⟨a, ha, rfl⟩ := h p n hn
  rw [getElem?_change, ha]
  split
  · exact ⟨f a, rfl, hf a⟩
  · exact ⟨a, rfl, rfl⟩

theorem Sound.note (h : l.Sound) (e : Event) : (l.note e).Sound := by
  cases e with
  | opened port peerPort first =>
    intro p n hn
    simp only [Ledger.note] at hn ⊢
    split at hn
    · next hp =>
      obtain rfl := Option.some.inj hn
      exact ⟨_, List.getElem?_concat_length, hp.symm⟩
    · obtain ⟨a, ha, hp⟩ := h p n hn
      exact ⟨a, by rw [List.getElem?_append_left (List.getElem?_eq_some_iff.1 ha).1]; exact ha, hp⟩
  | forgotten port =>
    intro p n hn
    simp only [Ledger.note] at hn ⊢
    split at hn
    · cases hn
    · exact h p n hn
  | _ => exact h.change _ fun a => Account.port_note a _

theorem sound_ofJournal (j : Journal) : (ofJournal j).Sound := by
  induction j with
  | nil => intro p n hn; cases hn
  | cons e j ih => exact ih.note e

/-- Two ports never stand for one account. -/
theorem Sound.holder_inj (h : l.Sound) {p q : UInt16} (hp : l.holder p = some n)
    (hq : l.holder q = some n) : p = q := by
  obtain ⟨a, ha, rfl⟩ := h p n hp
  obtain ⟨b, hb, rfl⟩ := h q n hq
  rw [ha] at hb
  rw [Option.some.inj hb]

theorem Sound.exists_at? (h : l.Sound) (hp : l.holder p = some n) :
    ∃ a, l.at? p = some a ∧ l.accounts[n]? = some a ∧ a.port = p := by
  obtain ⟨a, ha, hp'⟩ := h p n hp
  exact ⟨a, by rw [at?, hp]; exact ha, ha, hp'⟩

theorem at?_eq_some_iff {a : Account} :
    l.at? p = some a ↔ ∃ n, l.holder p = some n ∧ l.accounts[n]? = some a := by
  simp [at?, Option.bind_eq_some_iff]

theorem holder_note_of_ne (h : e.port ≠ p) : (l.note e).holder p = l.holder p := by
  cases e with
  | opened | forgotten => exact if_neg (Ne.symm h)
  | _ => exact congrFun (holder_change _ _ _) p

/-- An event leaves the accounts alone that its port does not stand for. -/
theorem getElem?_note_of_ne (hn : n < l.accounts.length) (h : l.holder e.port ≠ some n) :
    (l.note e).accounts[n]? = l.accounts[n]? := by
  cases e with
  | opened => exact List.getElem?_append_left hn
  | forgotten => rfl
  | _ => exact (getElem?_change _ _ _ _).trans (if_neg h)

theorem at?_note_of_ne (hl : l.Sound) (h : e.port ≠ p) : (l.note e).at? p = l.at? p := by
  rw [at?, at?, holder_note_of_ne h]
  cases hp : l.holder p with
  | none => rfl
  | some n =>
    obtain ⟨a, ha, -⟩ := hl p n hp
    exact getElem?_note_of_ne (List.getElem?_eq_some_iff.1 ha).1
      fun hn => h (hl.holder_inj hn hp)

@[simp] theorem at?_note_opened (l : Ledger) (port peerPort : UInt16) (first : UInt32) :
    (l.note (.opened port peerPort first)).at? port = some { port, peerPort, first } := by
  simp [at?, note]

@[simp] theorem at?_note_forgotten (l : Ledger) (port : UInt16) :
    (l.note (.forgotten port)).at? port = none := by
  simp [at?, note]

theorem note_eq_change (h : e.isTurn = false) : l.note e = l.change e.port (·.note e) := by
  cases e <;> first | rfl | cases h

/-- An event is entered into the account of its port. -/
theorem at?_note (h : e.isTurn = false) : (l.note e).at? e.port = (l.at? e.port).map (·.note e) := by
  rw [note_eq_change h, at?, at?, holder_change]
  cases hp : l.holder e.port with
  | none => rfl
  | some n => exact (getElem?_change _ _ _ _).trans (if_pos hp)

/-! ### Later ledgers -/

variable {a : Account} {es j : Journal}

theorem getElem?_note (h : l.accounts[n]? = some a) (e : Event) :
    (l.note e).accounts[n]? = some (if l.holder e.port = some n then a.note e else a) := by
  cases hturn : e.isTurn with
  | false => rw [note_eq_change hturn, getElem?_change, h, apply_ite some, Option.map_some]
  | true =>
    cases e with
    | opened port peerPort first =>
      have ha : a.note (.opened port peerPort first) = a := rfl
      rw [ha, ite_self]
      exact (List.getElem?_append_left (List.getElem?_eq_some_iff.1 h).1).trans h
    | forgotten port =>
      have ha : a.note (.forgotten port) = a := rfl
      rw [ha, ite_self]
      exact h
    | _ => cases hturn

/-- An account is never dropped from the ledger. -/
theorem exists_precedes (h : (ofJournal j).accounts[n]? = some a) (es : Journal) :
    ∃ b, (ofJournal (es ++ j)).accounts[n]? = some b ∧ a.Precedes b ∧
      ((∀ e ∈ es, e.isTaken = false) → b.taken = a.taken) := by
  induction es with
  | nil => exact ⟨a, h, .refl a, fun _ => rfl⟩
  | cons e es ih =>
    obtain ⟨b, hb, hp, ht⟩ := ih
    rw [List.cons_append, ofJournal, getElem?_note hb e]
    refine ⟨_, rfl, ?_, fun hes => ?_⟩
    · split
      · exact hp.trans (b.precedes_note e)
      · exact hp
    · have ht := ht fun e he => hes e (List.mem_cons_of_mem _ he)
      split
      · rw [Account.taken_note b (hes e List.mem_cons_self), ht]
      · exact ht

/-- Who holds a port changes only where a connection there is begun or forgotten. -/
theorem holder_append (h : ∀ e ∈ es, e.isTurn = true → e.port ≠ p) :
    (ofJournal (es ++ j)).holder p = (ofJournal j).holder p := by
  induction es with
  | nil => rfl
  | cons e es ih =>
    rw [List.cons_append, ofJournal]
    have ih := ih fun e he => h e (List.mem_cons_of_mem _ he)
    cases hturn : e.isTurn with
    | true => rw [holder_note_of_ne (h e List.mem_cons_self hturn), ih]
    | false => rw [note_eq_change hturn, holder_change, ih]

/-! ### What was taken -/

/-- All bytes that were taken from the `n`-th connection. -/
def takenOf (l : Ledger) (n : Nat) : Bytes :=
  l.accounts[n]?.elim [] Account.taken

theorem takenOf_change (l : Ledger) (port : UInt16) {f : Account → Account}
    (hf : ∀ a, (f a).taken = a.taken) (n : Nat) : (l.change port f).takenOf n = l.takenOf n := by
  rw [takenOf, takenOf, getElem?_change]
  split
  · cases l.accounts[n]? with
    | none => rfl
    | some a => exact hf a
  · rfl

theorem takenOf_note (l : Ledger) (h : e.isTaken = false) (n : Nat) :
    (l.note e).takenOf n = l.takenOf n := by
  cases e with
  | opened port peerPort first =>
    -- Nothing was taken yet from a connection that begins.
    rw [takenOf, takenOf, note]
    dsimp only
    rw [List.getElem?_append]
    split
    · rfl
    · next hn =>
      rw [List.getElem?_eq_none (Nat.le_of_not_lt hn), List.getElem?_singleton]
      split <;> rfl
  | taken => cases h
  | forgotten => rfl
  | _ => exact takenOf_change _ _ (fun a => a.taken_note rfl) n

theorem takenOf_note_taken (hl : l.Sound) (port : UInt16) (bytes : Bytes) (n : Nat) :
    (l.note (.taken port bytes)).takenOf n =
      l.takenOf n ++ if l.holder port = some n then bytes else [] := by
  have hnote : l.note (.taken port bytes) = l.change port (·.note (.taken port bytes)) := rfl
  rw [hnote, takenOf, takenOf, getElem?_change]
  split
  · next hn =>
    obtain ⟨a, ha, -⟩ := hl _ _ hn
    rw [ha]
    rfl
  · exact (List.append_nil _).symm

theorem takenOf_append (h : ∀ e ∈ es, e.isTaken = false) (n : Nat) :
    (ofJournal (es ++ j)).takenOf n = (ofJournal j).takenOf n := by
  induction es with
  | nil => rfl
  | cons e es ih =>
    rw [List.cons_append, ofJournal, takenOf_note _ (h e List.mem_cons_self)]
    exact ih fun e he => h e (List.mem_cons_of_mem _ he)

end Ledger

end Tether.Tunnel
