import Tether.Proofs.Tunnel.Isolation
import Tether.Proofs.Tunnel.Stopping

/-!
# Chronicles

A session tells what its users have read. A *chronicle* also tells what they have written: each
write with the ticket of its request, the tickets of those requests that were served while their
connection was open, and the streams of which a flush has failed.

* `Booked`: what holds of tickets, requests and outcomes, whatever becomes of the connections;
* `Booked.proceeds`, `Booked.letThrough`, ...: one lemma for each thing that may happen;
* `Stream.ends_flushAll`: what a flush says of the writes before it.
-/

namespace Tether.Tunnel

open Net Call

namespace Switchboard

/-- Bytes that were written to a stream, with the ticket of the request to send them. -/
structure Write where
  stream : Nat
  ticket : Nat
  bytes : Bytes
  deriving DecidableEq, Repr

/-- What is remembered of writes. -/
structure Records where
  /-- All writes, first to last. -/
  writes : List Write := []
  /-- The tickets of the requests to send that were served while their connection was open. -/
  admitted : List Nat := []
  /-- The streams of flushes that failed. -/
  failing : List Nat := []

namespace Records

/-- The writes of a stream. -/
def writesOf (m : Records) (i : Nat) : List Write :=
  m.writes.filter fun x => x.stream = i

/-- Those of them that were served while the connection was open. -/
def admittedOf (m : Records) (i : Nat) : List Write :=
  (m.writesOf i).filter fun x => x.ticket ∈ m.admitted

end Records

namespace Act

/-- What an act writes. -/
def writes (b : Switchboard) : Act → List Write
  | write i bytes => if i < b.streams.length ∧ b.isRunning then [⟨i, b.nextTicket, bytes⟩] else []
  | _ => []

/-- The ticket of the request to send that an act serves, if the connection is open. -/
def admits (b : Switchboard) : Act → List Nat
  | turn .atRequests =>
    match b.requests with
    | (ticket, .send port _) :: _ =>
      if b.isRunning ∧ b.stack.isConnected port then [ticket] else []
    | _ => []
  | _ => []

/-- The stream that an act flushes, if it fails. -/
def fails (b : Switchboard) : Act → List Nat
  | flush i =>
    match Stream.flush i b with
    | .error (.failed _) _ => [i]
    | _ => []
  | _ => []

theorem of_mem_writes {b : Switchboard} {act : Act} {x : Write} (hx : x ∈ act.writes b) :
    x.ticket = b.nextTicket := by
  cases act with
  | write i bytes =>
    rw [Act.writes] at hx
    split at hx
    · rw [List.mem_singleton.1 hx]
    · cases hx
  | _ => cases hx

end Act

end Switchboard

open Switchboard

/-- A session with what was written. -/
structure Chronicle extends Session, Records

namespace Chronicle

/-- The chronicle after an act. -/
def step (c : Chronicle) (act : Act) : Chronicle where
  toSession := c.toSession.step act
  writes := c.writes ++ act.writes c.board
  admitted := c.admitted ++ act.admits c.board
  failing := c.failing ++ act.fails c.board

/-- The chronicle after some acts. -/
def play (c : Chronicle) (acts : List Act) : Chronicle :=
  acts.foldl step c

/-- The chronicle of a session, see `Session.run`. -/
def run (e : Tunnel.Ends) (before : List Stack.Act) (acts : List Act) : Chronicle :=
  play { toSession := Session.start (Stack.play before (Stack.ofEnds e)) } acts

theorem run_append (e : Tunnel.Ends) (before : List Stack.Act) (acts later : List Act) :
    run e before (acts ++ later) = (run e before acts).play later :=
  List.foldl_append ..

theorem toSession_play (c : Chronicle) (acts : List Act) :
    (c.play acts).toSession = c.toSession.play acts := by
  induction acts generalizing c with
  | nil => rfl
  | cons act acts ih => exact ih (c.step act)

theorem toSession_run (e : Tunnel.Ends) (before : List Stack.Act) (acts : List Act) :
    (run e before acts).toSession = Session.run e before acts :=
  toSession_play _ acts

end Chronicle

namespace Switchboard

/-! ## Tickets of writes -/

/-- What holds of the tickets of writes. -/
structure Booked (m : Records) (b : Switchboard) : Prop where
  sorted : m.writes.Pairwise fun x y => x.ticket < y.ticket
  known : ∀ x ∈ m.writes, x.ticket < b.nextTicket ∧ x.stream < b.streams.length
  inOrder : b.requests.Pairwise fun r q => r.1 < q.1
  issued : ∀ r ∈ b.requests, r.1 < b.nextTicket
  /-- Whatever is to be sent was written. -/
  asked : ∀ t port bytes, (t, .send port bytes) ∈ b.requests → ∃ x ∈ m.writes, x.ticket = t
  /-- The request of a write is one to send its bytes from the port of its stream. -/
  waiting : ∀ x ∈ m.writes, ∀ r, (x.ticket, r) ∈ b.requests →
    ∃ s, b.streams[x.stream]? = some s ∧ r = .send s.port x.bytes
  /-- Requests are served in the order of their tickets. -/
  served : ∀ t ∈ m.admitted, t < b.nextTicket ∧ ∀ r ∈ b.requests, t < r.1
  granted : ∀ x ∈ m.writes, ∀ k, (x.ticket, .ok k) ∈ b.outcomes → x.ticket ∈ m.admitted
  /-- As long as no flush has failed, flushes wait for the outcome of each write. -/
  flushed : ∀ x ∈ m.writes, x.stream ∉ m.failing →
    (∃ s, b.streams[x.stream]? = some s ∧ x.ticket ∈ s.writes) ∨ ∃ k, (x.ticket, .ok k) ∈ b.outcomes

namespace Booked

variable {m : Records} {b c : Switchboard} {ticket next : Option Nat} {P : Event → Prop}
  {t : Nat} {request : Request} {later : List (Nat × Request)}

theorem start (s : Stack) : Booked {} { stack := s } where
  sorted := .nil
  known := nofun
  inOrder := .nil
  issued := nofun
  asked := nofun
  waiting := nofun
  served := nofun
  granted := nofun
  flushed := nofun

/-- A write and the head of the requests with its ticket. -/
theorem eq_send (h : Booked m b) (hr : b.requests = (t, request) :: later) {x : Write}
    (hx : x ∈ m.writes) (ht : x.ticket = t) :
    ∃ s, b.streams[x.stream]? = some s ∧ request = .send s.port x.bytes :=
  h.waiting x hx request (hr ▸ ht ▸ List.mem_cons_self)

/-- The first request is served, and what is noted for it, if anything, is that it has failed. -/
theorem pass (h : Booked m b) (hr : b.requests = (t, request) :: later)
    (outcomes : List (Nat × Except TunnelError Nat)) (ho : ∀ o ∈ outcomes, ∃ e, o.2 = .error e) :
    Booked m { b with requests := later, outcomes := b.outcomes ++ outcomes } := by
  have hmem : ∀ r ∈ later, r ∈ b.requests := fun r hm => hr ▸ List.mem_cons_of_mem _ hm
  have hold : ∀ u k, (u, .ok k) ∈ b.outcomes ++ outcomes → (u, .ok k) ∈ b.outcomes := by
    intro u k hu
    refine (List.mem_append.1 hu).resolve_right fun hu => ?_
    obtain ⟨e, he⟩ := ho _ hu
    cases he
  refine ⟨h.sorted, h.known, (List.pairwise_cons.1 (hr ▸ h.inOrder)).2,
    fun r hm => h.issued r (hmem r hm), fun u port bytes hm => h.asked u port bytes (hmem _ hm),
    fun x hx r hm => h.waiting x hx r (hmem _ hm),
    fun u hu => ⟨(h.served u hu).1, fun r hm => (h.served u hu).2 r (hmem r hm)⟩,
    fun x hx k hk => h.granted x hx k (hold _ k hk), fun x hx hf => ?_⟩
  exact (h.flushed x hx hf).imp_right fun ⟨k, hk⟩ => ⟨k, List.mem_append_left _ hk⟩

/-- A request to send is served while its connection is open. -/
theorem letThrough (h : Booked m b) (hr : b.requests = (t, request) :: later) (s : Stack)
    (r : Except TunnelError Nat) :
    Booked { m with admitted := m.admitted ++ [t] }
      { b with requests := later, stack := s, outcomes := b.outcomes ++ [(t, r)] } := by
  have hmem : ∀ r ∈ later, r ∈ b.requests := fun r hm => hr ▸ List.mem_cons_of_mem _ hm
  have hsorted := List.pairwise_cons.1 (hr ▸ h.inOrder)
  refine ⟨h.sorted, h.known, hsorted.2, fun r hm => h.issued r (hmem r hm),
    fun u port bytes hm => h.asked u port bytes (hmem _ hm),
    fun x hx r hm => h.waiting x hx r (hmem _ hm), fun u hu => ?_, fun x hx k hk => ?_,
    fun x hx hf => (h.flushed x hx hf).imp_right fun ⟨k, hk⟩ => ⟨k, List.mem_append_left _ hk⟩⟩
  · rcases List.mem_append.1 hu with hu | hu
    · exact ⟨(h.served u hu).1, fun r hm => (h.served u hu).2 r (hmem r hm)⟩
    · obtain rfl := List.mem_singleton.1 hu
      exact ⟨h.issued _ (hr ▸ List.mem_cons_self), hsorted.1⟩
  · rcases List.mem_append.1 hk with hk | hk
    · exact List.mem_append_left _ (h.granted x hx k hk)
    · have hxt : x.ticket = t := congrArg Prod.fst (List.mem_singleton.1 hk)
      exact List.mem_append_right _ (List.mem_singleton.2 hxt)

/-- The rest of a turn says nothing about writes. -/
theorem proceeds (h : Booked m b) (hc : Proceeds ticket next P b c)
    (hn : ∀ x ∈ m.writes, some x.ticket ≠ ticket) : Booked m c := by
  obtain ⟨os, hos, hticket⟩ := hc.outcomes
  have hmem : ∀ r ∈ c.requests, r ∈ b.requests := by
    intro r hm
    rcases hc.requests with hr | ⟨hr, -⟩
    · rwa [hr] at hm
    · rw [hr] at hm
      cases hm
  refine ⟨h.sorted, fun x hx => ⟨hc.nextTicket ▸ (h.known x hx).1, ?_⟩, ?_,
    fun r hm => hc.nextTicket ▸ h.issued r (hmem r hm),
    fun u port bytes hm => h.asked u port bytes (hmem _ hm), fun x hx r hm => ?_,
    fun u hu => ⟨hc.nextTicket ▸ (h.served u hu).1, fun r hm => (h.served u hu).2 r (hmem r hm)⟩,
    fun x hx k hk => ?_, fun x hx hf => ?_⟩
  · obtain ⟨s, hs, -⟩ := hc.streams x.stream _ (List.getElem?_eq_getElem (h.known x hx).2)
    exact (List.getElem?_eq_some_iff.1 hs).1
  · rcases hc.requests with hr | ⟨hr, -⟩
    · exact hr ▸ h.inOrder
    · exact hr ▸ .nil
  · obtain ⟨s, hs, rfl⟩ := h.waiting x hx r (hmem _ hm)
    obtain ⟨s', hs', hkin⟩ := hc.streams _ s hs
    exact ⟨s', hs', by rw [hkin.port]⟩
  · rw [hos] at hk
    refine h.granted x hx k ((List.mem_append.1 hk).resolve_right fun hk => ?_)
    exact hn x hx (hticket _ hk)
  · refine (h.flushed x hx hf).imp (fun ⟨s, hs, hw⟩ => ?_) fun ⟨k, hk⟩ => ⟨k, ?_⟩
    · obtain ⟨s', hs', hkin⟩ := hc.streams _ s hs
      exact ⟨s', hs', hkin.writes ▸ hw⟩
    · exact hos ▸ List.mem_append_left _ hk

end Booked

/-! ### Asking -/

section Asking

variable {b c : Switchboard}

/-- A request is posted that is not one to send, or none. -/
structure Asked (b c : Switchboard) : Prop where
  requests : c.requests = b.requests ∧ c.nextTicket = b.nextTicket ∨
    ∃ r, (∀ port bytes, r ≠ .send port bytes) ∧ c.requests = b.requests ++ [(b.nextTicket, r)] ∧
      c.nextTicket = b.nextTicket + 1
  streams : ∀ (i : Nat) s, b.streams[i]? = some s → ∃ t, c.streams[i]? = some t ∧ s.Kin t
  length : c.streams.length = b.streams.length
  outcomes : c.outcomes = b.outcomes

theorem asked_posted {request : Request} (h : ∀ port bytes, request ≠ .send port bytes) :
    Asked b (b.posted request) := by
  unfold posted
  split
  · exact ⟨.inr ⟨request, h, rfl, rfl⟩, fun _ s hs => ⟨s, hs, .refl s⟩, rfl, rfl⟩
  · exact ⟨.inl ⟨rfl, rfl⟩, fun _ s hs => ⟨s, hs, .refl s⟩, rfl, rfl⟩

theorem Asked.of_eq (hr : c.requests = b.requests) (ht : c.nextTicket = b.nextTicket)
    (hs : c.streams = b.streams) (ho : c.outcomes = b.outcomes) : Asked b c :=
  ⟨.inl ⟨hr, ht⟩, fun _ s h => ⟨s, hs ▸ h, .refl s⟩, hs ▸ rfl, ho⟩

theorem Asked.refl (b : Switchboard) : Asked b b :=
  .of_eq rfl rfl rfl rfl

/-- A stream is changed that keeps its port and its writes. -/
theorem Asked.set {i : Nat} {s s' : Stream} (h : Asked b c)
    (hs : b.streams[i]? = some s) (hkin : s.Kin s') :
    Asked b { c with streams := b.streams.set i s' } := by
  refine ⟨h.requests, fun k u hu => ?_, List.length_set, h.outcomes⟩
  by_cases hk : k = i
  · subst hk
    obtain rfl : s = u := Option.some.inj (hs.symm.trans hu)
    exact ⟨s', List.getElem?_set_self (List.getElem?_eq_some_iff.1 hs).1, hkin⟩
  · exact ⟨u, (List.getElem?_set_ne (Ne.symm hk)).trans hu, .refl u⟩

theorem ends_post_asked {request : Request} (h : ∀ port bytes, request ≠ .send port bytes) :
    (do let _ ← post request : Call TunnelError Switchboard Unit).Ends b (fun _ => Asked b)
      (fun _ => Asked b) := by
  rw [ends_bind]
  refine (ends_post b request).mono (fun _ c hc => ?_) fun _ c hc => ?_
  · exact hc.2.2 ▸ asked_posted h
  · exact hc.2.2 ▸ .refl b

theorem ends_find_none {i : Nat} {α : Type} {f : Stream → Call TunnelError Switchboard α}
    (hs : b.streams[i]? = none) :
    (Stream.find i >>= f).Ends b (fun _ _ => False) (fun h c => h = .failed closed ∧ c = b) := by
  rw [ends_bind, Stream.find, ends_bind, ends_get, hs]
  exact ⟨rfl, rfl⟩

/-- What users do, other than to write and to flush, and what the world does. -/
theorem asked_call (act : Act) (hturn : ∀ t, act ≠ .turn t) (hwrite : ∀ i bytes, act ≠ .write i bytes)
    (hflush : ∀ i, act ≠ .flush i) : Asked b (act.call.state b) := by
  refine Call.Ends.state (P := Asked b) ?_
  cases act with
  | connect | capture | shutdown => exact ends_post_asked nofun
  | abandon | release | world | tick => exact Asked.of_eq rfl rfl rfl rfl
  | write i bytes => exact absurd rfl (hwrite i bytes)
  | flush i => exact absurd rfl (hflush i)
  | turn t => exact absurd rfl (hturn t)
  | close i =>
    cases hs : b.streams[i]? with
    | none => exact (ends_find_none hs).mono (fun _ _ => False.elim) fun _ _ hc => hc.2 ▸ .refl b
    | some s =>
      exact (ends_close hs).mono (fun _ _ hc => hc ▸ asked_posted nofun) fun _ _ => False.elim
  | drop i =>
    cases hs : b.streams[i]? with
    | none =>
      rw [Act.call, Stream.release, ends_bind]
      exact (ends_find_none hs).mono (fun _ _ => False.elim) fun _ _ hc => hc.2 ▸ .refl b
    | some s =>
      refine (ends_release hs).mono (fun _ c hc => ?_) fun _ _ => False.elim
      have hposted : Asked b (b.posted (.close s.port)) := asked_posted nofun
      rw [hc]
      exact hposted.set hs ⟨rfl, rfl⟩
  | neglect i =>
    cases hs : b.streams[i]? with
    | none => exact (ends_find_none hs).mono (fun _ _ => False.elim) fun _ _ hc => hc.2 ▸ .refl b
    | some s =>
      rw [Act.call, ends_bind]
      refine (Stream.ends_find hs).mono (fun t c hc => ?_) fun _ _ => False.elim
      obtain ⟨rfl, rfl⟩ := hc
      exact (Asked.refl c).set hs ⟨rfl, rfl⟩
  | read i most hm =>
    rw [Act.call, ends_bind]
    cases hs : b.streams[i]? with
    | none => exact (ends_find_none hs).mono (fun _ _ => False.elim) fun _ _ hc => hc.2 ▸ .refl b
    | some s =>
      have hkin : s.Kin (s.reading most).1 := by
        refine ⟨Stream.port_reading s most, ?_⟩
        unfold Stream.reading
        repeat' split
        all_goals rfl
      exact (Stream.ends_read hs most).mono (fun _ _ hc => hc.2 ▸ (Asked.refl b).set hs hkin)
        fun _ _ hc => hc.2 ▸ (Asked.refl b).set hs hkin

end Asking

namespace Booked

variable {m : Records} {b c : Switchboard}

theorem asks (h : Booked m b) (hc : Asked b c) : Booked m c := by
  have hold : ∀ r ∈ c.requests, r ∈ b.requests ∨ r.1 = b.nextTicket ∧
      (∀ port bytes, r.2 ≠ .send port bytes) ∧ c.nextTicket = b.nextTicket + 1 := by
    intro r hm
    rcases hc.requests with ⟨hr, -⟩ | ⟨q, hq, hr, hnext⟩
    · exact .inl (hr ▸ hm)
    · refine (List.mem_append.1 (hr ▸ hm)).imp_right fun hm => ?_
      rw [List.mem_singleton.1 hm]
      exact ⟨rfl, hq, hnext⟩
  have hnext : b.nextTicket ≤ c.nextTicket := by
    rcases hc.requests with ⟨-, hnext⟩ | ⟨-, -, -, hnext⟩ <;> omega
  refine ⟨h.sorted, fun x hx => ⟨Nat.lt_of_lt_of_le (h.known x hx).1 hnext, ?_⟩, ?_, fun r hm => ?_,
    fun u port bytes hm => ?_, fun x hx r hm => ?_, fun u hu => ?_,
    fun x hx k hk => h.granted x hx k (hc.outcomes ▸ hk), fun x hx hf => ?_⟩
  · exact hc.length ▸ (h.known x hx).2
  · rcases hc.requests with ⟨hr, -⟩ | ⟨q, -, hr, -⟩
    · exact hr ▸ h.inOrder
    · rw [hr]
      refine List.pairwise_append.2 ⟨h.inOrder, List.pairwise_singleton _ _, fun r hm q hq => ?_⟩
      rw [List.mem_singleton.1 hq]
      exact h.issued r hm
  · rcases hold r hm with hm | ⟨hticket, -, hnext⟩
    · exact Nat.lt_of_lt_of_le (h.issued r hm) hnext
    · omega
  · rcases hold _ hm with hm | ⟨-, hsend, -⟩
    · exact h.asked u port bytes hm
    · exact absurd rfl (hsend port bytes)
  · rcases hold _ hm with hm | ⟨hticket, -⟩
    · obtain ⟨s, hs, rfl⟩ := h.waiting x hx r hm
      obtain ⟨s', hs', hkin⟩ := hc.streams _ s hs
      exact ⟨s', hs', by rw [hkin.port]⟩
    · exact absurd hticket (Nat.ne_of_lt (h.known x hx).1)
  · obtain ⟨hlt, hserved⟩ := h.served u hu
    refine ⟨Nat.lt_of_lt_of_le hlt hnext, fun r hm => ?_⟩
    rcases hold r hm with hm | ⟨hticket, -⟩
    · exact hserved r hm
    · rwa [hticket]
  · refine (h.flushed x hx hf).imp (fun ⟨s, hs, hw⟩ => ?_) fun ⟨k, hk⟩ => ⟨k, hc.outcomes ▸ hk⟩
    obtain ⟨s', hs', hkin⟩ := hc.streams _ s hs
    exact ⟨s', hs', hkin.writes ▸ hw⟩

/-! ### Writing -/

/-- Bytes are written. -/
theorem write {i : Nat} {s : Stream} (h : Booked m b) (hnum : b.Numbered)
    (hs : b.streams[i]? = some s) (hr : b.isRunning = true) (bytes : Bytes) :
    Booked { m with writes := m.writes ++ [⟨i, b.nextTicket, bytes⟩] }
      { b.posted (.send s.port bytes) with
        streams := b.streams.set i { s with writes := s.writes ++ [b.nextTicket] } } := by
  have hi := (List.getElem?_eq_some_iff.1 hs).1
  have hport : ∀ (k : Nat) (u : Stream), b.streams[k]? = some u → ∃ v : Stream, (b.streams.set i
      { s with writes := s.writes ++ [b.nextTicket] })[k]? = some v ∧ v.port = u.port ∧
        u.writes ⊆ v.writes := by
    intro k u hu
    by_cases hk : k = i
    · subst hk
      obtain rfl := Option.some.inj (hs.symm.trans hu)
      exact ⟨_, List.getElem?_set_self hi, rfl, List.subset_append_left _ _⟩
    · exact ⟨u, (List.getElem?_set_ne (Ne.symm hk)).trans hu, rfl, List.Subset.refl _⟩
  rw [posted, if_pos hr]
  refine ⟨?_, fun x hx => ?_, ?_, fun r hm => ?_, fun u port bs hm => ?_, fun x hx r hm => ?_,
    fun u hu => ?_, fun x hx k hk => ?_, fun x hx hf => ?_⟩
  · refine List.pairwise_append.2 ⟨h.sorted, List.pairwise_singleton _ _, fun x hx y hy => ?_⟩
    rw [List.mem_singleton.1 hy]
    exact (h.known x hx).1
  · dsimp only
    rw [List.length_set]
    rcases List.mem_append.1 hx with hx | hx
    · exact ⟨Nat.lt_succ_of_lt (h.known x hx).1, (h.known x hx).2⟩
    · rw [List.mem_singleton.1 hx]
      exact ⟨Nat.lt_succ_self _, hi⟩
  · refine List.pairwise_append.2 ⟨h.inOrder, List.pairwise_singleton _ _, fun r hm q hq => ?_⟩
    rw [List.mem_singleton.1 hq]
    exact h.issued r hm
  · rcases List.mem_append.1 hm with hm | hm
    · exact Nat.lt_succ_of_lt (h.issued r hm)
    · rw [List.mem_singleton.1 hm]
      exact Nat.lt_succ_self _
  · rcases List.mem_append.1 hm with hm | hm
    · obtain ⟨x, hx, ht⟩ := h.asked u port bs hm
      exact ⟨x, List.mem_append_left _ hx, ht⟩
    · have hu : u = b.nextTicket := congrArg Prod.fst (List.mem_singleton.1 hm)
      exact ⟨_, List.mem_append_right _ List.mem_cons_self, hu.symm⟩
  · -- An old write has an old request, and the new write has the new one.
    rcases List.mem_append.1 hx with hx | hx <;> rcases List.mem_append.1 hm with hm | hm
    · obtain ⟨u, hu, rfl⟩ := h.waiting x hx r hm
      obtain ⟨v, hv, hp, -⟩ := hport _ u hu
      exact ⟨v, hv, by rw [hp]⟩
    · have hticket : x.ticket = b.nextTicket := congrArg Prod.fst (List.mem_singleton.1 hm)
      exact absurd hticket (Nat.ne_of_lt (h.known x hx).1)
    · have hlt := h.issued _ hm
      rw [List.mem_singleton.1 hx] at hlt
      exact absurd hlt (Nat.lt_irrefl _)
    · obtain rfl := List.mem_singleton.1 hx
      obtain rfl : r = .send s.port bytes := congrArg Prod.snd (List.mem_singleton.1 hm)
      exact ⟨_, List.getElem?_set_self hi, rfl⟩
  · obtain ⟨hlt, hserved⟩ := h.served u hu
    refine ⟨Nat.lt_succ_of_lt hlt, fun r hm => ?_⟩
    rcases List.mem_append.1 hm with hm | hm
    · exact hserved r hm
    · rw [List.mem_singleton.1 hm]
      exact hlt
  · rcases List.mem_append.1 hx with hx | hx
    · exact h.granted x hx k hk
    · rw [List.mem_singleton.1 hx] at hk
      exact absurd (hnum.noted _ hk) (Nat.lt_irrefl _)
  · rcases List.mem_append.1 hx with hx | hx
    · refine (h.flushed x hx hf).imp_left fun hnoted => ?_
      obtain ⟨u, hu, hw⟩ := hnoted
      obtain ⟨v, hv, -, hsub⟩ := hport _ u hu
      exact ⟨v, hv, hsub hw⟩
    · rw [List.mem_singleton.1 hx]
      exact .inl ⟨_, List.getElem?_set_self hi, List.mem_append_right _ List.mem_cons_self⟩

end Booked

/-! ### Flushing -/

variable {b : Switchboard} {i : Nat} {s : Stream}

/-- The switchboard once a stream waits for the outcomes of some writes only. -/
def awaiting (b : Switchboard) (i : Nat) (s : Stream) (tickets : List Nat) : Switchboard :=
  { b with streams := b.streams.set i { s with writes := tickets } }

theorem awaiting_awaiting (b : Switchboard) (i : Nat) (s : Stream) (ts us : List Nat) :
    (b.awaiting i s ts).awaiting i { s with writes := ts } us = b.awaiting i s us := by
  simp [awaiting]

/-- A request that was served with success. -/
def Succeeded (b : Switchboard) (ticket : Nat) : Prop :=
  ∃ k, b.outcomes.lookup ticket = some (.ok k)

theorem ends_outcome (b : Switchboard) (ticket : Nat) :
    (outcome ticket).Ends b (fun _ c => c = b ∧ b.Succeeded ticket)
      (fun h c => c = b ∧ ((∃ e, h = .failed e ∧ b.outcomes.lookup ticket = some (.error e)) ∨
        b.outcomes.lookup ticket = none ∧
          h = if b.isRunning then .waiting else .failed closed)) := by
  rw [outcome, ends_bind, ends_get]
  cases ho : b.outcomes.lookup ticket with
  | some r =>
    cases r with
    | ok k => exact ⟨rfl, k, ho⟩
    | error e => exact ⟨rfl, .inl ⟨e, rfl, rfl⟩⟩
  | none =>
    cases hr : b.isRunning with
    | true => exact ⟨rfl, .inr ⟨rfl, by simp⟩⟩
    | false => exact ⟨rfl, .inr ⟨rfl, by simp⟩⟩

/-- A flush asks for one outcome after another, as long as they are good. What it has not asked for
by then is still to be asked for; a failure that it met is not. -/
theorem ends_flushAll {tickets : List Nat} (hs : b.streams[i]? = some s) (hw : s.writes = tickets) :
    (Stream.flushAll i tickets).Ends b
      (fun _ c => (∀ t ∈ tickets, b.Succeeded t) ∧ c = b.awaiting i s [])
      (fun h c => ∃ done t rest, tickets = done ++ t :: rest ∧ (∀ u ∈ done, b.Succeeded u) ∧
        ((∃ e, h = .failed e ∧ c = b.awaiting i s rest ∧
            (b.outcomes.lookup t = some (.error e) ∨
              b.outcomes.lookup t = none ∧ b.isRunning = false ∧ e = closed)) ∨
          h = .waiting ∧ b.isRunning = true ∧ c = b.awaiting i s (t :: rest))) := by
  have hself : b = b.awaiting i s tickets := by
    subst hw
    obtain ⟨hi, rfl⟩ := List.getElem?_eq_some_iff.1 hs
    rw [awaiting, List.set_getElem_self]
  induction tickets generalizing b s with
  | nil => exact ⟨List.forall_mem_nil _, hself⟩
  | cons t rest ih =>
    have hset : (b.awaiting i s rest).streams[i]? = some { s with writes := rest } :=
      List.getElem?_set_self (List.getElem?_eq_some_iff.1 hs).1
    have hawait : ∀ us, (b.awaiting i s rest).awaiting i { s with writes := rest } us =
        b.awaiting i s us := b.awaiting_awaiting i s rest
    rw [Stream.flushAll, ends_bind, ends_attempt]
    refine (ends_outcome b t).mono (fun k c hc => ?_) fun h c hc => ?_
    · obtain ⟨rfl, hgood⟩ := hc
      rw [ends_bind]
      refine (Stream.ends_find hs).mono (fun u d hd => ?_) fun _ _ => False.elim
      obtain ⟨rfl, rfl⟩ := hd
      rw [Stream.put, ends_bind, ends_modify, ends_bind, ends_ofExcept_ok]
      refine (ih (b := d.awaiting i u rest) hset rfl (hawait rest).symm).mono
        (fun _ e he => ?_) fun h e he => ?_
      · exact ⟨fun v hv => (List.mem_cons.1 hv).elim (fun hv => hv ▸ hgood) (he.1 v),
          he.2.trans (hawait [])⟩
      · obtain ⟨done, v, later, rfl, hall, he⟩ := he
        refine ⟨t :: done, v, later, rfl,
          fun w hw => (List.mem_cons.1 hw).elim (fun hw => hw ▸ hgood) (hall w), ?_⟩
        rcases he with ⟨err, herr, heq, hlookup⟩ | ⟨hwaits, hr, heq⟩
        · exact .inl ⟨err, herr, heq.trans (hawait _), hlookup⟩
        · exact .inr ⟨hwaits, hr, heq.trans (hawait _)⟩
    · obtain ⟨rfl, hc⟩ := hc
      have hfailed {e : TunnelError} (he : c.outcomes.lookup t = some (.error e) ∨
          c.outcomes.lookup t = none ∧ c.isRunning = false ∧ e = closed) :
          (do
            Stream.put i { ← Stream.find i with writes := rest }
            let _ ← Call.ofExcept (.error e : Except TunnelError Nat)
            Stream.flushAll i rest : Call TunnelError Switchboard Unit).Ends c
            (fun _ _ => False)
            (fun h d => h = .failed e ∧ d = c.awaiting i s rest) := by
        rw [ends_bind]
        refine (Stream.ends_find hs).mono (fun u d hd => ?_) fun _ _ => False.elim
        obtain ⟨rfl, rfl⟩ := hd
        exact ⟨rfl, rfl⟩
      have hresult : (∃ e, h = .failed e ∧ (c.outcomes.lookup t = some (.error e) ∨
          c.outcomes.lookup t = none ∧ c.isRunning = false ∧ e = closed)) ∨
          h = .waiting ∧ c.isRunning = true := by
        rcases hc with ⟨e, rfl, he⟩ | ⟨hnone, rfl⟩
        · exact .inl ⟨e, rfl, .inl he⟩
        · cases hr : c.isRunning with
          | true => exact .inr ⟨rfl, rfl⟩
          | false => exact .inl ⟨closed, rfl, .inr ⟨hnone, rfl, rfl⟩⟩
      rcases hresult with ⟨e, rfl, he⟩ | ⟨rfl, hr⟩
      · refine (hfailed he).mono (fun _ _ => False.elim) fun h d hd => ?_
        exact ⟨[], t, rest, rfl, List.forall_mem_nil _, .inl ⟨e, hd.1, hd.2, he⟩⟩
      · exact ⟨[], t, rest, rfl, List.forall_mem_nil _, .inr ⟨rfl, hr, hself⟩⟩

theorem ends_flush (hs : b.streams[i]? = some s) :
    (Stream.flush i).Ends b
      (fun _ c => (∀ t ∈ s.writes, b.Succeeded t) ∧ c = b.awaiting i s [])
      (fun h c => ∃ done t rest, s.writes = done ++ t :: rest ∧ (∀ u ∈ done, b.Succeeded u) ∧
        ((∃ e, h = .failed e ∧ c = b.awaiting i s rest ∧
            (b.outcomes.lookup t = some (.error e) ∨
              b.outcomes.lookup t = none ∧ b.isRunning = false ∧ e = closed)) ∨
          h = .waiting ∧ b.isRunning = true ∧ c = b.awaiting i s (t :: rest))) := by
  rw [Stream.flush, ends_bind]
  refine (Stream.ends_find hs).mono (fun u d hd => ?_) fun _ _ => False.elim
  obtain ⟨rfl, rfl⟩ := hd
  exact ends_flushAll hs rfl

theorem Succeeded.mem {ticket : Nat} (h : b.Succeeded ticket) :
    ∃ k, (ticket, .ok k) ∈ b.outcomes := by
  obtain ⟨k, hk⟩ := h
  obtain ⟨os, os', ho, -⟩ := List.lookup_eq_some_iff.1 hk
  exact ⟨k, ho ▸ List.mem_append_right _ List.mem_cons_self⟩

namespace Booked

variable {m : Records}

/-- A flush that fails is remembered, and any other loses sight of no write. -/
theorem flush (h : Booked m b) (i : Nat) :
    Booked { m with failing := m.failing ++ (Act.flush i).fails b } ((Act.flush i).call.state b) := by
  cases hs : b.streams[i]? with
  | none =>
    have hb : (Act.flush i).call.state b = b := by
      refine Call.Ends.state (P := fun c => c = b) ?_
      exact (ends_find_none hs).mono (fun _ _ => False.elim) fun _ _ hc => hc.2
    rw [hb]
    exact ⟨h.sorted, h.known, h.inOrder, h.issued, h.asked, h.waiting, h.served, h.granted,
      fun x hx hf => h.flushed x hx fun hm => hf (List.mem_append_left _ hm)⟩
  | some s =>
    -- Whatever has been asked for had a good outcome.
    have hset {ts : List Nat} (hf : ∀ t, i ∉ m.failing ++ (Act.flush i).fails b → t ∈ s.writes →
        t ∈ ts ∨ b.Succeeded t) :
        Booked { m with failing := m.failing ++ (Act.flush i).fails b } (b.awaiting i s ts) := by
      have hi := (List.getElem?_eq_some_iff.1 hs).1
      refine ⟨h.sorted, fun x hx => ⟨(h.known x hx).1, ?_⟩, h.inOrder, h.issued, h.asked,
        fun x hx r hm => ?_, h.served, h.granted, fun x hx hnot => ?_⟩
      · rw [awaiting, List.length_set]
        exact (h.known x hx).2
      · obtain ⟨u, hu, rfl⟩ := h.waiting x hx r hm
        by_cases hk : x.stream = i
        · rw [hk] at hu
          obtain rfl := Option.some.inj (hs.symm.trans hu)
          exact ⟨_, (congrArg _ hk).trans (List.getElem?_set_self hi), rfl⟩
        · exact ⟨u, (List.getElem?_set_ne (Ne.symm hk)).trans hu, rfl⟩
      · rcases h.flushed x hx fun hm => hnot (List.mem_append_left _ hm) with ⟨u, hu, hw⟩ | hk
        · by_cases hk : x.stream = i
          · rw [hk] at hu hnot
            obtain rfl := Option.some.inj (hs.symm.trans hu)
            exact (hf x.ticket hnot hw).imp
              (fun ht => ⟨_, (congrArg _ hk).trans (List.getElem?_set_self hi), ht⟩) Succeeded.mem
          · exact .inl ⟨u, (List.getElem?_set_ne (Ne.symm hk)).trans hu, hw⟩
        · exact .inr hk
    refine Call.Ends.state (P := Booked { m with failing := m.failing ++ (Act.flush i).fails b }) ?_
    refine ((ends_flush hs).and (ends_self _ _)).mono (fun _ c hc => ?_) fun h' c hc => ?_
    · obtain ⟨⟨hall, rfl⟩, -⟩ := hc
      exact hset fun t _ ht => .inr (hall t ht)
    · obtain ⟨⟨done, t, rest, hw, hall, he⟩, hself⟩ := hc
      rcases he with ⟨e, rfl, rfl, -⟩ | ⟨rfl, -, rfl⟩
      · refine hset fun u hf _ => absurd (List.mem_append_right _ ?_) hf
        simp [Act.fails, hself]
      · refine hset fun u _ hu => ?_
        rw [hw] at hu
        exact (List.mem_append.1 hu).symm.imp_right (hall u)

end Booked

end Switchboard

end Tether.Tunnel
