import Tether.Proofs.Tunnel.Arriving

/-!
# Where reads end

A stack hears the same packets wherever its reads end. But a caller who awaits a connection looks
at it only between reads: where the device accepts a connection and ends it within one read, it
finds the connection over, takes it for rejected and forgets it, with all that was received on it.
With a read that ends in between, it gets the connection and what was received.

* `Transport.Leaves`: where reads may end;
* `Stack.Notices`: some read ends while a connection is made;
* `Stack.ends_connect_of_arrives`: the answer is what a read left of the connection;
* `Stack.outcome_eq`: where reads end matters only to a connection that was accepted and ended;
* `Stack.outcome_hasty`: and to such a connection it does.
-/

namespace Tether

namespace Transport

/-- Some reads of the tunnel may leave these many bytes. -/
inductive Leaves : Transport → Nat → Prop where
  | now (t : Transport) : Leaves t t.unread.length
  | later {t : Transport} {n : Nat} (ht : t.unread ≠ []) (h : Leaves t.step n) : Leaves t n

theorem leaves_iff {t : Transport} {n : Nat} :
    t.Leaves n ↔ n = t.unread.length ∨ t.unread ≠ [] ∧ t.step.Leaves n := by
  constructor
  · intro h
    cases h with
    | now => exact .inl rfl
    | later ht h => exact .inr ⟨ht, h⟩
  · rintro (rfl | ⟨ht, h⟩)
    · exact .now t
    · exact .later ht h

theorem Leaves.le {t : Transport} {n : Nat} (h : t.Leaves n) : n ≤ t.unread.length := by
  induction h with
  | now t => exact le_rfl
  | later ht _ ih => exact ih.trans (length_unread_step_lt ht).le

/-- What was written does not matter to that. -/
theorem Leaves.written {t : Transport} {n : Nat} (h : t.Leaves n) (written : List Bytes) :
    Leaves { t with written } n := by
  induction h with
  | now t => exact .now { t with written }
  | later ht _ ih => exact .later ht ih

end Transport

namespace Tunnel

open Net Call

/-- The device accepted a connection and ended it. -/
def Link.IsBrief (l : Link) : Prop :=
  l.status = .ended .unexpectedEof ∨ l.status = .ended .connectionReset

theorem Link.isBrief_of_isEstablished {l : Link} {fault : Fault} (h : l.status = .ended fault)
    (hl : l.status.isEstablished = true) : l.IsBrief := by
  rw [IsBrief, h]
  rw [h] at hl
  cases fault <;> simp_all [Status.isEstablished]

namespace Stack

variable {s t : Stack} {port : UInt16} {ps : Packets}

/-! ## Connecting -/

/-- How far the connection of a port is. -/
def statusAt? (s : Stack) (port : UInt16) : Option Link.Status :=
  (s.links.get? port).map Link.status

/-- What is told to one who awaits a connection that is over. -/
def rejected (fault : Fault) : TunnelError :=
  ⟨fault, "connection rejected by peer"⟩

/-- What is told to one who awaits an answer that does not come. -/
def unanswered : Ending → TunnelError
  | .closed => ⟨.unexpectedEof, "tunnel closed"⟩
  | .silent => ⟨.timedOut, "no SYN-ACK from peer"⟩
  | .broken fault => .bare fault

/-- A read of these packets may end while the connection of a port is made. -/
def Notices (s : Stack) (port : UInt16) (ps : Packets) : Prop :=
  ∃ whole later part rest, ps = whole ++ later ∧ Packets.bytes later = part ++ rest ∧
    cutPacket part = .incomplete ∧ s.transport.Leaves rest.length ∧
    ((s.links.hearAll s.host s.device whole).get? port).map Link.status = some .connected

theorem Notices.of_connected (h : s.Arrives ps) (hport : s.statusAt? port = some .connected) :
    s.Notices port ps :=
  ⟨[], ps, s.incoming, s.transport.unread, rfl, h.bytes.symm, h.incomplete, .now _, hport⟩

/-- What is over is over at the end of each read. -/
theorem not_notices_of_ended {fault : Fault} (hport : s.statusAt? port = some (.ended fault)) :
    ¬ s.Notices port ps := by
  rintro ⟨whole, later, part, rest, -, -, -, -, hconnected⟩
  obtain ⟨l, hl, hover⟩ := Option.map_eq_some_iff.1 hport
  obtain ⟨k, hk, hkover⟩ := Table.get?_hearAll (P := fun l => l.status = .ended fault)
    (fun _ _ h => by rwa [Link.accept_ended h]) hl hover s.host s.device whole
  simp [hk, hkover] at hconnected

/-- Unless the connection is made already, a read that may end with it made is a later one. -/
theorem notices_iff_of_read {later : Packets} (h : s.Arrives ps) (hst : Advances ps later s t)
    (hunread : s.transport.unread ≠ [])
    (hread : ∃ written, t.transport = { s.transport.step with written })
    (hport : s.statusAt? port ≠ some .connected) :
    s.Notices port ps ↔ t.Notices port later := by
  obtain ⟨written, hread⟩ := hread
  obtain ⟨⟨whole, rfl, hheard⟩, ht⟩ := hst
  constructor
  · rintro ⟨rs, us, part, rest, hps, hus, hpart, hleaves, hconnected⟩
    rcases Transport.leaves_iff.1 hleaves with hnow | ⟨-, hlater⟩
    · -- No packet is whole in what is here, so the connection would be made already.
      have hnone : rs ++ us = [] ++ (whole ++ later) := hps.symm
      obtain ⟨vs, hnil, -⟩ := Packets.exists_append_of_le (hps ▸ h.sound) hnone h.incomplete
        h.bytes.symm (by rw [hus, List.length_append]; omega)
      obtain ⟨rfl, -⟩ := List.append_eq_nil_iff.1 hnil.symm
      exact absurd hconnected hport
    · -- The packets before are whole already, so it is made by those behind them.
      have hle := hlater.le
      obtain ⟨vs, rfl, rfl⟩ := Packets.exists_append_of_le h.sound hps hpart hus (by
        rw [← ht.bytes, List.length_append, hread]
        exact hle.trans (Nat.le_add_left _ _))
      refine ⟨vs, us, part, rest, rfl, hus, hpart, ?_, ?_⟩
      · rw [hread]
        exact hlater.written written
      · rw [hheard.links, hheard.host, hheard.device]
        rwa [Table.hearAll, List.foldl_append] at hconnected
  · rintro ⟨rs, us, part, rest, rfl, hus, hpart, hleaves, hconnected⟩
    refine ⟨whole ++ rs, us, part, rest, by simp, hus, hpart, .later hunread ?_, ?_⟩
    · rw [hread] at hleaves
      exact hleaves.written s.transport.written
    · rw [hheard.links, hheard.host, hheard.device] at hconnected
      rwa [Table.hearAll, List.foldl_append]

/-- Why one gives up who awaits a connection: it is over, and it was not noticed that it was made;
or it is still not made once all packets have come. -/
inductive GivesUp (noticed : Prop) (silence : Halt TunnelError) (port : UInt16) (later : Packets)
    (t : Stack) : Halt TunnelError → Prop where
  | refused {fault : Fault} (h : t.statusAt? port = some (.ended fault)) (hn : ¬ noticed) :
    GivesUp noticed silence port later t (.failed (rejected fault))
  | silent (h : t.statusAt? port = some .connecting) (hlater : later = []) :
    GivesUp noticed silence port later t silence

/-- Awaiting an answer hears packets up to the end of a read that leaves the connection in
another state than before, or all of them. -/
theorem ends_awaitAnswer_of_arrives {fuel : Nat} (h : s.Arrives ps)
    (hport : (s.links.get? port).isSome) (hfuel : s.transport.unread.length < fuel) :
    (awaitAnswer port fuel).Ends s
      (fun _ t => ∃ later, Advances ps later s t ∧ t.statusAt? port = some .connected ∧
        s.Notices port ps)
      (fun e t => ∃ later, Advances ps later s t ∧
        GivesUp (s.Notices port ps) (halt s.transport.ending) port later t e) := by
  induction fuel generalizing s ps with
  | zero => omega
  | succ fuel ih =>
    obtain ⟨l, hl⟩ := Option.isSome_iff_exists.1 hport
    have hstatus : s.statusAt? port = some l.status := by rw [statusAt?, hl, Option.map_some]
    rw [awaitAnswer, ends_bind]
    refine (ends_linkAt hl).mono ?_ fun _ _ h => h.elim
    rintro k t ⟨hk, ht⟩
    rw [hk, ht]
    cases hs : l.status with
    | connected =>
      rw [hs] at hstatus
      exact ⟨ps, .refl h, hstatus, .of_connected h hstatus⟩
    | ended fault =>
      rw [hs] at hstatus
      exact ⟨ps, .refl h, .refused hstatus (not_notices_of_ended hstatus)⟩
    | connecting =>
      rw [hs] at hstatus
      dsimp only
      rw [ends_bind]
      refine (ends_process_of_arrives h).mono ?_ ?_
      · -- One more read; if it is noticed that the connection is made, then from here on.
        rintro _ t ⟨later, hst, hunread, hread⟩
        have hnotices : s.Notices port ps ↔ t.Notices port later :=
          notices_iff_of_read h hst hunread hread (by simp [hstatus])
        obtain ⟨k, hk, -⟩ := hst.link (P := fun _ => True) (fun _ _ _ => trivial) hl trivial
        have hless := length_unread_lt_of_read hunread hread
        rw [hnotices, ← hst.ending]
        refine (ih hst.arrives (Option.isSome_iff_exists.2 ⟨k, hk⟩) (by omega)).mono ?_ ?_
        · rintro _ u ⟨later', htu, hconnected⟩
          exact ⟨later', hst.trans htu, hconnected⟩
        · rintro e u ⟨later', htu, hover⟩
          exact ⟨later', hst.trans htu, hover⟩
      · rintro e t ⟨rfl, rfl, rfl⟩
        exact ⟨[], .refl h, .silent hstatus rfl⟩

/-- What is written changes nothing about where reads end. -/
theorem Steady.notices_iff (h : Steady s t) (hlinks : t.links = s.links) :
    t.Notices port ps ↔ s.Notices port ps := by
  obtain ⟨written, ht⟩ := h.transport
  rw [Notices, Notices, hlinks, h.host, h.device, ht]
  have hleaves (n : Nat) :
      Transport.Leaves { s.transport with written } n ↔ s.transport.Leaves n :=
    ⟨fun h => h.written s.transport.written, fun h => h.written written⟩
  simp only [hleaves]

/-- Greeting does the same, within a limit. -/
theorem ends_greet_of_arrives (h : s.Arrives ps) (hport : (s.links.get? port).isSome) :
    (greet port).Ends s
      (fun _ t => ∃ later, Advances ps later s t ∧ t.statusAt? port = some .connected ∧
        s.Notices port ps)
      (fun e t => ∃ later, Advances ps later s t ∧
        GivesUp (s.Notices port ps) (.failed (unanswered s.transport.ending)) port later t e) := by
  obtain ⟨l, hl⟩ := Option.isSome_iff_exists.1 hport
  rw [greet, ends_bind]
  refine (ends_transmit_of_writable h.writable hl _).mono ?_ fun _ _ h => h.elim
  rintro _ t ⟨hlinks, ht⟩
  have hst : Advances ps ps s t := ht.advances hlinks h
  rw [ends_within, ends_bind, ends_get, ← ht.notices_iff hlinks, ← ht.ending]
  refine (ends_awaitAnswer_of_arrives hst.arrives (hlinks ▸ hport) (Nat.lt_succ_self _)).mono ?_ ?_
  · rintro _ u ⟨later, htu, hconnected⟩
    exact ⟨later, hst.trans htu, hconnected⟩
  · rintro e u ⟨later, htu, hover⟩
    cases hover with
    | refused h hn => exact ⟨later, hst.trans htu, .refused h hn⟩
    | silent h hlater =>
      -- Only silence meets the limit: a tunnel that has failed is found out before.
      cases t.transport.ending <;> exact ⟨later, hst.trans htu, .silent h hlater⟩

/-- The stack once it has asked for a connection. -/
def asking (s : Stack) (port peerPort : UInt16) (first : UInt32) : Stack :=
  { s with links := s.links.insert port { peerPort, sequence := first } }

theorem get?_asking (hfree : s.links.get? port = none) (peerPort : UInt16) (first : UInt32) :
    (s.asking port peerPort first).links.get? port = some { peerPort, sequence := first } := by
  rw [asking, Table.get?_insert _ _ _ _ hfree, if_pos rfl]

/-- A read that ends with the connection made is an answer; one that ends with it over is a
refusal, and the connection is forgotten. -/
theorem ends_connect_of_arrives (h : s.Arrives ps) {draws : List Draw}
    (hport : freePort? s.links draws = some port) (peerPort : UInt16) (first : UInt32) :
    (connect peerPort draws first).Ends s
      (fun p t => p = port ∧ ∃ later, Advances ps later (s.asking port peerPort first) t ∧
        t.statusAt? port = some .connected ∧ (s.asking port peerPort first).Notices port ps)
      (fun e t => t.links.get? port = none ∧ ∃ u later, t.Arrives later ∧
        Advances ps later (s.asking port peerPort first) u ∧
        GivesUp ((s.asking port peerPort first).Notices port ps)
          (.failed (unanswered s.transport.ending)) port later u e) := by
  obtain ⟨hfree, -⟩ := get?_freePort? hport
  rw [connect, ends_bind, ends_get, hport]
  dsimp only
  rw [ends_bind, ends_modify, ends_bind, record, ends_modify, ends_bind, ends_attempt]
  let r : Stack :=
    { s.asking port peerPort first with journal := .opened port peerPort first :: s.journal }
  have hr : r.Arrives ps := ⟨⟨h.writable.allowance, h.writable.families⟩, h.sound, h.bytes,
    h.incomplete⟩
  have hl : (r.links.get? port).isSome :=
    Option.isSome_iff_exists.2 ⟨_, get?_asking hfree peerPort first⟩
  have hrt {later : Packets} {t : Stack} (ht : Advances ps later r t) :
      Advances ps later (s.asking port peerPort first) t := by
    obtain ⟨⟨whole, hps, hheard⟩, harrives⟩ := ht
    exact ⟨⟨whole, hps, hheard.links, hheard.host, hheard.device, hheard.ending⟩, harrives⟩
  refine Ends.mono (s := r) (ends_greet_of_arrives hr hl) ?_ ?_
  · rintro _ t ⟨later, ht, hconnected⟩
    exact ⟨rfl, later, hrt ht, hconnected⟩
  · -- The caller is told nothing of the connection, which is forgotten.
    rintro e u ⟨later, hu, hover⟩
    have hgone : (u.links.erase port).get? port = none := by
      rw [Table.get?_erase, if_pos rfl]
    have hforget : Arrives { u with
        links := u.links.erase port
        journal := .forgotten port :: u.journal } later :=
      ⟨⟨hu.arrives.writable.allowance, hu.arrives.writable.families⟩, hu.arrives.sound,
        hu.arrives.bytes, hu.arrives.incomplete⟩
    cases hover with
    | refused h hn => exact ⟨hgone, u, later, hforget, hrt hu, .refused h hn⟩
    | silent h hlater => exact ⟨hgone, u, later, hforget, hrt hu, .silent h hlater⟩

/-! ## Outcomes -/

/-- Processes packets until nothing is unread. Each read takes one byte at least. -/
def drain : Nat → Call TunnelError Stack Unit
  | 0 => return
  | fuel + 1 => do
    if (← get).transport.unread.isEmpty then return
    process
    drain fuel

/-- Takes what is left of a connection: the bytes received on it, and how far it is. -/
def inspect (port : UInt16) : Call TunnelError Stack (Bytes × Link.Status) := do
  let status ← status port
  return (← take port, status)

/-- What is left of a connection once everything was processed. -/
def aftermath (port : UInt16) :
    Call TunnelError Stack (Except TunnelError (Bytes × Link.Status)) := do
  drain (← get).transport.unread.length
  Call.attempt (inspect port)

/-- What comes of a connection: the answer to its caller, and what is left of it in the end. -/
structure Outcome where
  answer : Except TunnelError UInt16
  left : Except TunnelError (Bytes × Link.Status)

/-- Connects, processes everything, and looks at what is left of the connection. -/
def trial (peerPort : UInt16) (draws : List Draw) (first : UInt32) :
    Call TunnelError Stack Outcome := do
  match freePort? (← get).links draws with
  | none => throw .waiting
  | some port =>
    let answer : Except TunnelError UInt16 ← Call.attempt (connect peerPort draws first)
    return { answer, left := ← aftermath port }

theorem ends_drain {fuel : Nat} (h : s.Arrives ps) (hfuel : s.transport.unread.length ≤ fuel) :
    (drain fuel).Ends s (fun _ t => t.links = s.links.hearAll s.host s.device ps)
      (fun _ _ => False) := by
  induction fuel generalizing s ps with
  | zero =>
    obtain rfl := h.eq_nil (List.length_eq_zero_iff.1 (by omega))
    rfl
  | succ fuel ih =>
    rw [drain, ends_bind, ends_get]
    split
    · next hunread =>
      obtain rfl := h.eq_nil (List.isEmpty_iff.1 hunread)
      rfl
    · next hunread =>
      rw [ends_bind]
      refine (ends_process_of_arrives h).mono ?_ ?_
      · rintro _ t ⟨later, hst, hunread, hread⟩
        have hless := length_unread_lt_of_read hunread hread
        rw [← hst.hearAll]
        exact ih hst.arrives (by omega)
      · rintro e t ⟨rfl, -, -⟩
        have hbytes := h.bytes
        simp_all [Packets.bytes]

/-- What can be taken from a connection, if it is there. -/
def leftOf : Option Link → Except TunnelError (Bytes × Link.Status)
  | some l => .ok (l.received, l.status)
  | none => .error (.bare .notConnected)

theorem ends_inspect (s : Stack) (port : UInt16) :
    (Call.attempt (inspect port) : Call TunnelError Stack _).Ends s
      (fun r _ => r = leftOf (s.links.get? port)) (fun _ _ => False) := by
  rw [ends_attempt, inspect, ends_bind, status, ends_bind]
  cases hl : s.links.get? port with
  | none =>
    refine (ends_linkAt_none hl).mono (fun _ _ h => h.elim) ?_
    rintro _ _ ⟨rfl, -⟩
    rfl
  | some l =>
    refine (ends_linkAt hl).mono ?_ fun _ _ h => h.elim
    rintro _ t ⟨rfl, rfl⟩
    rw [ends_pure, ends_bind, take, ends_bind]
    refine (ends_linkAt hl).mono ?_ fun _ _ h => h.elim
    rintro _ u ⟨rfl, rfl⟩
    rfl

theorem ends_aftermath (h : s.Arrives ps) (port : UInt16) :
    (aftermath port).Ends s
      (fun r _ => r = leftOf ((s.links.hearAll s.host s.device ps).get? port))
      (fun _ _ => False) := by
  rw [aftermath, ends_bind, ends_get, ends_bind]
  refine (ends_drain h le_rfl).mono ?_ fun _ _ h => h
  intro _ t ht
  rw [← ht]
  exact ends_inspect t port

/-- The connection that is asked for, once everything was processed. -/
def finalLink? (s : Stack) (port peerPort : UInt16) (first : UInt32) (ps : Packets) : Option Link :=
  ((s.asking port peerPort first).links.hearAll s.host s.device ps).get? port

/-- It can be followed through all packets, whenever the caller gave up. -/
theorem Advances.finalLink?_eq {peerPort : UInt16} {first : UInt32} {later : Packets}
    (h : Advances ps later (s.asking port peerPort first) t) :
    s.finalLink? port peerPort first ps = (t.links.hearAll t.host t.device later).get? port := by
  rw [h.hearAll]
  rfl

/-- What an outcome says of the connection as it is after all packets: the caller got it, if it
was noticed; or found it over, or found it waiting still. -/
inductive Outcome.Tells (port : UInt16) (ending : Ending) (noticed : Prop) (l : Link) :
    Outcome → Prop where
  | granted (hn : noticed) (h : l.status.isEstablished = true) :
    Tells port ending noticed l ⟨.ok port, .ok (l.received, l.status)⟩
  | rejected {fault : Fault} (hn : ¬ noticed) (h : l.status = .ended fault) :
    Tells port ending noticed l ⟨.error (rejected fault), .error (.bare .notConnected)⟩
  | unanswered (h : l.status = .connecting) :
    Tells port ending noticed l ⟨.error (unanswered ending), .error (.bare .notConnected)⟩

theorem ends_trial (h : s.Arrives ps) {draws : List Draw}
    (hport : freePort? s.links draws = some port) (peerPort : UInt16) (first : UInt32) :
    (trial peerPort draws first).Ends s
      (fun r _ => ∃ l, s.finalLink? port peerPort first ps = some l ∧
        r.Tells port s.transport.ending ((s.asking port peerPort first).Notices port ps) l)
      (fun _ _ => False) := by
  rw [trial, ends_bind, ends_get, hport]
  dsimp only
  rw [ends_bind, ends_attempt]
  refine (ends_connect_of_arrives h hport peerPort first).mono ?_ ?_
  · -- The caller has the connection, and it is not refused any more.
    rintro p t ⟨rfl, later, hst, hconnected, hnoticed⟩
    obtain ⟨k, hk, hkc⟩ := Option.map_eq_some_iff.1 hconnected
    obtain ⟨l, hl, hestablished⟩ :=
      Table.get?_hearAll (P := fun l => l.status.isEstablished = true)
        (fun _ _ h => Link.Status.isEstablished_accept h) hk
        (by simp [hkc, Link.Status.isEstablished]) t.host t.device later
    rw [ends_bind]
    refine (ends_aftermath hst.arrives _).mono ?_ fun _ _ h => h
    rintro _ u rfl
    rw [hl]
    exact ⟨l, hst.finalLink?_eq.trans hl, .granted hnoticed hestablished⟩
  · -- The connection is forgotten, and packets do not bring it back.
    rintro e t ⟨hgone, u, later, ht, hsu, hover⟩
    have hnone := Table.get?_hearAll_none hgone t.host t.device later
    cases hover with
    | @refused fault hover hn =>
      obtain ⟨k, hk, hkover⟩ := Option.map_eq_some_iff.1 hover
      obtain ⟨l, hl, hlover⟩ := Table.get?_hearAll (P := fun l => l.status = .ended fault)
        (fun _ _ h => by rwa [Link.accept_ended h]) hk hkover u.host u.device later
      dsimp only
      rw [ends_bind]
      refine (ends_aftermath ht _).mono ?_ fun _ _ h => h
      rintro _ v rfl
      rw [hnone]
      exact ⟨l, hsu.finalLink?_eq.trans hl, .rejected hn hlover⟩
    | silent hwaits hlater =>
      subst hlater
      obtain ⟨k, hk, hkwaits⟩ := Option.map_eq_some_iff.1 hwaits
      dsimp only
      rw [ends_bind]
      refine (ends_aftermath ht _).mono ?_ fun _ _ h => h
      rintro _ v rfl
      rw [hnone]
      exact ⟨k, hsu.finalLink?_eq.trans hk, .unanswered hkwaits⟩

/-- A stack whose reads end elsewhere. -/
def paced (s : Stack) (pace : Nat → Option Nat) : Stack :=
  { s with transport := { s.transport with pace } }

/-- What comes of a connection, if asking for it ends. -/
def outcome (s : Stack) (peerPort : UInt16) (draws : List Draw) (first : UInt32) : Option Outcome :=
  match trial peerPort draws first s with
  | .ok r _ => some r
  | .error _ _ => none

/-- What was noticed of a brief connection, and its packets, tell the outcome. -/
theorem Outcome.Tells.eq {ending : Ending} {noticed noticed' : Prop} {l : Link} {r r' : Outcome}
    (h : r.Tells port ending noticed l) (h' : r'.Tells port ending noticed' l)
    (hbrief : l.IsBrief → (noticed ↔ noticed')) : r = r' := by
  cases h with
  | granted hn h =>
    cases h' with
    | granted => rfl
    | rejected hn' h' =>
      exact absurd ((hbrief (Link.isBrief_of_isEstablished h' h)).1 hn) hn'
    | unanswered h' => simp [h', Link.Status.isEstablished] at h
  | @rejected fault hn h =>
    cases h' with
    | granted hn' h' =>
      exact absurd ((hbrief (Link.isBrief_of_isEstablished h h')).2 hn') hn
    | @rejected fault' hn' h' =>
      obtain rfl : fault = fault' := by simpa [h] using h'
      rfl
    | unanswered h' => simp [h] at h'
  | unanswered h =>
    cases h' with
    | granted hn' h' => simp [h, Link.Status.isEstablished] at h'
    | rejected hn' h' => simp [h] at h'
    | unanswered => rfl

/-- Asking for a connection ends, and the connection after all packets tells with what. -/
theorem exists_outcome (h : s.Arrives ps) {draws : List Draw}
    (hport : freePort? s.links draws = some port) (peerPort : UInt16) (first : UInt32) :
    ∃ r ∈ s.outcome peerPort draws first, ∃ l ∈ s.finalLink? port peerPort first ps,
      r.Tells port s.transport.ending ((s.asking port peerPort first).Notices port ps) l := by
  have htrial := ends_trial h hport peerPort first
  rw [Call.Ends] at htrial
  rw [outcome]
  split at htrial
  · next r _ heq =>
    obtain ⟨l, hl, htells⟩ := htrial
    rw [heq]
    exact ⟨r, rfl, l, hl, htells⟩
  · exact htrial.elim

/-- Where reads end does not matter to what comes of a connection: to the answer, what is received
and how far the connection gets. The only exception is a connection that the device accepts and
ends, and that with one way of reading is made when some read ends, and with the other is not. -/
theorem outcome_eq (h : s.Arrives ps) {draws : List Draw}
    (hport : freePort? s.links draws = some port) (peerPort : UInt16) (first : UInt32)
    (pace pace' : Nat → Option Nat)
    (hbrief : (∃ l ∈ s.finalLink? port peerPort first ps, l.IsBrief) →
      (((s.paced pace).asking port peerPort first).Notices port ps ↔
        ((s.paced pace').asking port peerPort first).Notices port ps)) :
    (s.paced pace).outcome peerPort draws first = (s.paced pace').outcome peerPort draws first := by
  have harrives (pace : Nat → Option Nat) : (s.paced pace).Arrives ps :=
    ⟨⟨h.writable.allowance, h.writable.families⟩, h.sound, h.bytes, h.incomplete⟩
  obtain ⟨r, hr, l, hl, htells⟩ := exists_outcome (harrives pace) hport peerPort first
  obtain ⟨r', hr', l', hl', htells'⟩ := exists_outcome (harrives pace') hport peerPort first
  obtain rfl : l = l' := Option.some.inj (hl.symm.trans hl')
  have hrr : r = r' := htells.eq htells' fun hshort => hbrief ⟨l, hl, hshort⟩
  rw [hr, hr', hrr]

/-- A stack to which the device sends some segments, whatever it is sent. -/
def awaiting (xs : List Segment) : Stack :=
  ofEnds { Ends.sample with
    transport := { unread := xs.flatMap Ends.sample.packet, ending := .silent } }

/-- The packets with these segments. -/
def carriers (xs : List Segment) : Packets :=
  xs.map fun x => (Ends.sample.packet x,
    { source := Ends.sample.device, destination := Ends.sample.host, protocol := protocolTcp,
      payload := (x.toBytes Ends.sample.device Ends.sample.host).toOption.getD [] })

/-- The device accepts and sends two bytes. -/
def replying : List Segment :=
  replies.take 2

/-- It sends another with the end. -/
def hasty : List Segment :=
  replying ++ replies.drop 3

theorem arrives_replying : (awaiting replying).Arrives (carriers replying) := by
  refine ⟨⟨rfl, _, rfl⟩, ?_, by cbv, rfl⟩
  intro x hx
  simp only [carriers, replying, replies, List.take_succ_cons, List.take_zero, List.map_cons,
    List.map_nil, List.mem_cons, List.not_mem_nil, or_false] at hx
  rcases hx with rfl | rfl
  · cbv
  · cbv

theorem finalLink?_replying :
    (awaiting replying).finalLink? 49152 80 7 (carriers replying) =
      some { peerPort := 80, sequence := 8, expected := 1, received := [1, 2],
             status := .connected } := by
  cbv

theorem outcome_replying :
    (awaiting replying).Arrives (carriers replying) ∧
      freePort? (awaiting replying).links [0] = some 49152 ∧
      ((awaiting replying).paced fun _ => none).outcome 80 [0] 7 =
        ((awaiting replying).paced fun _ => some 1).outcome 80 [0] 7 := by
  have hopen : ¬ ∃ l ∈ (awaiting replying).finalLink? 49152 80 7 (carriers replying),
      l.IsBrief := by
    rintro ⟨l, hl, hbrief⟩
    rw [finalLink?_replying] at hl
    cases hl
    rcases hbrief with h | h <;> cases h
  exact ⟨arrives_replying, rfl,
    outcome_eq arrives_replying rfl 80 7 _ _ fun hbrief => absurd hbrief hopen⟩

/-- It does matter where reads end: a connection that the device accepts and ends is lost with
what it brought if all of it comes in one read, and granted if the acceptance comes alone. -/
theorem outcome_hasty :
    ((awaiting hasty).paced fun _ => none).outcome 80 [0] 7 =
        some ⟨.error (rejected .unexpectedEof), .error (.bare .notConnected)⟩ ∧
      ((awaiting hasty).paced fun n => if n = 0 then some 40 else none).outcome 80 [0] 7 =
        some ⟨.ok 49152, .ok ([1, 2, 3], .ended .unexpectedEof)⟩ := by
  constructor
  · cbv
  · cbv

end Stack

end Tunnel

end Tether
