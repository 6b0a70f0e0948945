import Tether.Proofs.Tunnel.Failure
import Tether.Proofs.Tunnel.Tallying

/-!
# What users write

What becomes of the bytes that were written is told by the next flush. When the request to send them
is served, they go to the connection that has the port of the stream then. As long as no two streams
have one port, that is the stream's own connection, whether it is open or not.

* `Credits`: what holds of the accounts of streams, against the writes;
* `Accurate.step`: what holds of a chronicle after one more act;
* `Chronicle.accurate_run`: what holds of a chronicle whose streams have different ports.
-/

namespace Tether.Tunnel

open Net Call

namespace Switchboard

/-! ## Accounts of streams -/

/-- What holds of the accounts of streams whose ports are different. The accounts before `first` were
begun before the session. -/
structure Credits (first : Nat) (m : Records) (owners : List Nat) (b : Switchboard) : Prop where
  first_le : first ≤ b.stack.ledger.accounts.length
  newer : ∀ n ∈ owners, first ≤ n
  queued : ∀ (i : Nat) n a, owners[i]? = some n → b.stack.ledger.accounts[n]? = some a →
    a.queued = (m.admittedOf i).flatMap Write.bytes
  spent : b.stack.journal.Lossless → ∀ n ∈ owners, ∀ a, b.stack.ledger.accounts[n]? = some a →
    a.pending = []

namespace Credits

variable {first n : Nat} {m m' : Records} {owners new : List Nat} {b c : Switchboard}
  {ticket next : Option Nat} {request : Request} {later : List (Nat × Request)} {port : UInt16}
  {x : Write}

/-- Users go on, and nothing happens to the connections. -/
theorem asks (h : Credits first m owners b) (hj : c.stack.journal = b.stack.journal)
    {xs : List Write} (hw : m'.writes = m.writes ++ xs) (ha : m'.admitted = m.admitted)
    (hxs : ∀ x ∈ xs, x.ticket ∉ m.admitted) : Credits first m' owners c := by
  have hledger : c.stack.ledger = b.stack.ledger := by rw [Stack.ledger, Stack.ledger, hj]
  refine ⟨hledger ▸ h.first_le, h.newer, fun i n a hn hacc => ?_, fun hless => ?_⟩
  · rw [Records.admittedOf_of_asks hw ha hxs]
    exact h.queued i n a hn (hledger ▸ hacc)
  · rw [hledger]
    exact h.spent (hj ▸ hless)

/-- Accounts are about the stack alone. -/
theorem congr (h : Credits first m owners b) (hs : c.stack = b.stack) : Credits first m owners c :=
  ⟨hs ▸ h.first_le, h.newer, hs ▸ h.queued, hs ▸ h.spent⟩

/-- The rest of a turn queues nothing. -/
theorem proceeds (h : Credits first m owners b) (ht : Tallies m owners b) (hb : Booked m b)
    (howners : owners.length = b.streams.length) (hc : Proceeds ticket next Unqueued b c)
    (hnew : ∀ n ∈ new, n = b.stack.ledger.accounts.length) :
    Credits first m (owners ++ new) c := by
  obtain ⟨es, hj, hes, -⟩ := hc.grows.events
  have hledger : c.stack.ledger = Ledger.ofJournal (es ++ b.stack.journal) := by
    rw [Stack.ledger, hj]
  refine ⟨?_, fun n hn => ?_, fun i n a hn ha => ?_, fun hless n hn a ha => ?_⟩
  · rw [hledger]
    exact Nat.le_trans h.first_le (Ledger.length_accounts_le es _)
  · rcases List.mem_append.1 hn with hn | hn
    · exact h.newer n hn
    · exact hnew n hn ▸ h.first_le
  · rw [hledger] at ha
    by_cases hi : i < owners.length
    · have hn : owners[i]? = some n := (List.getElem?_append_left hi).symm.trans hn
      obtain ⟨a₀, ha₀, -⟩ := ht.met n (List.mem_of_getElem? hn)
      rw [Ledger.queued_append hes ha₀ ha]
      exact h.queued i n a₀ hn ha₀
    · -- Nothing was written to a stream that was just opened, and its account is new.
      rw [List.getElem?_append_right (Nat.le_of_not_lt hi)] at hn
      rw [hb.admittedOf_eq_nil (howners ▸ Nat.le_of_not_lt hi)]
      refine Ledger.account_append (P := fun a => a.queued = []) (fun _ _ _ _ => rfl)
        (fun a ha => ?_) (fun a e he ha => ?_) a ha
      · rw [hnew n (List.mem_of_getElem? hn)] at ha
        exact absurd (List.getElem?_eq_some_iff.1 ha).1 (Nat.lt_irrefl _)
      · have hun := hes e he
        cases e <;> first | exact ha | cases hun
  · have hnote : ∀ (a : Account), ∀ e ∈ es, a.pending = [] → (a.note e).pending = [] := by
      intro a e he ha
      have hun := hes e he
      cases e with
      | queued => cases hun
      | sent x => exact (congrArg _ ha).trans (List.drop_nil)
      | lost x => exact (ite_eq_right_iff.2 fun _ => ha)
      | _ => exact ha
    rw [hledger] at ha
    refine Ledger.account_append (P := fun a => a.pending = []) (fun _ _ _ _ => rfl)
      (fun a ha => ?_) hnote a ha
    rcases List.mem_append.1 hn with hn | hn
    · exact h.spent (hc.grows.lossless hless) n hn a ha
    · rw [hnew n hn] at ha
      exact absurd (List.getElem?_eq_some_iff.1 ha).1 (Nat.lt_irrefl _)

/-- A request to send is served, and its bytes go to the connection of its stream. -/
theorem letThrough {s : Stack} (h : Credits first m owners b) (ht : Tallies m owners b)
    (hb : Booked m b) (hr : b.requests = (x.ticket, request) :: later) (hx : x ∈ m.writes)
    (hn : owners[x.stream]? = some n) (hheld : b.stack.ledger.holder port = some n)
    (hown : ∀ j : Nat, owners[j]? = some n → j = x.stream) (hs : Admits port x.bytes b.stack s)
    (r : Except TunnelError Nat) :
    Credits first { m with admitted := m.admitted ++ [x.ticket] } owners
      { b with requests := later, stack := s, outcomes := b.outcomes ++ [(x.ticket, r)] } := by
  obtain ⟨es, hledger, hturn⟩ := hs.exists_append
  have hlast : ∀ t ∈ m.admitted, t < x.ticket := fun t ht =>
    (hb.served t ht).2 _ (hr ▸ List.mem_cons_self)
  refine ⟨?_, h.newer, fun i k a hk ha => ?_, fun hless k hk a ha => ?_⟩
  · dsimp only
    rw [hledger]
    exact Nat.le_trans h.first_le (Ledger.length_accounts_le _ _)
  · obtain ⟨a₀, ha₀, -⟩ := ht.met k (List.mem_of_getElem? hk)
    rw [hs.queued_eq ha₀ ha, Records.admittedOf_append hb.sorted hx hlast, hheld,
      List.flatMap_append, ← h.queued i k a₀ hk ha₀]
    by_cases hkn : k = n
    · subst hkn
      rw [if_pos rfl, if_pos (hown i hk).symm]
      simp
    · have hi : x.stream ≠ i := by
        rintro rfl
        exact hkn (Option.some.inj (hk.symm.trans hn))
      rw [if_neg fun hs => hkn (Option.some.inj hs).symm, if_neg hi]
      simp
  · -- A connection that is there has nothing left to send, and on the others nothing happens.
    dsimp only at ha
    by_cases hp : ∃ p, s.ledger.holder p = some k
    · obtain ⟨p, hp⟩ := hp
      exact hs.spent hless p a (Ledger.at?_eq_some_iff.2 ⟨k, hp, ha⟩)
    · have hfree : ∀ p, b.stack.ledger.holder p ≠ some k := by
        intro p hpk
        refine hp ⟨p, ?_⟩
        rw [hledger, Ledger.holder_append fun e he ht => ?_]
        · exact hpk
        · rw [hturn e he] at ht
          cases ht
      rw [hledger, Ledger.getElem?_append_of_not_held (ht.lt_length hk) hfree] at ha
      exact h.spent (hs.grows.lossless hless) k hk a ha

end Credits

end Switchboard

/-! ## Ports of streams -/

namespace Session

open Switchboard

variable {w : Session} {i j n : Nat} {s t : Stream}

/-- The host ports of all streams, which no two of them share if no port was handed out twice. -/
def ports (w : Session) : List UInt16 :=
  w.board.streams.map Stream.port

theorem eq_of_port_eq (h : w.ports.Nodup) (hs : w.board.streams[i]? = some s)
    (ht : w.board.streams[j]? = some t) (hp : s.port = t.port) : i = j := by
  have hi : i < w.ports.length := by
    rw [ports, List.length_map]
    exact (List.getElem?_eq_some_iff.1 hs).1
  refine (List.getElem?_inj hi h).1 ?_
  rw [ports, List.getElem?_map, List.getElem?_map, hs, ht]
  exact congrArg some hp

/-- A stream keeps its port. -/
theorem Sound.port_step (hw : w.Sound) (hs : w.board.streams[i]? = some s) (act : Act) :
    ∃ t, (w.step act).board.streams[i]? = some t ∧ t.port = s.port := by
  by_cases hturn : ∃ t, act = .turn t
  · obtain ⟨turn, rfl⟩ := hturn
    cases hr : w.board.isRunning with
    | false => exact ⟨s, by rw [board_step_of_stopped hr, hs], rfl⟩
    | true =>
      obtain ⟨t, ht, hkin⟩ := (hw.turned turn hr).streams hs
      exact ⟨t, ht, hkin.port⟩
  · have hturn : ∀ t, act ≠ .turn t := fun t ht => hturn ⟨t, ht⟩
    by_cases hasks : (∀ i bytes, act ≠ .write i bytes) ∧ ∀ i, act ≠ .flush i
    · obtain ⟨t, ht, hkin⟩ := (asked_call (b := w.board) act hturn hasks.1 hasks.2).streams i s hs
      exact ⟨t, ht, hkin.port⟩
    · have hasks : Asks w.board (w.step act).board := by
        cases act with
        | write | flush => exact asks_step w rfl
        | _ => exact absurd ⟨nofun, nofun⟩ hasks
      obtain ⟨t, ht, hlike⟩ := hasks.alike i s hs
      exact ⟨t, ht, hlike.port⟩

/-- The ports of the streams are there for good. -/
theorem Sound.ports_prefix (hw : w.Sound) (act : Act) : w.ports <+: (w.step act).ports := by
  refine List.prefix_iff_eq_take.2 (List.ext_getElem? fun i => ?_)
  rw [List.getElem?_take]
  split
  · next hi =>
    rw [ports, List.length_map] at hi
    obtain ⟨t, ht, hp⟩ := hw.port_step (List.getElem?_eq_getElem hi) act
    rw [ports, ports, List.getElem?_map, List.getElem?_map, ht, List.getElem?_eq_getElem hi]
    exact congrArg some hp.symm
  · next hi => exact List.getElem?_eq_none (Nat.le_of_not_lt hi)

theorem Sound.ports_prefix_play (hw : w.Sound) (acts : List Act) :
    w.ports <+: (w.play acts).ports := by
  induction acts generalizing w with
  | nil => exact List.prefix_rfl
  | cons act acts ih => exact (hw.ports_prefix act).trans (ih (hw.step act))

end Session

/-! ## Chronicles -/

namespace Chronicle

open Switchboard

/-- What holds of the chronicle of a session around the stack `s`. -/
structure Accurate (s : Stack) (c : Chronicle) : Prop where
  sound : c.Sound
  numbered : c.board.Numbered
  routes : Routes (fun p n => s.ledger.holder p = some n) c.board
  hushed : Hushed c.board
  booked : Booked c.toRecords c.board
  tallies : Tallies c.toRecords c.owners c.board
  credits : Credits s.ledger.accounts.length c.toRecords c.owners c.board

namespace Accurate

variable {s : Stack} {c : Chronicle} {x : Write} {port : UInt16} {bytes : Bytes} {ticket : Nat}
  {later : List (Nat × Request)}

theorem kept (h : Accurate s c) : c.board.stack.Kept := by
  obtain ⟨_, -, hd⟩ := h.sound.serves 0
  exact hd.kept

/-- The connection of a stream, as long as no other stream has had the port. -/
theorem holder_eq (h : Accurate s c) (hnodup : c.ports.Nodup) (hr : c.board.isRunning = true)
    {i k : Nat} {u : Stream} (hu : c.board.streams[i]? = some u)
    (hk : c.board.stack.ledger.holder u.port = some k) :
    c.owners[i]? = some k ∧ ∀ j : Nat, c.owners[j]? = some k → j = i := by
  obtain ⟨live, hlive, hd⟩ := h.sound.serves 0
  obtain rfl := hlive hr
  have hi : i < c.owners.length := h.sound.owners ▸ (List.getElem?_eq_some_iff.1 hu).1
  have hn : c.owners[i]? = some c.owners[i] := List.getElem?_eq_getElem hi
  have hown : c.owners[i]? = some k := by
    obtain ⟨a, ha, hport⟩ := h.sound.exists_account hu hn
    rcases h.routes hr u.port k hk with hold | hroute
    · -- The connections from before the session have older accounts.
      obtain ⟨b, -, hb, -⟩ := (Ledger.sound_ofJournal s.journal).exists_at? hold
      have hle := Ledger.latest_ofJournal c.board.stack.journal u.port k _ a hk ha hport
      have hnew := h.credits.newer _ (List.getElem_mem hi)
      have hlt := (List.getElem?_eq_some_iff.1 hb).1
      exact absurd (Nat.le_trans hnew hle) (Nat.not_le.2 hlt)
    · obtain ⟨⟨p, j⟩, hroute, rfl⟩ := List.mem_map.1 hroute
      have hheld := hd.held _ hroute
      obtain ⟨v, hv⟩ := hd.exists_stream hroute
      have hj : c.owners[j]? = some k := by
        have hlt : j < c.owners.length := h.sound.owners ▸ hd.known _ hroute
        have hk' := Option.some.inj (hheld.symm.trans hk)
        dsimp only [Session.notes] at hk'
        rw [List.getElem?_eq_getElem hlt] at hk' ⊢
        exact congrArg some hk'
      obtain ⟨b, hb, hp⟩ := h.sound.exists_account hv hj
      obtain ⟨b', -, hb', hp'⟩ := (Ledger.sound_ofJournal _).exists_at? hk
      obtain rfl := Option.some.inj (hb.symm.trans hb')
      rwa [Session.eq_of_port_eq hnodup hu hv (hp'.symm.trans hp)]
  refine ⟨hown, fun j hj => ?_⟩
  have hlt : j < c.board.streams.length := h.sound.owners ▸ (List.getElem?_eq_some_iff.1 hj).1
  obtain ⟨a, ha, hp⟩ := h.sound.exists_account hu hown
  obtain ⟨b, hb, hp'⟩ := h.sound.exists_account (List.getElem?_eq_getElem hlt) hj
  obtain rfl := Option.some.inj (ha.symm.trans hb)
  exact Session.eq_of_port_eq hnodup (List.getElem?_eq_getElem hlt) hu (hp'.symm.trans hp)

/-- What a turn does to what was written. -/
theorem credits_turn (h : Accurate s c) (hnodup : c.ports.Nodup) (hr : c.board.isRunning = true)
    (turn : Turn) :
    Credits s.ledger.accounts.length
      { c.toRecords with admitted := c.admitted ++ (Act.turn turn).admits c.board }
      (c.step (.turn turn)).owners (c.step (.turn turn)).board := by
  obtain ⟨live', -, hkept'⟩ := (h.sound.step (.turn turn)).serves 0
  rw [owners_step]
  have hturned : Turned c.board turn (c.step (.turn turn)).board := h.sound.turned turn hr
  cases hturned with
  | @serves ticket request later _ hrequests hsend hc =>
    have hbooked := h.booked.pass hrequests [] nofun
    have htallies := h.tallies.pass hrequests [] fun x hx ht => by
      obtain ⟨u, -, hu⟩ := h.booked.eq_send hrequests hx ht
      exact absurd hu (hsend _ _)
    rw [List.append_nil] at hbooked htallies
    rw [admits_of_serves hrequests hsend, List.append_nil]
    refine Credits.proceeds ?_ htallies hbooked h.sound.owners hc fun n hn => ?_
    · exact h.credits.congr rfl
    · exact (new_owners hc (fun n hn => (Option.some.inj hn).symm) rfl n hn).1
  | @admits ticket port bytes later t r _ hrequests hopen hs hc =>
    obtain ⟨x, hx, rfl⟩ := h.booked.asked _ _ _ (hrequests ▸ List.mem_cons_self)
    obtain ⟨u, hu, heq⟩ := h.booked.eq_send hrequests hx rfl
    obtain ⟨rfl, rfl⟩ := Request.send.inj heq
    obtain ⟨l, hl, -⟩ := Stack.isConnected_iff.1 hopen
    obtain ⟨a, ha, -⟩ := h.kept.exists_account hl
    obtain ⟨n, hn, -⟩ := Ledger.at?_eq_some_iff.1 ha
    obtain ⟨hown, hunique⟩ := h.holder_eq hnodup hr hu hn
    have hcredits := h.credits.letThrough h.tallies h.booked hrequests hx hown hn hunique hs r
    have htallies := h.tallies.letThrough h.booked hrequests hx
      (fun n hn ho => (h.sound.holder_of_isOpen hu hn ho).1) hs r
    rw [admits_of_admits hrequests hr hopen]
    exact hcredits.proceeds htallies (h.booked.letThrough hrequests t r) h.sound.owners hc
      fun n hn => absurd hn (by rw [hc.length.resolve_right (by simp)]; simp)
  | @refuses ticket port bytes later e _ hrequests hopen hc =>
    have hbooked := h.booked.pass hrequests [(ticket, .error e)] fun o ho =>
      ⟨e, congrArg Prod.snd (List.mem_singleton.1 ho)⟩
    have htallies := h.tallies.pass hrequests [(ticket, .error e)] fun x hx ht n hn => by
      obtain ⟨u, hu, heq⟩ := h.booked.eq_send hrequests hx ht
      exact h.sound.not_isOpen hopen hu (Request.send.inj heq).1.symm hn
    rw [admits_of_refuses hrequests hopen, List.append_nil]
    refine Credits.proceeds ?_ htallies hbooked h.sound.owners hc fun n hn => ?_
    · exact h.credits.congr rfl
    · exact (new_owners hc nofun rfl n hn).1
  | passes hrequests hc =>
    rw [admits_of_passes hrequests, List.append_nil]
    exact h.credits.proceeds h.tallies h.booked h.sound.owners hc fun n hn =>
      (new_owners hc nofun rfl n hn).1

theorem step (h : Accurate s c) (hnodup : c.ports.Nodup) (act : Act) : Accurate s (c.step act) := by
  suffices hcredits : Credits s.ledger.accounts.length (c.step act).toRecords
      (c.step act).owners (c.step act).board from
    ⟨h.sound.step act, (numbers_call act).state c.board h.numbered,
      h.sound.routes_step h.routes act, h.sound.hushed_step h.hushed act,
      booked_step h.sound h.numbered h.booked act,
      tallies_step h.sound h.hushed h.booked h.tallies act, hcredits⟩
  have hrecords : (c.step act).toRecords =
      ⟨c.writes ++ act.writes c.board, c.admitted ++ act.admits c.board,
        c.failing ++ act.fails c.board⟩ := rfl
  rw [hrecords]
  by_cases hturn : ∃ t, act = .turn t
  · obtain ⟨turn, rfl⟩ := hturn
    simp only [Act.writes, Act.fails, List.append_nil]
    cases hr : c.board.isRunning with
    | true => exact h.credits_turn hnodup hr turn
    | false =>
      have hb : (c.step (.turn turn)).board = c.board := Session.board_step_of_stopped hr turn
      rw [owners_step, hb, admits_of_stopped hr, Nat.sub_self, List.replicate_zero,
        List.append_nil, List.append_nil]
      exact h.credits
  · -- An act that is no turn lets nothing through, and its writes wait.
    have hturn : ∀ t, act ≠ .turn t := fun t ht => hturn ⟨t, ht⟩
    obtain ⟨hadmits, hlength, -, -⟩ := step_asks c hturn
    rw [owners_step, hlength, Nat.sub_self, List.replicate_zero, List.append_nil, hadmits,
      List.append_nil]
    refine h.credits.asks (Session.grows_idle c.toSession hturn).journal_eq rfl rfl
      fun x hx hm => ?_
    rw [Act.of_mem_writes hx] at hm
    exact Nat.lt_irrefl _ (h.booked.served _ hm).1

end Accurate

theorem accurate_start {s : Stack} (hk : s.Kept) :
    Accurate s { toSession := Session.start s } where
  sound := Session.sound_start hk
  numbered := ⟨List.nodup_nil, nofun, nofun, nofun⟩
  routes _ _ _ hn := .inl hn
  hushed := hushed_of_isRunning rfl
  booked := .start s
  tallies := ⟨nofun, nofun, nofun⟩
  credits := ⟨Nat.le_refl _, nofun, nofun, fun _ => nofun⟩

/-- The chronicle of a session in which no two streams get one port. -/
theorem accurate_run {e : Tunnel.Ends} {before : List Stack.Act} {acts : List Act}
    (hnodup : (run e before acts).ports.Nodup) :
    Accurate (Stack.play before (Stack.ofEnds e)) (run e before acts) := by
  induction acts using List.reverseRecOn with
  | nil => exact accurate_start (Stack.kept_play e before)
  | append_singleton acts act ih =>
    have hstep : run e before (acts ++ [act]) = (run e before acts).step act :=
      List.foldl_concat ..
    have hsound : (run e before acts).Sound := by
      rw [toSession_run]
      exact Session.sound_run e before acts
    rw [hstep] at hnodup ⊢
    have hprefix := hnodup.sublist (hsound.ports_prefix act).sublist
    exact (ih hprefix).step hprefix act

end Chronicle

end Tether.Tunnel
