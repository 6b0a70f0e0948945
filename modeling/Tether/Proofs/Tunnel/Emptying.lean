import Tether.Proofs.Tunnel.Calm

/-!
# What is left between turns

Passing on empties each connection on a route, and each turn that the switchboard survives ends
with it. So between turns nothing waits on a connection: all that was accepted from the device is
with the streams. Unlike calm, this does not depend on what was queued for sending before the
switchboard came into being.

* `ends_dispatch_emptied`: passing on empties the connections, whatever came before it;
* `Session.emptied_run`: between turns they are empty.
-/

namespace Tether.Tunnel

open Net Call

namespace Stack

variable {s t : Stack} {p port : UInt16}

/-- All that was accepted on the connection of a port was taken. -/
def IsEmptied (port : UInt16) (s : Stack) : Prop :=
  ∀ a, s.ledger.at? port = some a → a.taken = a.accepted

/-- Taking what was received empties the connection. -/
theorem IsEmptied.taken {l : Link} (hk : s.Kept) (hl : s.links.get? port = some l)
    (hj : t.journal = .taken port l.received :: s.journal) :
    t.IsEmptied port ∧ ∀ q, s.IsEmptied q → t.IsEmptied q := by
  obtain ⟨a, ha, htells⟩ := hk.exists_account hl
  have hport : t.IsEmptied port := by
    intro b hb
    have hat : t.ledger.at? port = some (a.note (.taken port l.received)) :=
      at?_of_journal hj rfl ha
    obtain rfl := Option.some.inj (hat.symm.trans hb)
    exact htells.received
  refine ⟨hport, fun q hq => ?_⟩
  by_cases hqp : q = port
  · exact hqp ▸ hport
  · intro b hb
    rw [ledger, hj, Ledger.ofJournal,
      Ledger.at?_note_of_ne (Ledger.sound_ofJournal _) (Ne.symm hqp)] at hb
    exact hq b hb

/-- A connection that is closed leaves the others as they are. -/
theorem IsEmptied.closed (hg : Grows (fun e => PostsOf port e ∨ e = .forgotten port) s t)
    (hat : t.ledger.at? port = none) (h : s.IsEmptied p) : t.IsEmptied p := by
  intro a ha
  by_cases hp : p = port
  · rw [hp, hat] at ha
    cases ha
  · obtain ⟨es, hj, hes, -⟩ := hg.events
    rw [ledger, hj, Ledger.at?_append_of_ne fun e he => ?_] at ha
    · exact h a ha
    · rcases hes e he with ⟨-, he⟩ | rfl
      · exact he ▸ Ne.symm hp
      · exact Ne.symm hp

theorem prompt_send (port : UInt16) (bytes : Bytes) :
    Prompt (do queue port bytes; flush : Call TunnelError Stack Unit) := by
  refine Prompt.bind ((prompt_linkAt port).bind fun l => ?_) fun _ =>
    Prompt.get.bind fun _ => Prompt.forM fun p => prompt_flushLink p
  cases l.status with
  | connected => exact (Prompt.modify _).bind fun _ => .modify _
  | connecting => exact .fail _
  | ended fault => exact .fail _

theorem prompt_startCapture (file : Except TunnelError Unit) : Prompt (startCapture file) := by
  cases file with
  | ok _ => exact (Prompt.pure _).bind fun _ => .modify _
  | error e => exact (Prompt.fail e).bind fun _ => .modify _

end Stack

namespace Switchboard

variable {b c : Switchboard}

/-- Nothing is left on any connection on a route. -/
def Emptied (b : Switchboard) : Prop :=
  ∀ r ∈ b.routes, b.stack.IsEmptied r.1

/-! ## Passing on -/

theorem ends_passOn_emptied (hk : b.stack.Kept) (r : UInt16 × Nat) :
    (passOn r).Ends b
      (fun _ c => c.routes = b.routes ∧ c.stack.Kept ∧ c.stack.IsEmptied r.1 ∧
        ∀ p, b.stack.IsEmptied p → c.stack.IsEmptied p)
      (fun _ _ => False) := by
  obtain ⟨port, i⟩ := r
  cases hl : b.stack.links.get? port with
  | none =>
    have hnone : b.stack.IsEmptied port := by
      intro a ha
      rw [hk.get?_eq_none_iff.1 hl] at ha
      cases ha
    rw [passOn, onStack, ends_bind, ends_attempt, ends_zoom]
    refine (Stack.ends_take_none hl).mono (fun _ _ => False.elim) fun h t ht => ?_
    obtain ⟨rfl, rfl⟩ := ht
    dsimp only
    rw [ends_bind]
    refine (ends_deliver_stack i _ _).mono (fun _ c hc => ?_) fun _ _ => id
    rw [ends_pure, hc.1]
    exact ⟨hc.2, hk, hnone, fun _ hp => hp⟩
  | some l =>
    refine (ends_passOn_stack hk hl i).mono (fun _ c hc => ?_) fun _ _ => id
    obtain ⟨hroutes, hkept, hj, -⟩ := hc
    exact ⟨hroutes, hkept, Stack.IsEmptied.taken hk hl hj⟩

theorem ends_passOnAll_emptied (routes : List (UInt16 × Nat)) (hk : b.stack.Kept) :
    (passOnAll routes).Ends b
      (fun _ c => c.routes = b.routes ∧ c.stack.Kept ∧
        ∀ p, p ∈ routes.map Prod.fst ∨ b.stack.IsEmptied p → c.stack.IsEmptied p)
      (fun _ _ => False) := by
  induction routes generalizing b with
  | nil => exact ⟨rfl, hk, fun p hp => hp.resolve_left List.not_mem_nil⟩
  | cons r routes ih =>
    rw [passOnAll, ends_bind]
    refine (ends_passOn_emptied hk r).mono (fun _ c hc => ?_) fun _ _ => id
    obtain ⟨hroutes, hkc, hport, hothers⟩ := hc
    rw [ends_bind]
    refine (ih hkc).mono (fun _ d hd => ?_) fun _ _ => id
    refine ⟨hd.1.trans hroutes, hd.2.1, fun p hp => hd.2.2 p ?_⟩
    rw [List.map_cons, List.mem_cons] at hp
    rcases hp with (rfl | hp) | hp
    · exact .inr hport
    · exact .inl hp
    · exact .inr (hothers p hp)

theorem ends_hangUp_emptied (hk : b.stack.Kept) (port : UInt16) :
    (hangUp port).Ends b
      (fun _ c => c.stack.Kept ∧ (Emptied b → Emptied c)) (fun _ _ => False) := by
  have hclosed {t : Stack}
      (hg : Stack.Grows (fun e => Stack.PostsOf port e ∨ e = .forgotten port) b.stack t)
      (hat : t.ledger.at? port = none) {c : Switchboard} (hs : c.stack = t)
      (hr : c.routes = b.routes.filter fun r => r.1 ≠ port) (h : Emptied b) : Emptied c := by
    intro r hrc
    rw [hr] at hrc
    rw [hs]
    exact (h r (List.mem_of_mem_filter hrc)).closed hg hat
  rw [hangUp, tryOnStack, onStack, unroute, ends_bind, ends_modify, ends_bind, ends_attempt,
    ends_zoom]
  refine (Stack.ends_closing hk port).mono (fun _ t ht => ?_) fun h' t ht => ?_
  · exact ⟨ht.1.1, hclosed ht.1.2 ht.2 rfl rfl⟩
  · cases h' with
    | failed e => exact ⟨ht.2.1.1, hclosed ht.2.1.2 ht.2.2 rfl rfl⟩
    | waiting => exact absurd rfl ht.1

/-- Passing on empties the connections. -/
theorem ends_dispatch_emptied (hk : b.stack.Kept) :
    dispatch.Ends b (fun _ => Emptied) (fun _ _ => False) := by
  rw [dispatch, ends_bind, ends_get, ends_bind]
  refine (ends_passOnAll_emptied b.routes hk).mono (fun finished c hc => ?_) fun _ _ => id
  obtain ⟨hroutes, hkc, hall⟩ := hc
  have hc : c.stack.Kept ∧ Emptied c :=
    ⟨hkc, fun r hr => hall r.1 (.inl (List.mem_map_of_mem (hroutes ▸ hr)))⟩
  refine (ends_forM (P := fun d => d.stack.Kept ∧ Emptied d) hc fun port _ d hd => ?_).mono
    (fun _ _ hd => hd.2) fun _ _ => id
  exact (ends_hangUp_emptied hd.1 port).mono (fun _ e he => ⟨he.1, he.2 hd.2⟩) fun _ _ => id

/-! ## Turns -/

/-- What holds between turns. -/
abbrev Empties (b : Switchboard) : Prop :=
  b.isRunning = true → Emptied b

theorem ends_dispatch_empties (hk : b.stack.Kept) :
    dispatch.Ends b (fun _ => Empties) (fun _ => Empties) :=
  (ends_dispatch_emptied hk).mono (fun _ _ hc _ => hc) fun _ _ => False.elim

/-- A call on the stack that does not wait is followed by passing on. -/
theorem ends_onCall_empties {d : Call TunnelError Stack Unit} (hk : b.stack.Kept) (ticket : Nat)
    (hd : Respects Stack.Keeps d) (hprompt : Prompt d) :
    (do
      let outcome : Except TunnelError Unit ← Call.attempt (onStack d)
      conclude ticket (outcome.map fun _ => 0)
      dispatch).Ends b (fun _ => Empties) (fun _ => Empties) := by
  rw [onStack, ends_bind, ends_attempt, ends_zoom]
  refine ((hd b.stack).and (hprompt b.stack)).mono (fun _ t ht => ?_) fun h' t ht => ?_
  · exact ends_dispatch_empties (ht.1 hk)
  · cases h' with
    | failed e => exact ends_dispatch_empties (ht.1 hk)
    | waiting => exact absurd rfl ht.2

theorem ends_serve_empties {m : Notes} (h : Emptied b) (hd : Delivers m b.routes b) (ticket : Nat)
    (request : Request) : (serve ticket request).Ends b (fun _ => Empties) (fun _ => Empties) := by
  cases request with
  | connect peerPort draws first =>
    rw [serve, onStack, ends_bind, ends_attempt, ends_zoom]
    refine (Stack.ends_connect hd.kept peerPort draws first).mono (fun port t ht => ?_)
      fun h' t ht => ?_
    · dsimp only
      rw [ends_bind, ends_get]
      split
      · rw [ends_bind]
        exact (ends_hangUp_emptied ht.1 port).mono (fun _ c hc => ends_dispatch_empties hc.1)
          fun _ _ => False.elim
      · exact ends_dispatch_empties ht.1
    · obtain ⟨hkept, ⟨rfl, rfl⟩ | ⟨hw, -⟩⟩ := ht
      · exact fun _ => h
      · cases h' with
        | failed e => exact ends_dispatch_empties hkept
        | waiting => exact absurd rfl hw
  | send port bytes =>
    exact ends_onCall_empties hd.kept ticket
      ((Stack.keeps_queue port bytes).bind fun _ => Stack.keeps_flush) (Stack.prompt_send port bytes)
  | close port =>
    rw [serve, ends_bind, ends_get]
    split
    · rw [ends_bind]
      exact (ends_hangUp_emptied hd.kept port).mono (fun _ c hc => ends_dispatch_empties hc.1)
        fun _ _ => False.elim
    · exact ends_dispatch_empties hd.kept
  | capture file =>
    exact ends_onCall_empties hd.kept ticket (Stack.keeps_act (.startCapture file))
      (Stack.prompt_startCapture file)
  | shutdown =>
    rw [serve, ends_bind]
    exact (Ready.stop_rests hd).mono
      (fun _ c hc hr => by simp [hc] at hr) fun _ _ => False.elim

theorem ends_serveNext_empties {m : Notes} (h : Emptied b) (hd : Delivers m b.routes b) :
    serveNext.Ends b (fun _ => Empties) (fun _ => Empties) := by
  rw [serveNext, ends_bind, ends_get]
  split
  · next ticket request later _ =>
    rw [ends_bind, ends_modify]
    have h' : Emptied { b with requests := later } := h
    exact ends_serve_empties h' (hd.of_eq rfl rfl rfl) ticket request
  · rw [ends_bind, ends_get]
    split
    · exact fun _ => h
    · exact (Ready.stop_rests hd).mono (fun _ c hc hr => by simp [hc] at hr) fun _ _ => False.elim

/-- A failure of the tunnel is the end of the switchboard. -/
theorem ends_listen_failed {m : Notes} {e : TunnelError} {t : Stack} (hd : Delivers m b.routes b)
    (hfails : Stack.process b.stack = .error (.failed e) t) :
    listen.Ends b (fun _ c => c.isRunning = false) (fun _ _ => False) := by
  -- Here it does not matter what the streams make of the failure.
  have hfell : Delivers { m with fell := fun _ => True } b.routes b :=
    hd.shrink (fun _ hr => hr) fun _ _ => trivial
  rw [listen, onStack, ends_bind, ends_attempt, ends_zoom]
  refine (((Stack.keeps_process b.stack).and (Stack.grows_process b.stack)).and
    (ends_self _ _)).mono (fun _ u hu => ?_) fun h' u hu => ?_
  · rw [hfails] at hu
    cases hu.2
  · obtain ⟨⟨hk, hg⟩, hself⟩ := hu
    rw [hfails] at hself
    cases hself
    have hstack := hfell.traffic (hk hd.kept) hg
    exact (Delivers.breakDown (b := { b with stack := t }) hstack e fun _ _ => trivial).mono
      (fun _ _ hc => hc.2) fun _ _ => id

theorem ends_listen_empties {m : Notes} (h : Emptied b) (hd : Delivers m b.routes b) :
    listen.Ends b (fun _ => Empties) (fun _ => Empties) := by
  by_cases hfails : ∃ e t, Stack.process b.stack = .error (.failed e) t
  · obtain ⟨e, t, hfails⟩ := hfails
    exact (ends_listen_failed hd hfails).mono (fun _ c hc hr => by simp [hc] at hr)
      fun _ _ => False.elim
  · rw [listen, onStack, ends_bind, ends_attempt, ends_zoom]
    refine (((Stack.keeps_process b.stack).and (ends_self _ _)).and
      (Stack.ends_process_waiting b.stack)).mono (fun _ t ht => ?_) fun h' t ht => ?_
    · exact ends_dispatch_empties (ht.1.1 hd.kept)
    · cases h' with
      | failed e => exact absurd ⟨e, t, ht.1.2⟩ hfails
      | waiting =>
        -- Nothing has arrived.
        intro _ r hr a ha
        rw [Stack.ledger, ht.2 rfl] at ha
        exact h r hr a ha

theorem ends_take_empties {m : Notes} (h : Emptied b) (hd : Delivers m b.routes b) (turn : Turn) :
    (take turn).Ends b (fun _ => Empties) (fun _ => Empties) := by
  cases turn with
  | atRequests => exact ends_serveNext_empties h hd
  | atTunnel => exact ends_listen_empties h hd

end Switchboard

/-! ## Sessions -/

namespace Session

open Switchboard

variable {w : Session}

theorem Stands.empties {b c : Switchboard} (h : Stands b c) (hb : Empties b) : Empties c := by
  intro hr r hroute a ha
  rw [h.routes] at hroute
  rw [Stack.ledger, h.journal] at ha
  exact hb (h.isRunning ▸ hr) r hroute a ha

theorem Sound.empties_step (hw : w.Sound) (h : Empties w.board) (act : Act) :
    Empties (w.step act).board := by
  by_cases hturn : ∃ t, act = .turn t
  · obtain ⟨t, rfl⟩ := hturn
    exact hw.step_turn t (fun _ => h) fun hr hd => ends_take_empties (h hr) hd t
  · exact (stands_step w fun t ht => hturn ⟨t, ht⟩).empties h

/-- Between turns, nothing is left on the connections of a session. -/
theorem emptied_run {e : Tunnel.Ends} {before : List Stack.Act} {acts : List Act}
    (hr : (run e before acts).board.isRunning = true) : Emptied (run e before acts).board := by
  have hempties : Empties (start (Stack.play before (Stack.ofEnds e))).board :=
    fun _ _ hroute => absurd hroute List.not_mem_nil
  have hsound := sound_start (Stack.kept_play e before)
  unfold run at hr ⊢
  generalize start (Stack.play before (Stack.ofEnds e)) = w at hempties hsound hr
  induction acts generalizing w with
  | nil => exact hempties hr
  | cons act acts ih => exact ih _ (hsound.empties_step hempties act) (hsound.step act) hr

end Session

end Tether.Tunnel
