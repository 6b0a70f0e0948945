import Tether.Proofs.Tunnel.Carrying

/-!
# Gaps in what is sent

A flush takes all that is queued on a connection before it sends the first piece. If a piece is
lost, the rest is gone with it, and the connection goes on: what is queued and sent later follows
in the tunnel right behind what was sent before. Closing loses bytes in the same way, but a
connection that is closed sends nothing any more.

* `Account.Gapped`: what was queued, taken apart into what was sent and what was dropped;
* `Journal.Valid.gapped`: all that was queued is accounted for;
* `drops_act`: the calls that drop bytes, and what they leave;
* `gaps_of_interrupted`: bytes are missing in the tunnel only where a flush failed.
-/

namespace Tether.Tunnel

open Net Call

namespace Event

/-- Whether bytes of a stream are lost. -/
def isDrop : Event → Bool
  | lost x => !x.payload.isEmpty
  | _ => false

theorem isDrop_of_isSignal {e : Event} (h : e.isSignal = true) : e.isDrop = false := by
  cases e with
  | lost x => exact congrArg (!·) h
  | _ => rfl

end Event

/-! ## Accounts -/

namespace Account

variable {a b : Account} {e : Event} {x : Segment} {size : Nat} {gaps : List (Bytes × Bytes)}
  {last : Bytes}

/-- What was queued on a connection, taken apart: bytes that were sent and bytes that were dropped
behind them, once for each segment with bytes that was lost; then bytes that were sent, and those
that are pending. Of the dropped bytes, the first are those of the segment that was lost. -/
structure Gapped (size : Nat) (a : Account) (gaps : List (Bytes × Bytes)) (last : Bytes) :
    Prop where
  queued : a.queued = gaps.flatMap (fun g => g.1 ++ g.2) ++ last ++ a.pending
  carried : a.carried = gaps.flatMap Prod.fst ++ last
  lost : (a.lost.map Segment.payload).filter (fun p => !p.isEmpty) =
    gaps.map fun g => g.2.take size
  dropped : ∀ g ∈ gaps, g.2 ≠ []

/-- A segment takes its bytes from the front of the pending ones. -/
theorem Sends.payload_append (h : a.Sends size x) :
    x.payload ++ a.pending.drop x.payload.length = a.pending := by
  by_cases hx : x.payload = []
  · rw [hx]
    rfl
  · have htake := List.prefix_iff_eq_append.1 (List.take_prefix size a.pending)
    rwa [← h.payload_eq hx] at htake

theorem sublist_gaps (gaps : List (Bytes × Bytes)) :
    (gaps.flatMap Prod.fst).Sublist (gaps.flatMap fun g => g.1 ++ g.2) := by
  induction gaps with
  | nil => exact .slnil
  | cons g gaps ih => exact (List.sublist_append_left g.1 g.2).append ih

namespace Gapped

/-- What is sent is in the order in which it was queued. -/
theorem sublist (h : a.Gapped size gaps last) : (a.carried ++ a.pending).Sublist a.queued := by
  rw [h.queued, h.carried]
  exact ((sublist_gaps gaps).append (.refl _)).append (.refl _)

theorem note_sent (h : a.Gapped size gaps last) (hx : a.Sends size x) :
    (a.note (.sent x)).Gapped size gaps (last ++ x.payload) where
  queued := by
    rw [List.append_assoc, List.append_assoc, note, hx.payload_append, ← List.append_assoc]
    exact h.queued
  carried := by rw [carried_note_sent, h.carried, List.append_assoc]
  lost := h.lost
  dropped := h.dropped

/-- A segment without bytes is lost, and nothing with it. -/
theorem note_lost (h : a.Gapped size gaps last) (hx : x.payload = []) :
    (a.note (.lost x)).Gapped size gaps last where
  queued := by rw [note, hx]; exact h.queued
  carried := h.carried
  lost := by
    rw [note, List.map_append, List.filter_append, h.lost]
    simp [hx]
  dropped := h.dropped

/-- With a segment that carries bytes all that is pending is dropped. -/
theorem note_drop (h : a.Gapped size gaps last) (hx : a.Sends size x) (hne : x.payload ≠ []) :
    (a.note (.lost x)).Gapped size (gaps ++ [(last, a.pending)]) [] where
  queued := by simpa [note, hne] using h.queued
  carried := by rw [List.append_nil, List.flatMap_append]; exact h.carried.trans (by simp)
  lost := by
    have hlost := h.lost
    simp only [note, List.map_append, List.filter_append, hlost, List.map_cons, List.map_nil]
    simp [hx.payload_eq hne ▸ hne, hx.payload_eq hne]
  dropped g hg := by
    rcases List.mem_append.1 hg with hg | hg
    · exact h.dropped g hg
    · rw [List.mem_singleton.1 hg]
      rintro (hnil : a.pending = [])
      rw [hx.payload_eq hne, hnil, List.take_nil] at hne
      exact hne rfl

/-- One event leaves what was queued accounted for. -/
theorem note (h : a.Gapped size gaps last) (hallow : a.Allows size e) :
    ∃ gaps last, (a.note e).Gapped size gaps last := by
  cases e with
  | sent x => exact ⟨_, _, h.note_sent hallow⟩
  | lost x =>
    by_cases hx : x.payload = []
    · exact ⟨_, _, h.note_lost hx⟩
    · exact ⟨_, _, h.note_drop hallow hx⟩
  | queued port bytes =>
    refine ⟨gaps, last, ?_, h.carried, h.lost, h.dropped⟩
    rw [Account.note, h.queued]
    exact List.append_assoc ..
  | _ => exact ⟨gaps, last, h.queued, h.carried, h.lost, h.dropped⟩

end Gapped

/-- What is sent after some moment, of what is queued after it, as long as nothing was pending
then. -/
structure Resumes (a b : Account) (later more : Bytes) : Prop where
  queued : b.queued = a.queued ++ later
  carried : b.carried = a.carried ++ more
  sublist : (more ++ b.pending).Sublist later

theorem Resumes.note {later more : Bytes} (h : a.Resumes b later more) (hallow : b.Allows size e) :
    ∃ later more, a.Resumes (b.note e) later more := by
  cases e with
  | sent x =>
    refine ⟨later, more ++ x.payload, h.queued, ?_, ?_⟩
    · rw [carried_note_sent, h.carried, List.append_assoc]
    · rw [List.append_assoc, Account.note, hallow.payload_append]
      exact h.sublist
  | lost x =>
    -- Whether or not the pending bytes are dropped, they do not grow.
    refine ⟨later, more, h.queued, h.carried, List.Sublist.trans ?_ h.sublist⟩
    refine List.Sublist.append (.refl _) ?_
    rw [Account.note]
    split
    · exact .refl _
    · exact List.nil_sublist _
  | queued port bytes =>
    refine ⟨later ++ bytes, more, ?_, h.carried, ?_⟩
    · rw [Account.note, h.queued, List.append_assoc]
    · rw [Account.note, ← List.append_assoc]
      exact h.sublist.append (.refl _)
  | _ => exact ⟨later, more, h.queued, h.carried, h.sublist⟩

/-- An account whose queued bytes are all sent or pending. -/
def IsWhole (a : Account) : Prop :=
  a.carried ++ a.pending = a.queued

theorem IsWhole.carried_prefix_queued (h : a.IsWhole) : a.carried <+: a.queued :=
  ⟨a.pending, h⟩

/-- One event that drops nothing leaves an account whole. -/
theorem IsWhole.note (h : a.IsWhole) (hallow : a.Allows size e) (he : e.isDrop = false) :
    (a.note e).IsWhole := by
  cases e with
  | sent x =>
    rw [IsWhole, carried_note_sent, List.append_assoc, Account.note, hallow.payload_append]
    exact h
  | lost x =>
    have hx : x.payload.isEmpty = true := by simpa [Event.isDrop] using he
    rw [IsWhole, Account.note, if_pos hx]
    exact h
  | queued port bytes =>
    exact (List.append_assoc ..).symm.trans (congrArg (· ++ bytes) h)
  | _ => exact h

end Account

namespace Journal.Valid

variable {size : Nat} {j es : Journal} {n : Nat} {a b : Account}

/-- All that was queued on a connection was sent, or was dropped, or is pending. -/
theorem gapped (h : j.Valid size) :
    ∀ a ∈ (Ledger.ofJournal j).accounts, ∃ gaps last, a.Gapped size gaps last :=
  h.accounts (fun _ _ _ _ => ⟨[], [], rfl, rfl, rfl, nofun⟩)
    fun _ _ _ ⟨_, _, ha⟩ hallow => ha.note hallow

end Journal.Valid

/-! ## Calls -/

namespace Stack

variable {s t u : Stack} {P Q : Segment → Prop} {α β : Type}

/-- The journal grows, and nothing is dropped. -/
def Retains (s t : Stack) : Prop :=
  ∃ es, t.journal = es ++ s.journal ∧ ∀ e ∈ es, e.isDrop = false

/-- The journal grows until bytes are dropped, with a segment as in `P`. -/
def Breaks (P : Segment → Prop) (s t : Stack) : Prop :=
  ∃ x u, P x ∧ x.payload ≠ [] ∧ Retains s u ∧ t.journal = .lost x :: u.journal

instance : IsPreorder Stack Retains where
  refl s := ⟨[], rfl, List.forall_mem_nil _⟩
  trans := by
    rintro s t u ⟨es, hj, hes⟩ ⟨es', hj', hes'⟩
    refine ⟨es' ++ es, by rw [hj', hj, List.append_assoc], fun e he => ?_⟩
    exact (List.mem_append.1 he).elim (hes' e) (hes e)

theorem Grows.retains {P : Event → Prop} (h : Grows P s t) (hP : ∀ e, P e → e.isDrop = false) :
    Retains s t := by
  obtain ⟨es, hj, hes, -⟩ := h.events
  exact ⟨es, hj, fun e he => hP e (hes e he)⟩

theorem retains_of_grows {P : Event → Prop} {c : Call TunnelError Stack α}
    (h : Respects (Grows P) c) (hP : ∀ e, P e → e.isDrop = false) : Respects Retains c :=
  h.mono fun _ _ hg => hg.retains hP

theorem retains_linkAt (port : UInt16) : Respects Retains (linkAt port) :=
  retains_of_grows (P := fun _ => False) (grows_linkAt port) fun _ => False.elim

theorem retains_setLink (port : UInt16) (link : Link) : Respects Retains (setLink port link) :=
  retains_of_grows (P := fun _ => False) (grows_setLink port link) fun _ => False.elim

/-- A call that does not go on once bytes have been dropped. -/
def StopsAtDrop (P : Segment → Prop) (c : Call TunnelError Stack α) : Prop :=
  ∀ s, c.Ends s (fun _ => Retains s) (fun _ t => Retains s t ∨ Breaks P s t)

namespace StopsAtDrop

variable {c : Call TunnelError Stack α} {f : α → Call TunnelError Stack β}

theorem of_respects (h : Respects Retains c) : StopsAtDrop P c :=
  fun s => (h s).mono (fun _ _ => id) fun _ _ => .inl

theorem mono (h : StopsAtDrop P c) (hPQ : ∀ x, P x → Q x) : StopsAtDrop Q c := by
  refine fun s => (h s).mono (fun _ _ => id) fun _ t => Or.imp_right ?_
  rintro ⟨x, u, hx, hb⟩
  exact ⟨x, u, hPQ x hx, hb⟩

theorem bind (hc : StopsAtDrop P c) (hf : ∀ a, StopsAtDrop P (f a)) :
    StopsAtDrop P (c >>= f) := by
  intro s
  rw [ends_bind]
  refine (hc s).mono (fun a t ht => ?_) fun _ _ => id
  refine (hf a t).mono (fun _ _ => trans_of Retains ht) fun _ _ => Or.imp (trans_of Retains ht) ?_
  rintro ⟨x, u, hx, hp, hu, hj⟩
  exact ⟨x, u, hx, hp, trans_of Retains ht hu, hj⟩

theorem forM {ι : Type} {l : List ι} {f : ι → Call TunnelError Stack PUnit}
    (hf : ∀ i, StopsAtDrop P (f i)) : StopsAtDrop P (l.forM f) := by
  induction l with
  | nil => exact of_respects (.pure _)
  | cons i l ih => exact (hf i).bind fun _ => ih

end StopsAtDrop

theorem stopsAtDrop_transmit (port : UInt16) (control : Control) (payload : Bytes) :
    StopsAtDrop (fun x => x.source = port) (transmit port control payload) := by
  intro s
  cases hl : s.links.get? port with
  | none =>
    unfold transmit
    rw [ends_bind]
    refine (ends_linkAt_none hl).mono (fun _ _ => False.elim) fun _ t ht => ?_
    exact .inl (ht.2 ▸ refl_of Retains s)
  | some l =>
    refine (ends_transmit hl control payload).mono (fun _ t ht => ?_) fun _ t ht => ?_
    · exact (ht.grows (P := fun e => e.isDrop = false) rfl).retains fun _ => id
    · by_cases hp : payload = []
      · exact .inl ((ht.2.grows (P := fun e => e.isDrop = false)
          (by simp [Event.isDrop, Link.segment, hp])).retains fun _ => id)
      · obtain ⟨-, _, _, rfl⟩ := ht
        exact .inr ⟨l.segment port control payload, s, rfl, hp, refl_of Retains s, rfl⟩

theorem stopsAtDrop_flushLink (port : UInt16) :
    StopsAtDrop (fun x => x.source = port) (flushLink port) :=
  (StopsAtDrop.of_respects (retains_linkAt port)).bind fun _ =>
    (StopsAtDrop.of_respects (retains_setLink port _)).bind fun _ =>
      (StopsAtDrop.of_respects .get).bind fun _ => .forM fun _ =>
        (stopsAtDrop_transmit port _ _).bind fun _ =>
          (StopsAtDrop.of_respects (retains_linkAt port)).bind fun _ =>
            .of_respects (retains_setLink port _)

theorem stopsAtDrop_flush : StopsAtDrop (fun _ => True) flush :=
  (StopsAtDrop.of_respects .get).bind fun _ => .forM fun port =>
    (stopsAtDrop_flushLink port).mono fun _ _ => trivial

theorem prompt_flush : Prompt flush :=
  Prompt.get.bind fun _ => .forM prompt_flushLink

/-- The connection is forgotten whatever becomes of its bytes. -/
theorem ends_close_drop (port : UInt16) (s : Stack) :
    (close port).Ends s
      (fun _ t => Retains s t ∨ ∃ u, Breaks (fun x => x.source = port) s u ∧
        t.journal = .forgotten port :: u.journal)
      (fun _ t => Retains s t ∨ ∃ u, Breaks (fun x => x.source = port) s u ∧
        t.journal = .forgotten port :: u.journal) := by
  -- Whatever becomes of the farewell, the connection is forgotten next.
  have hretains (u : Stack) : (forget port).Ends u (fun _ v => Retains u v ∧
      v.journal = .forgotten port :: u.journal) (fun _ _ => False) :=
    ⟨⟨[.forgotten port], rfl, by simp [Event.isDrop]⟩, rfl⟩
  unfold close
  rw [ends_bind]
  refine (retains_linkAt port s).mono (fun link t ht => ?_) fun _ _ => .inl
  have hstops : StopsAtDrop (fun x => x.source = port) (do
      if saysFarewell link then
        flushLink port
        transmit port Link.farewell [] : Call TunnelError Stack Unit) := by
    split
    · exact (stopsAtDrop_flushLink port).bind fun _ => stopsAtDrop_transmit port _ _
    · exact .of_respects (.pure _)
  have hprompt : Prompt (do
      if saysFarewell link then
        flushLink port
        transmit port Link.farewell [] : Call TunnelError Stack Unit) := by
    split
    · exact (prompt_flushLink port).bind fun _ => prompt_transmit port _ _
    · exact .pure _
  rw [ends_bind, ends_attempt]
  refine ((hstops t).and (hprompt t)).mono (fun _ u hu => ?_) fun h u hu => ?_
  · rw [ends_bind]
    refine (hretains u).mono (fun _ v hv => ?_) fun _ _ => False.elim
    exact .inl (trans_of Retains (trans_of Retains ht hu.1) hv.1)
  · cases h with
    | waiting => exact absurd rfl hu.2
    | failed e =>
      dsimp only
      rw [ends_bind]
      refine (hretains u).mono (fun _ v hv => ?_) fun _ _ => False.elim
      rcases hu.1 with hu | ⟨x, w, hx, hp, hw, hj⟩
      · exact .inl (trans_of Retains (trans_of Retains ht hu) hv.1)
      · exact .inr ⟨u, ⟨x, w, hx, hp, trans_of Retains ht hw, hj⟩, hv.2⟩

/-- Bytes are dropped only by a flush that fails, which stops there, and by closing the connection
that they were queued on. -/
theorem drops_act (act : Act) (s : Stack) :
    Retains s (act.call.state s) ∨
      (act = .flush ∧ (∃ e, flush s = .error (.failed e) (act.call.state s)) ∧
        Breaks (fun _ => True) s (act.call.state s)) ∨
      ∃ port u, act = .close port ∧ Breaks (fun x => x.source = port) s u ∧
        (act.call.state s).journal = .forgotten port :: u.journal := by
  have retains {c : Call TunnelError Stack Unit} {P : Event → Prop} (h : Respects (Grows P) c)
      (hP : ∀ e, P e → e.isDrop = false) : Retains s (c.state s) :=
    (retains_of_grows h hP).state s
  cases act with
  | connect peerPort draws first =>
    refine .inl (retains ((signals_connect peerPort draws first).bind fun _ => .pure _) ?_)
    rintro e (he | ⟨port, rfl | rfl⟩)
    · exact Event.isDrop_of_isSignal he
    · rfl
    · rfl
  | queue port bytes => exact .inl (retains (grows_queue port bytes) fun _ he => he ▸ rfl)
  | fill => exact .inl (retains (P := fun _ => False) grows_fill fun _ => False.elim)
  | handleBuffered => exact .inl (retains signals_handleBuffered fun _ => Event.isDrop_of_isSignal)
  | process => exact .inl (retains signals_process fun _ => Event.isDrop_of_isSignal)
  | take port =>
    exact .inl (retains ((grows_take port).bind fun _ => .pure _) fun _ ⟨_, he⟩ => he ▸ rfl)
  | status port =>
    exact .inl (retains (P := fun _ => False)
      (((grows_linkAt port).bind fun _ => .pure _).bind fun _ => .pure _) fun _ => False.elim)
  | shutdown => exact .inl (retains grows_shutdown fun _ ⟨_, he⟩ => he ▸ rfl)
  | startCapture file =>
    exact .inl (retains (P := fun _ => False) (grows_startCapture file) fun _ => False.elim)
  | world | tick => exact .inl (refl_of Retains s)
  | flush =>
    refine Call.Ends.state (P := fun t => Retains s t ∨ (Act.flush = .flush ∧
      (∃ e, flush s = .error (.failed e) t) ∧ Breaks (fun _ => True) s t) ∨ ∃ port u,
        Act.flush = .close port ∧ Breaks (fun x => x.source = port) s u ∧
          t.journal = .forgotten port :: u.journal) ?_
    refine (((stopsAtDrop_flush s).and (prompt_flush s)).and (ends_self flush s)).mono
      (fun _ _ ht => .inl ht.1.1) fun h t ht => ?_
    obtain ⟨⟨hdrop, hprompt⟩, hself⟩ := ht
    cases h with
    | waiting => exact absurd rfl hprompt
    | failed e => exact hdrop.imp_right fun hb => .inl ⟨rfl, ⟨e, hself⟩, hb⟩
  | close port =>
    have hclose := Call.Ends.state (ends_close_drop port s)
    exact hclose.imp_right fun ⟨u, hb, hj⟩ => .inr ⟨port, u, rfl, hb, hj⟩

/-! ## Plays -/

/-- A flush in a play fails as it loses a segment with bytes of the `n`-th connection. It leaves
`t`, and the connection has the account `a` then. -/
structure Interrupted (e : Tunnel.Ends) (acts : List Act) (n : Nat) (before after : List Act)
    (t : Stack) (a : Account) : Prop where
  acts : acts = before ++ .flush :: after
  fails : ∃ error, flush (play before (ofEnds e)) = .error (.failed error) t
  lost : ∃ x j, t.journal = .lost x :: j ∧ x.payload ≠ [] ∧
    (Ledger.ofJournal j).holder x.source = some n
  account : t.ledger.accounts[n]? = some a

namespace Interrupted

variable {e : Tunnel.Ends} {acts before after : List Act} {n : Nat} {t : Stack} {a b : Account}

theorem eq_play (h : Interrupted e acts n before after t a) :
    t = play (before ++ [Act.flush]) (ofEnds e) := by
  obtain ⟨error, hf⟩ := h.fails
  rw [play_append]
  simp only [play, List.foldl_cons, List.foldl_nil, Act.call, Call.state] at hf ⊢
  rw [hf]

theorem play_eq (h : Interrupted e acts n before after t a) :
    play acts (ofEnds e) = play after t := by
  rw [h.eq_play, ← play_append, List.append_assoc]
  exact congrArg (play · (ofEnds e)) h.acts

theorem later (h : Interrupted e acts n before after t a) (act : Act) :
    Interrupted e (acts ++ [act]) n before (after ++ [act]) t a :=
  ⟨by rw [h.acts, List.append_assoc, List.cons_append], h.fails, h.lost, h.account⟩

/-- Bytes that were queued are neither sent nor pending any more. -/
theorem dropped (h : Interrupted e acts n before after t a) :
    a.pending = [] ∧ a.carried.length < a.queued.length := by
  obtain ⟨x, j, hj, hx, hn⟩ := h.lost
  have hk : t.Kept := h.eq_play ▸ kept_play e _
  have hvalid := hk.valid
  rw [hj] at hvalid
  obtain ⟨c, hc, hsends⟩ := hvalid.1
  obtain ⟨m, hm, hcm⟩ := Ledger.at?_eq_some_iff.1 hc
  obtain rfl : m = n := Option.some.inj (hm.symm.trans hn)
  obtain ⟨gaps, last, hgapped⟩ := hvalid.2.gapped c (List.mem_of_getElem? hcm)
  have ha := h.account
  rw [ledger, hj, Ledger.ofJournal, Ledger.getElem?_note hcm, if_pos hm] at ha
  obtain rfl := Option.some.inj ha
  -- A segment with bytes was lost, so bytes were pending, and they are in no segment that was sent.
  have hpending : c.pending ≠ [] := by
    rintro hnil
    rw [hsends.payload_eq hx, hnil, List.take_nil] at hx
    exact hx rfl
  refine ⟨if_neg (by simpa using hx), ?_⟩
  have hlength := hgapped.sublist.length_le
  rw [List.length_append] at hlength
  exact Nat.lt_of_lt_of_le (Nat.lt_add_of_pos_right (List.length_pos_iff.2 hpending)) hlength

theorem resumes (h : Interrupted e acts n before after t a)
    (hb : (play acts (ofEnds e)).ledger.accounts[n]? = some b) :
    ∃ later more, a.Resumes b later more := by
  obtain ⟨es, hj, -⟩ := (grows_play after t).events
  rw [← h.play_eq] at hj
  have hvalid := (kept_play e acts).valid
  rw [hj] at hvalid
  rw [ledger, hj] at hb
  refine hvalid.extend (Q := fun c => ∃ later more, a.Resumes c later more) (fun hnone => ?_)
    (fun c _ _ ⟨_, _, hc⟩ hallow => hc.note hallow) (fun c hc => ?_) hb
  · cases h.account.symm.trans hnone
  · obtain rfl := Option.some.inj (h.account.symm.trans hc)
    refine ⟨[], [], (List.append_nil _).symm, (List.append_nil _).symm, ?_⟩
    rw [h.dropped.1]
    exact .refl _

end Interrupted

/-- An account is whole until bytes are dropped. -/
theorem whole_or_broken {size n : Nat} {es j : Journal} {x : Segment} {b : Account}
    (hvalid : Journal.Valid size (.lost x :: (es ++ j))) (hes : ∀ e ∈ es, e.isDrop = false)
    (hj : ∀ a, (Ledger.ofJournal j).accounts[n]? = some a → a.IsWhole)
    (hb : (Ledger.ofJournal (.lost x :: (es ++ j))).accounts[n]? = some b) :
    b.IsWhole ∨ b.carried <+: b.queued ∧ (Ledger.ofJournal (es ++ j)).holder x.source = some n := by
  have hwhole : ∀ a, (Ledger.ofJournal (es ++ j)).accounts[n]? = some a → a.IsWhole := fun a =>
    hvalid.2.extend (fun _ _ _ _ _ => rfl) (fun _ e he hc hallow => hc.note hallow (hes e he)) hj
  rw [Ledger.ofJournal, Ledger.note_eq_change rfl, Ledger.getElem?_change] at hb
  split at hb
  · next hn =>
    obtain ⟨c, hc, rfl⟩ := Option.map_eq_some_iff.1 hb
    exact .inr ⟨(hwhole c hc).carried_prefix_queued, hn⟩
  · exact .inl (hwhole b hb)

/-- A connection has sent all but what is pending, or it is over, or a flush was interrupted. -/
theorem whole_or_interrupted {e : Tunnel.Ends} {acts : List Act} {n : Nat} {b : Account}
    (hb : (play acts (ofEnds e)).ledger.accounts[n]? = some b) :
    b.IsWhole ∨ (b.carried <+: b.queued ∧ ∀ p, (play acts (ofEnds e)).ledger.holder p ≠ some n) ∨
      ∃ before after t a, Interrupted e acts n before after t a ∧ a.carried <+: a.queued := by
  -- By induction on the acts. Once a flush was interrupted, or the connection is over, no later act
  -- changes that; so it is enough to look at what one act does to an account that is whole.
  induction acts using List.reverseRecOn generalizing b with
  | nil => cases hb
  | append_singleton acts act ih =>
    have hvalid := (kept_play e (acts ++ [act])).valid
    rw [play_append] at hb hvalid ⊢
    generalize hs : play acts (ofEnds e) = s at ih hb hvalid ⊢
    change (act.call.state s).ledger.accounts[n]? = some b at hb
    change (act.call.state s).journal.Valid (act.call.state s).segmentSize at hvalid
    change b.IsWhole ∨ (_ ∧ ∀ p, (act.call.state s).ledger.holder p ≠ some n) ∨ _
    by_cases hdone : ∃ before after t a,
        Interrupted e acts n before after t a ∧ a.carried <+: a.queued
    · obtain ⟨before, after, t, a, h, ha⟩ := hdone
      exact .inr (.inr ⟨before, after ++ [act], t, a, h.later act, ha⟩)
    by_cases hgone : ∃ a, s.ledger.accounts[n]? = some a ∧ a.carried <+: a.queued ∧
        ∀ p, s.ledger.holder p ≠ some n
    · obtain ⟨a, ha, hfront, hfree⟩ := hgone
      obtain ⟨es, hj, -⟩ := ((grows_act act).state s).events
      have hn := (List.getElem?_eq_some_iff.1 ha).1
      rw [ledger, hj, Ledger.getElem?_append_of_not_held hn hfree] at hb
      obtain rfl := Option.some.inj (ha.symm.trans hb)
      refine .inr (.inl ⟨hfront, fun p hp => ?_⟩)
      rw [ledger, hj] at hp
      exact hfree p (Ledger.holder_of_append hp hn)
    have hwhole : ∀ a, s.ledger.accounts[n]? = some a → a.IsWhole := fun a ha =>
      (ih ha).resolve_right fun h => h.elim (fun h => hgone ⟨a, ha, h⟩) hdone
    rcases drops_act act s with ⟨es, hj, hes⟩ | ⟨rfl, hfails, x, u, -, hx, ⟨es, hu, hes⟩, hj⟩ |
      ⟨port, v, rfl, ⟨x, u, rfl, hx, ⟨es, hu, hes⟩, hv⟩, hj⟩
    · rw [hj] at hvalid
      rw [ledger, hj] at hb
      exact .inl (hvalid.extend (fun _ _ _ _ _ => rfl)
        (fun _ e he hc hallow => hc.note hallow (hes e he)) hwhole hb)
    · have hb' := hb
      rw [hj, hu] at hvalid
      rw [ledger, hj, hu] at hb'
      refine (whole_or_broken hvalid hes hwhole hb').imp_right fun ⟨hfront, hn⟩ => .inr ?_
      exact ⟨acts, [], _, b, ⟨rfl, hs ▸ hfails, ⟨x, u.journal, hj, hx, hu ▸ hn⟩, hb⟩, hfront⟩
    · rw [hj, hv, hu] at hvalid
      rw [ledger, hj, hv, hu] at hb
      refine (whole_or_broken hvalid.2 hes hwhole hb).imp_right fun ⟨hfront, hn⟩ =>
        .inl ⟨hfront, fun p => ?_⟩
      rw [ledger, hj, hv, hu]
      refine Ledger.not_held_forgotten ?_ p
      exact (congrFun (Ledger.holder_change ..) _).trans hn

/-- The bytes that go into the tunnel for a connection, in any play, whatever fails in it:

* all that was queued was sent, or was dropped with a segment that was lost, or is pending, and
  what was sent is in order;
* it is the beginning of what was queued, unless a flush was interrupted on the connection, after
  which more was sent;
* whenever that happened, some of the bytes that were queued before are not sent any more, and
  what is sent after it is of what was queued after it. -/
theorem gaps_of_interrupted {e : Tunnel.Ends} {acts : List Act} {s : Stack} {n : Nat} {b : Account}
    (hs : s = play acts (ofEnds e)) (hb : s.ledger.accounts[n]? = some b) :
    (∃ gaps last, b.Gapped (mss e) gaps last) ∧
    (b.carried <+: b.queued ∨ ∃ before after t a, Interrupted e acts n before after t a ∧
      a.carried <+: a.queued ∧ a.carried.length < b.carried.length) ∧
    ∀ before after t a, Interrupted e acts n before after t a →
      a.carried.length < a.queued.length ∧ ∃ later more, a.Resumes b later more := by
  subst hs
  have hvalid := (kept_play e acts).valid
  rw [segmentSize_play] at hvalid
  refine ⟨hvalid.gapped b (List.mem_of_getElem? hb), ?_, fun before after t a h =>
    ⟨h.dropped.2, h.resumes hb⟩⟩
  rcases whole_or_interrupted hb with hwhole | hover | ⟨before, after, t, a, h, hfront⟩
  · exact .inl hwhole.carried_prefix_queued
  · exact .inl hover.1
  · obtain ⟨later, more, hresumes⟩ := h.resumes hb
    by_cases hmore : more = []
    · left
      rw [hresumes.carried, hresumes.queued, hmore, List.append_nil]
      exact hfront.trans (List.prefix_append _ _)
    · refine .inr ⟨before, after, t, a, h, hfront, ?_⟩
      rw [hresumes.carried, List.length_append]
      exact Nat.lt_add_of_pos_right (List.length_pos_iff.2 hmore)

/-! ### Bytes that no packet takes -/

/-- A segment that fits into no packet is lost, and nothing else happens. -/
theorem ends_transmit_oversized {s : Stack} {port : UInt16} {link : Link} {control : Control}
    {payload : Bytes} (h : s.links.get? port = some link)
    (hp : ∀ packet, s.packetOf (link.segment port control payload) ≠ .ok packet) :
    (transmit port control payload).Ends s (fun _ _ => False) (fun h t => h ≠ .waiting ∧
      t = { s with journal := .lost (link.segment port control payload) :: s.journal }) := by
  unfold transmit linkAt
  rw [ends_bind, ends_bind, ends_get, h, ends_ofOption_some, ends_bind, ends_attempt]
  unfold put
  rw [ends_bind, ends_get, ends_bind]
  cases hpacket : s.packetOf (link.segment port control payload) with
  | error e => exact ⟨nofun, rfl⟩
  | ok packet => exact absurd hpacket (hp packet)

/-- What is queued on the only connection of a stack, if it is open. -/
theorem state_queue {s : Stack} {port : UInt16} {l : Link} (hlinks : s.links = [(port, l)])
    (hs : l.status = .connected) (bytes : Bytes) :
    (queue port bytes).state s = { s with
      links := [(port, { l with queued := l.queued ++ bytes })]
      journal := .queued port bytes :: s.journal } := by
  have hl : s.links.get? port = some l := by simp [hlinks, Table.get?]
  refine Call.Ends.state (P := fun t => t = _) ?_
  unfold queue
  rw [ends_bind]
  refine (ends_linkAt hl).mono (fun l' t ht => ?_) fun _ _ => False.elim
  obtain ⟨rfl, rfl⟩ := ht
  rw [hs]
  dsimp only
  rw [setLink, ends_bind, ends_modify]
  simp [record, hlinks, Table.update]

/-- What is queued on the only connection of a stack is one piece and fits into no packet. A flush
loses it, and nothing else happens. -/
theorem state_flush_oversized {s : Stack} {port : UInt16} {l : Link}
    (hlinks : s.links = [(port, l)]) (hq : l.queued ≠ [])
    (hsize : l.queued.length ≤ s.segmentSize)
    (hp : ∀ packet, s.packetOf (l.segment port Link.carrying l.queued) ≠ .ok packet) :
    flush.state s = { s with
      links := [(port, { l with queued := [] })]
      journal := .lost (l.segment port Link.carrying l.queued) :: s.journal } := by
  have hl : s.links.get? port = some l := by simp [hlinks, Table.get?]
  have hbusy : Table.ports (s.links.filter fun entry => !entry.2.queued.isEmpty) = [port] := by
    simp [hlinks, hq, Table.ports]
  refine Call.Ends.state (P := fun t => t = _) ?_
  unfold flush
  rw [ends_bind, ends_get]
  dsimp only
  rw [hbusy, List.forM, ends_bind, flushLink, ends_bind]
  refine (ends_linkAt hl).mono (fun l' t ht => ?_) fun _ _ => False.elim
  obtain ⟨rfl, rfl⟩ := ht
  rw [setLink, ends_bind, ends_modify, ends_bind, ends_get]
  dsimp only
  rw [pieces_of_length_le hq hsize, List.forM, List.forM, ends_bind, sendPiece, ends_bind]
  refine (ends_transmit_oversized
    (Table.get?_update_self (l := { l' with queued := [] }) hl) fun packet => ?_).mono
      (fun _ _ => False.elim) fun _ t ht => ?_
  · exact hp packet
  · rw [ht.2]
    simp [hlinks, Table.update, Link.segment]

/-- Bytes that are one piece and fit into no packet are queued on the only connection of a stack,
and flushed. The connection is as it was before. -/
theorem play_oversized {s : Stack} {port : UInt16} {l : Link} {bytes : Bytes}
    (hlinks : s.links = [(port, l)]) (hs : l.status = .connected) (hq : l.queued = [])
    (hb : bytes ≠ []) (hsize : bytes.length ≤ s.segmentSize)
    (hp : ∀ packet, s.packetOf (l.segment port Link.carrying bytes) ≠ .ok packet) :
    play [.queue port bytes, .flush] s = { s with
      journal :=
        .lost (l.segment port Link.carrying bytes) :: .queued port bytes :: s.journal } := by
  have hqueue := state_queue hlinks hs bytes
  rw [hq, List.nil_append] at hqueue
  have hflush := state_flush_oversized (l := { l with queued := bytes }) (s := { s with
    links := [(port, { l with queued := bytes })]
    journal := .queued port bytes :: s.journal }) rfl hb hsize hp
  change flush.state ((queue port bytes).state s) = _
  rw [hqueue, hflush]
  simp [hlinks, Link.segment, ← hq]

/-- A connection on which bytes are queued that fit into no packet, and flushed, and then one
more. -/
def wasting (bytes : Bytes) : List Act :=
  [.world (Ends.sample.packet acceptance) .silent none, .connect 80 [0] 7, .queue 49152 bytes,
    .flush, .queue 49152 [1], .flush]

/-- The connection that was begun is the only one. -/
theorem links_wasting :
    ((play ((wasting []).take 2) (ofEnds Chronicle.wide)).links,
      (play ((wasting []).take 2) (ofEnds Chronicle.wide)).segmentSize,
      (play ((wasting []).take 2) (ofEnds Chronicle.wide)).host,
      (play ((wasting []).take 2) (ofEnds Chronicle.wide)).device) =
      ([(49152, { peerPort := 80, sequence := 8, expected := 1, status := .connected })], 99960,
        Chronicle.wide.host, Chronicle.wide.device) := by
  cbv

/-- Of what is queued on it, only what is queued last goes into the tunnel. -/
theorem exists_account_wasting {bytes : Bytes} (h : 65496 ≤ bytes.length)
    (h' : bytes.length ≤ 99960) :
    ∃ b : Account, (play (wasting bytes) (ofEnds Chronicle.wide)).ledger.accounts[0]? = some b ∧
      b.carried = [1] ∧ b.queued = bytes ++ [1] := by
  have hstart := links_wasting
  simp only [Prod.mk.injEq] at hstart
  obtain ⟨hlinks, hsize, hhost, hdevice⟩ := hstart
  have hacts : wasting bytes = (wasting []).take 2 ++ ([.queue 49152 bytes, .flush] ++
      [.queue 49152 [1], .flush]) := rfl
  -- Once the long bytes are lost they occur only in the journal, and the rest can be evaluated.
  have haccounts : (play (wasting bytes) (ofEnds Chronicle.wide)).ledger.accounts.map
      (fun a => (a.carried, a.queued)) = [([1], bytes ++ [1])] := by
    rw [hacts, play_append, play_append, play_oversized hlinks rfl rfl
      (List.ne_nil_of_length_pos (Nat.lt_of_lt_of_le (by decide) h)) (hsize ▸ h')
      (packetOf_ne_ok hhost hdevice h)]
    cbv
  have hzero := congrArg (·[0]?) haccounts
  rw [List.getElem?_map] at hzero
  obtain ⟨b, hb, heq⟩ := Option.map_eq_some_iff.1 hzero
  exact ⟨b, hb, congrArg Prod.fst heq, congrArg Prod.snd heq⟩

theorem exists_account_vast :
    ∃ b : Account,
      (play (wasting Chronicle.vast) (ofEnds Chronicle.wide)).ledger.accounts[0]? = some b ∧
        b.carried = [1] ∧ b.queued = Chronicle.vast ++ [1] := by
  have hlength : Chronicle.vast.length = 70000 := List.length_replicate
  exact exists_account_wasting (by rw [hlength]; decide) (by rw [hlength]; decide)

theorem not_prefix_vast : ¬ [1] <+: Chronicle.vast ++ [1] := by
  intro h
  rw [Chronicle.vast, List.replicate_succ, List.cons_append, List.cons_prefix_cons] at h
  cases h.1

/-- The second flush succeeds, and what goes into the tunnel is not the beginning of what was
queued. -/
theorem missing_wasting :
    ∃ b : Account,
      (play (wasting Chronicle.vast) (ofEnds Chronicle.wide)).ledger.accounts[0]? = some b ∧
        b.carried = [1] ∧ b.queued = Chronicle.vast ++ [1] ∧ ¬ b.carried <+: b.queued := by
  obtain ⟨b, hb, hcarried, hqueued⟩ := exists_account_vast
  exact ⟨b, hb, hcarried, hqueued, by rw [hcarried, hqueued]; exact not_prefix_vast⟩

/-- It is the first flush that was interrupted. -/
theorem gaps_vast :
    ∃ b : Account,
      (play (wasting Chronicle.vast) (ofEnds Chronicle.wide)).ledger.accounts[0]? = some b ∧
        (∃ gaps last, b.Gapped (mss Chronicle.wide) gaps last) ∧
        ∃ before after t a,
          Interrupted Chronicle.wide (wasting Chronicle.vast) 0 before after t a ∧
            a.carried.length < a.queued.length ∧ ∃ later more, a.Resumes b later more := by
  obtain ⟨b, hb, hcarried, hqueued⟩ := exists_account_vast
  obtain ⟨hgapped, hfront, hresumes⟩ := gaps_of_interrupted rfl hb
  rw [hcarried, hqueued] at hfront
  obtain ⟨before, after, t, a, h, -⟩ := hfront.resolve_left not_prefix_vast
  exact ⟨b, hb, hgapped, before, after, t, a, h, hresumes before after t a h⟩

end Stack

end Tether.Tunnel
