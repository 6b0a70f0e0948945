import Tether.Proofs.Tunnel.Idle
import Tether.Proofs.Tunnel.Users

/-!
# Calm between turns

Between turns a switchboard is *calm*: nothing is queued on any connection, and each connection on
a route is open and has been emptied into the inbox of its stream. A turn disturbs this, and
passing on, with which it ends, brings it about again.

* `Settled`: what holds of the routes and the ledger in the course of a turn;
* `Ready.dispatch`: passing on leaves a switchboard calm;
* `Session.rests_run`: a session is calm as long as its switchboard runs.
-/

namespace Tether.Tunnel

open Net Call

theorem Link.status_accept_ne_connecting {l : Link} {x : Segment} (h : l.status ≠ .connecting) :
    (l.accept x).1.status ≠ .connecting := by
  cases hl : l.status with
  | connecting => exact absurd hl h
  | connected =>
    rw [accept_connected hl]
    repeat' split
    all_goals simp [takeIn, finish, hl]
  | ended fault => rwa [accept_ended hl]

/-! ## The account of one port -/

/-- The account of a port after some events, of which those at the port are entered. -/
def Account.after (a : Account) (p : UInt16) (es : Journal) : Account :=
  es.foldr (fun e a => if e.port = p then a.note e else a) a

/-- What each event preserves. -/
theorem Account.after_induction {P : Account → Prop} {a : Account} {p : UInt16} {es : Journal}
    (ha : P a) (hnote : ∀ a, ∀ e ∈ es, e.port = p → P a → P (a.note e)) : P (a.after p es) := by
  induction es with
  | nil => exact ha
  | cons e es ih =>
    have ih := ih fun a e he => hnote a e (List.mem_cons_of_mem _ he)
    rw [after, List.foldr_cons]
    split
    · next hp => exact hnote _ e List.mem_cons_self hp ih
    · exact ih

/-- What becomes of the account of a port as long as no connection begins or ends. -/
theorem Ledger.at?_append {es j : Journal} (hes : ∀ e ∈ es, e.isTurn = false) (p : UInt16) :
    (ofJournal (es ++ j)).at? p = ((ofJournal j).at? p).map (·.after p es) := by
  induction es with
  | nil => exact Option.map_id'.symm
  | cons e es ih =>
    have ih := ih fun e he => hes e (List.mem_cons_of_mem _ he)
    rw [List.cons_append, ofJournal]
    by_cases hp : e.port = p
    · subst hp
      rw [at?_note (hes e List.mem_cons_self), ih, Option.map_map]
      congr 1
      funext a
      rw [Function.comp_apply, Account.after, Account.after, List.foldr_cons, if_pos rfl]
    · rw [at?_note_of_ne (sound_ofJournal _) hp, ih]
      congr 1
      funext a
      rw [Account.after, Account.after, List.foldr_cons, if_neg hp]

/-- What concerns other ports leaves the account of a port alone. -/
theorem Ledger.at?_append_of_ne {es j : Journal} {p : UInt16} (hes : ∀ e ∈ es, e.port ≠ p) :
    (ofJournal (es ++ j)).at? p = (ofJournal j).at? p := by
  induction es with
  | nil => rfl
  | cons e es ih =>
    rw [List.cons_append, ofJournal,
      at?_note_of_ne (sound_ofJournal _) (hes e List.mem_cons_self)]
    exact ih fun e he => hes e (List.mem_cons_of_mem _ he)

/-! ## Routes and the ledger -/

/-- Nothing is queued, and the connections on some routes are not still to come about. Each of
them is open, and all that it has accepted was taken, unless its port is still `todo`. -/
structure Settled (todo : UInt16 → Prop) (routes : List (UInt16 × Nat)) (l : Ledger) : Prop where
  idle : ∀ p a, l.at? p = some a → a.pending = []
  routed : ∀ r ∈ routes, ∃ a, l.at? r.1 = some a ∧ a.heard.status ≠ .connecting ∧
    (¬ todo r.1 → a.taken = a.accepted ∧ a.heard.status = .connected)

namespace Settled

variable {todo todo' : UInt16 → Prop} {routes routes' : List (UInt16 × Nat)} {l : Ledger}
  {es j : Journal} {port : UInt16}

theorem mono (h : Settled todo routes l) (hr : ∀ r ∈ routes', r ∈ routes)
    (ht : ∀ r ∈ routes', todo r.1 → todo' r.1) : Settled todo' routes' l where
  idle := h.idle
  routed r hr' := by
    obtain ⟨a, ha, hs, hc⟩ := h.routed r (hr r hr')
    exact ⟨a, ha, hs, fun hn => hc fun h' => hn (ht r hr' h')⟩

/-- Whatever happens at one port, as long as nothing is queued there afterwards. -/
theorem elsewhere (h : Settled todo routes (Ledger.ofJournal j)) (hes : ∀ e ∈ es, e.port = port)
    (hidle : ∀ a, (Ledger.ofJournal (es ++ j)).at? port = some a → a.pending = [])
    (hr : ∀ r ∈ routes, r.1 ≠ port) : Settled todo routes (Ledger.ofJournal (es ++ j)) := by
  have hat : ∀ p, p ≠ port → (Ledger.ofJournal (es ++ j)).at? p = (Ledger.ofJournal j).at? p :=
    fun p hp => Ledger.at?_append_of_ne fun e he => hes e he ▸ hp.symm
  refine ⟨fun p a ha => ?_, fun r hr' => ?_⟩
  · by_cases hp : p = port
    · exact hidle a (hp ▸ ha)
    · exact h.idle p a (hat p hp ▸ ha)
  · rw [hat _ (hr r hr')]
    exact h.routed r hr'

/-- Traffic may make work for any route. -/
theorem traffic (h : Settled todo routes (Ledger.ofJournal j)) (hes : ∀ e ∈ es, e.isTraffic = true) :
    Settled (fun _ => True) routes (Ledger.ofJournal (es ++ j)) := by
  have hat (p : UInt16) : (Ledger.ofJournal (es ++ j)).at? p =
      ((Ledger.ofJournal j).at? p).map (·.after p es) :=
    Ledger.at?_append (fun e he => Event.isTurn_of_isTraffic (hes e he)) p
  refine ⟨fun p a ha => ?_, fun r hr => ?_⟩
  · rw [hat, Option.map_eq_some_iff] at ha
    obtain ⟨b, hb, rfl⟩ := ha
    refine Account.after_induction (P := fun a => a.pending = []) (h.idle p b hb)
      fun a e he _ ha => ?_
    have htraffic := hes e he
    cases e with
    | arrived x => exact ha
    | sent x => rw [Account.note, ha, List.drop_nil]
    | lost x => rw [Account.note, ha, ite_self]
    | _ => cases htraffic
  · obtain ⟨b, hb, hs, -⟩ := h.routed r hr
    refine ⟨b.after r.1 es, by rw [hat, hb]; rfl, ?_, fun hn => absurd trivial hn⟩
    refine Account.after_induction (P := fun a => a.heard.status ≠ .connecting) hs
      fun a e he _ ha => ?_
    have htraffic := hes e he
    cases e with
    | arrived x =>
      rw [Account.heard_note_arrived]
      exact Link.status_accept_ne_connecting ha
    | sent | lost => exact ha
    | _ => cases htraffic

/-- Bytes are queued and sent at a port. -/
theorem send (h : Settled todo routes (Ledger.ofJournal j))
    (hes : ∀ e ∈ es, (∃ bytes, e = .queued port bytes) ∨ Stack.PostsOf port e)
    (hidle : ∀ a, (Ledger.ofJournal (es ++ j)).at? port = some a → a.pending = []) :
    Settled todo routes (Ledger.ofJournal (es ++ j)) := by
  have hport : ∀ e ∈ es, e.port = port := by
    intro e he
    rcases hes e he with ⟨bytes, rfl⟩ | ⟨-, hp⟩
    · rfl
    · exact hp
  have hturn : ∀ e ∈ es, e.isTurn = false := by
    intro e he
    rcases hes e he with ⟨bytes, rfl⟩ | ⟨hpost, -⟩
    · rfl
    · exact Event.isTurn_of_isTraffic (Event.isTraffic_of_isPost hpost)
  have hfewer : Settled todo (routes.filter fun r => r.1 ≠ port) (Ledger.ofJournal j) :=
    h.mono (fun _ hr => List.mem_of_mem_filter hr) fun _ _ ht => ht
  have hothers := hfewer.elsewhere hport hidle fun r hr => by simpa using (List.mem_filter.1 hr).2
  refine ⟨hothers.idle, fun r hr => ?_⟩
  by_cases hp : r.1 = port
  · obtain ⟨a, ha, hs, hc⟩ := h.routed r hr
    have hat : (Ledger.ofJournal (es ++ j)).at? r.1 = some (a.after r.1 es) := by
      rw [Ledger.at?_append hturn, ha]
      rfl
    obtain ⟨hheard, htaken⟩ : (a.after r.1 es).heard = a.heard ∧
        (a.after r.1 es).taken = a.taken := by
      refine Account.after_induction (P := fun b => b.heard = a.heard ∧ b.taken = a.taken)
        ⟨rfl, rfl⟩ fun b e he _ hb => ?_
      rcases hes e he with ⟨bytes, rfl⟩ | ⟨hpost, -⟩
      · exact hb
      · cases e with
        | sent | lost => exact hb
        | _ => cases hpost
    refine ⟨_, hat, by rwa [hheard], fun hn => ?_⟩
    rw [Account.accepted, hheard, htaken]
    exact hc hn
  · exact hothers.routed r (List.mem_filter.2 ⟨hr, by simpa using hp⟩)

/-- What has arrived at a port is taken. -/
theorem taken {bytes : Bytes} {a : Account} {isLast : Bool} (h : Settled todo routes l)
    (hl : l.Sound) (ha : l.at? port = some a) (ht : a.taken ++ bytes = a.accepted)
    (hlast : isLast = false → a.heard.status = .connected) :
    Settled (fun p => if p = port then isLast = true else todo p) routes
      (l.note (.taken port bytes)) := by
  have hat : (l.note (.taken port bytes)).at? port = some (a.note (.taken port bytes)) :=
    (Ledger.at?_note rfl).trans (congrArg _ ha)
  have hne (p : UInt16) (hp : p ≠ port) : (l.note (.taken port bytes)).at? p = l.at? p :=
    Ledger.at?_note_of_ne hl (Ne.symm hp)
  refine ⟨fun p b hb => ?_, fun r hr => ?_⟩
  · by_cases hp : p = port
    · rw [hp, hat] at hb
      obtain rfl := Option.some.inj hb
      exact h.idle port a ha
    · exact h.idle p b (hne p hp ▸ hb)
  · obtain ⟨b, hb, hs, hc⟩ := h.routed r hr
    by_cases hp : r.1 = port
    · rw [hp, ha] at hb
      obtain rfl := Option.some.inj hb
      refine ⟨a.note (.taken port bytes), by rw [hp, hat], hs, fun hn => ?_⟩
      rw [if_pos hp] at hn
      exact ⟨ht, hlast (Bool.eq_false_iff.2 hn)⟩
    · refine ⟨b, (hne _ hp).trans hb, hs, fun hn => hc ?_⟩
      rwa [if_neg hp] at hn

end Settled

/-! ## Passing on -/

namespace Switchboard

variable {todo : UInt16 → Prop} {b c : Switchboard} {port : UInt16} {i : Nat} {l : Link}

theorem ends_deliver_stack (i : Nat) (p : Piece) (b : Switchboard) :
    (deliver i p).Ends b (fun _ c => c.stack = b.stack ∧ c.routes = b.routes)
      (fun _ _ => False) := by
  unfold deliver
  rw [ends_bind, ends_get]
  split
  · split
    · exact ⟨rfl, rfl⟩
    · exact ⟨rfl, rfl⟩
  · exact ⟨rfl, rfl⟩

theorem ends_passEnd_stack (hl : b.stack.links.get? port = some l) (i : Nat) :
    (passEnd (port, i)).Ends b
      (fun isLast c => (c.stack = b.stack ∧ c.routes = b.routes) ∧
        (isLast = false → ∀ fault, l.status ≠ .ended fault))
      (fun _ _ => False) := by
  unfold passEnd
  rw [ends_bind, ends_get, hl]
  split
  · rw [ends_bind]
    exact (ends_deliver_stack _ _ b).mono (fun _ c hc => ⟨hc, nofun⟩) fun _ _ => id
  · next hne =>
    refine ⟨⟨rfl, rfl⟩, fun _ fault hf => ?_⟩
    obtain ⟨peerPort, sequence, expected, received, queued, status⟩ := l
    subst hf
    exact hne _ _ _ _ _ _ rfl

/-- Passing on takes what has arrived, and does no more to the stack. -/
theorem ends_passOn_stack (hk : b.stack.Kept) (hl : b.stack.links.get? port = some l) (i : Nat) :
    (passOn (port, i)).Ends b
      (fun isLast c => c.routes = b.routes ∧ c.stack.Kept ∧
        c.stack.journal = .taken port l.received :: b.stack.journal ∧
        (isLast = false → ∀ fault, l.status ≠ .ended fault))
      (fun _ _ => False) := by
  rw [passOn_eq]
  unfold onStack
  rw [ends_bind, ends_attempt, ends_zoom]
  refine (Stack.ends_take hk hl).mono (fun bytes t ht => ?_) fun _ _ => False.elim
  obtain ⟨rfl, hk, hj, hlinks⟩ := ht
  have hl' : t.links.get? port = some { l with received := [] } := by
    rw [hlinks, Table.get?_update_self hl]
  have hend {c : Switchboard} (hs : c.stack = t) (hr : c.routes = b.routes) :
      (passEnd (port, i)).Ends c
        (fun isLast c => c.routes = b.routes ∧ c.stack.Kept ∧
          c.stack.journal = .taken port l.received :: b.stack.journal ∧
          (isLast = false → ∀ fault, l.status ≠ .ended fault))
        (fun _ _ => False) := by
    refine (ends_passEnd_stack (hs ▸ hl') i).mono (fun isLast d hd => ?_) fun _ _ => id
    have hstack : d.stack = t := hd.1.1.trans hs
    exact ⟨hd.1.2.trans hr, hstack ▸ hk, hstack ▸ hj, hd.2⟩
  dsimp only
  split
  · exact hend rfl rfl
  · rw [ends_bind]
    refine (ends_deliver_stack _ _ _).mono (fun isHeld d hd => ?_) fun _ _ => id
    split
    · exact hend hd.1 hd.2
    · exact ⟨hd.2, hd.1 ▸ hk, hd.1 ▸ hj, nofun⟩

/-- What holds of a switchboard in the course of a turn. -/
structure Ready (todo : UInt16 → Prop) (b : Switchboard) : Prop where
  kept : b.stack.Kept
  settled : Settled todo b.routes b.stack.ledger

/-- Nothing is queued, and nothing is left to be passed on. -/
abbrev Calm (b : Switchboard) : Prop :=
  Ready (fun _ => False) b

/-- What holds between turns. -/
def Rests (b : Switchboard) : Prop :=
  b.isRunning = true → Calm b

theorem rests_of_stopped (h : b.isRunning = false) : Rests b :=
  fun hr => absurd (hr.symm.trans h) Bool.noConfusion

namespace Ready

theorem of_eq (h : Ready todo b) (hs : c.stack = b.stack) (hr : c.routes = b.routes) :
    Ready todo c :=
  ⟨hs ▸ h.kept, hs ▸ hr ▸ h.settled⟩

theorem passOn (h : Ready todo b) (hr : (port, i) ∈ b.routes) :
    (passOn (port, i)).Ends b
      (fun isLast c => Ready (fun p => if p = port then isLast = true else todo p) c ∧
        c.routes = b.routes)
      (fun _ _ => False) := by
  obtain ⟨a, ha, hs, -⟩ := h.settled.routed _ hr
  obtain ⟨l, hl, htells⟩ := h.kept.exists_link ha
  refine (ends_passOn_stack h.kept hl i).mono (fun isLast c hc => ?_) fun _ _ => id
  obtain ⟨hroutes, hk, hj, hend⟩ := hc
  have hledger : c.stack.ledger = b.stack.ledger.note (.taken port l.received) := by
    rw [Stack.ledger, hj]
    rfl
  refine ⟨⟨hk, ?_⟩, hroutes⟩
  rw [hroutes, hledger]
  refine h.settled.taken (Ledger.sound_ofJournal _) ha htells.received fun hlast => ?_
  have hne := hend hlast
  rw [htells.status] at hne
  cases hstatus : a.heard.status with
  | connecting => exact absurd hstatus hs
  | connected => rfl
  | ended fault => exact absurd hstatus (hne fault)

theorem passOnAll (routes : List (UInt16 × Nat)) (h : Ready todo b)
    (hsub : ∀ r ∈ routes, r ∈ b.routes) :
    (passOnAll routes).Ends b
      (fun finished c =>
        Ready (fun p => p ∈ finished ∨ todo p ∧ p ∉ routes.map Prod.fst) c ∧ c.routes = b.routes)
      (fun _ _ => False) := by
  induction routes generalizing b todo with
  | nil => exact ⟨⟨h.kept, h.settled.mono (fun _ hr => hr) fun _ _ ht => .inr ⟨ht, nofun⟩⟩, rfl⟩
  | cons r routes ih =>
    obtain ⟨port, i⟩ := r
    unfold Switchboard.passOnAll
    rw [ends_bind]
    refine (h.passOn (hsub _ List.mem_cons_self)).mono (fun isLast c hc => ?_) fun _ _ => id
    rw [ends_bind]
    refine (ih hc.1 fun r hr => hc.2 ▸ hsub r (List.mem_cons_of_mem _ hr)).mono
      (fun finished d hd => ?_) fun _ _ => id
    refine ⟨⟨hd.1.kept, hd.1.settled.mono (fun _ hr => hr) fun r _ ht => ?_⟩, hd.2.trans hc.2⟩
    rcases ht with hf | ⟨ht, hn⟩
    · left
      split
      · exact List.mem_cons_of_mem _ hf
      · exact hf
    · by_cases hp : r.1 = port
      · rw [if_pos hp] at ht
        left
        rw [if_pos ht, hp]
        exact List.mem_cons_self
      · rw [if_neg hp] at ht
        exact .inr ⟨ht, by simpa [hp] using hn⟩

theorem hangUp (h : Ready todo b) (port : UInt16) :
    (hangUp port).Ends b
      (fun _ c => Ready (fun p => todo p ∧ p ≠ port) c) (fun _ _ => False) := by
  have hclosed {t : Stack} (hk : t.Kept)
      (hg : Stack.Grows (fun e => Stack.PostsOf port e ∨ e = .forgotten port) b.stack t)
      (hat : t.ledger.at? port = none) {c : Switchboard} (hs : c.stack = t)
      (hr : c.routes = b.routes.filter fun r => r.1 ≠ port) :
      Ready (fun p => todo p ∧ p ≠ port) c := by
    obtain ⟨es, hj, hes, -⟩ := hg.events
    have hrest : ∀ r ∈ c.routes, r ∈ b.routes ∧ r.1 ≠ port := by
      intro r hr'
      rw [hr] at hr'
      exact ⟨List.mem_of_mem_filter hr', by simpa using (List.mem_filter.1 hr').2⟩
    have hsettled : Settled (fun p => todo p ∧ p ≠ port) c.routes b.stack.ledger :=
      h.settled.mono (fun r hr => (hrest r hr).1) fun r hr ht => ⟨ht, (hrest r hr).2⟩
    rw [Stack.ledger, hj] at hat
    refine ⟨hs ▸ hk, ?_⟩
    rw [hs, Stack.ledger, hj]
    refine hsettled.elsewhere (fun e he => ?_) (fun a ha => ?_) fun r hr => (hrest r hr).2
    · rcases hes e he with ⟨-, hp⟩ | rfl
      · exact hp
      · rfl
    · rw [hat] at ha
      cases ha
  unfold Switchboard.hangUp tryOnStack Switchboard.onStack unroute
  rw [ends_bind, ends_modify, ends_bind, ends_attempt, ends_zoom]
  refine (Stack.ends_closing h.kept port).mono (fun _ t ht => ?_) fun h' t ht => ?_
  · exact hclosed ht.1.1 ht.1.2 ht.2 rfl rfl
  · cases h' with
    | failed e => exact hclosed ht.2.1.1 ht.2.1.2 ht.2.2 rfl rfl
    | waiting => exact absurd rfl ht.1

theorem hangUpAll (ports : List UInt16) (h : Ready (· ∈ ports) b) :
    (ports.forM Switchboard.hangUp).Ends b (fun _ => Calm) (fun _ _ => False) := by
  induction ports generalizing b with
  | nil => exact ⟨h.kept, h.settled.mono (fun _ hr => hr) fun _ _ => List.not_mem_nil⟩
  | cons port ports ih =>
    rw [List.forM, ends_bind]
    refine (h.hangUp port).mono (fun _ c hc => ih ⟨hc.kept, hc.settled.mono (fun _ hr => hr) ?_⟩)
      fun _ _ => id
    intro r _ ht
    exact (List.mem_cons.1 ht.1).resolve_left ht.2

/-- Passing on leaves a switchboard calm. -/
theorem dispatch (h : Ready (fun _ => True) b) :
    dispatch.Ends b (fun _ => Calm) (fun _ _ => False) := by
  unfold Switchboard.dispatch
  rw [ends_bind, ends_get, ends_bind]
  refine (h.passOnAll b.routes fun _ hr => hr).mono (fun finished c hc => ?_) fun _ _ => id
  refine hangUpAll finished ⟨hc.1.kept, hc.1.settled.mono (fun _ hr => hr) fun r hr ht => ?_⟩
  exact ht.resolve_right fun hn => hn.2 (List.mem_map_of_mem (hc.2 ▸ hr))

/-- What a turn leaves when it ends with passing on. -/
theorem dispatch_rests (h : Ready todo b) :
    Switchboard.dispatch.Ends b (fun _ => Rests) (fun _ => Rests) := by
  have hall : Ready (fun _ => True) b :=
    ⟨h.kept, h.settled.mono (fun _ hr => hr) fun _ _ _ => trivial⟩
  exact hall.dispatch.mono (fun _ _ hc _ => hc) fun _ _ => False.elim

/-! ## Turns -/

theorem isIdle (h : Ready todo b) (p : UInt16) : b.stack.IsIdle p := by
  intro l hl
  obtain ⟨a, ha, htells⟩ := h.kept.exists_account hl
  rw [htells.queued]
  exact h.settled.idle p a ha

theorem traffic {t : Stack} (h : Ready todo b) (hk : t.Kept)
    (hg : Stack.Grows (Event.isTraffic ·) b.stack t) :
    Ready (fun _ => True) { b with stack := t } := by
  obtain ⟨es, hj, hes, -⟩ := hg.events
  refine ⟨hk, ?_⟩
  rw [Stack.ledger, hj]
  exact h.settled.traffic hes

theorem sent {t : Stack} {bytes : Bytes} (h : Ready todo b) (hk : t.Kept) (hidle : t.IsIdle port)
    (hg : Stack.Grows (fun e => e = .queued port bytes ∨ Stack.PostsOf port e) b.stack t) :
    Ready todo { b with stack := t } := by
  obtain ⟨es, hj, hes, -⟩ := hg.events
  refine ⟨hk, ?_⟩
  have hledger : t.ledger = Ledger.ofJournal (es ++ b.stack.journal) := by rw [Stack.ledger, hj]
  rw [hledger]
  refine h.settled.send (fun e he => (hes e he).imp_left fun he => ⟨bytes, he⟩) fun a ha => ?_
  obtain ⟨l, hl, htells⟩ := hk.exists_link (hledger ▸ ha)
  rw [← htells.queued]
  exact hidle l hl

/-- A connection is begun at a port that no route has. -/
theorem dialed {s t : Stack} {peerPort : UInt16} {first : UInt32} {routes : List (UInt16 × Nat)}
    (h : Settled todo routes s.ledger) (hd : Stack.Dialed peerPort first port s t)
    (hr : ∀ r ∈ routes, r.1 ≠ port) : Settled (fun _ => True) routes t.ledger := by
  obtain ⟨-, -, es, hj, hes⟩ := hd
  have hopened : Settled todo routes
      (Ledger.ofJournal ([.opened port peerPort first] ++ s.journal)) := by
    refine h.elsewhere (fun e he => ?_) (fun a ha => ?_) hr
    · rw [List.mem_singleton.1 he]
      rfl
    · obtain rfl := Option.some.inj ((Ledger.at?_note_opened _ _ _ _).symm.trans ha)
      rfl
  rw [Stack.ledger, hj]
  exact hopened.traffic hes

theorem ne_of_free (h : Ready todo b) (hfree : b.stack.links.get? port = none) :
    ∀ r ∈ b.routes, r.1 ≠ port := by
  rintro ⟨q, i⟩ hr rfl
  obtain ⟨a, ha, -⟩ := h.settled.routed _ hr
  obtain ⟨l, hl, -⟩ := h.kept.exists_link ha
  rw [hfree] at hl
  cases hl

theorem stop_rests {m : Notes} (hd : Delivers m b.routes b) :
    Switchboard.stop.Ends b (fun _ c => c.isRunning = false) (fun _ _ => False) := by
  have hnone : Delivers m [] b :=
    hd.shrink (fun _ hr => absurd hr List.not_mem_nil) fun _ hf => hf
  exact hnone.stop.mono (fun _ _ hc => hc.2) fun _ _ => id

theorem serve {m : Notes} (h : Calm b) (hd : Delivers m b.routes b) (ticket : Nat)
    (request : Request) :
    (serve ticket request).Ends b (fun _ => Rests) (fun _ => Rests) := by
  cases request with
  | connect peerPort draws first =>
    unfold Switchboard.serve Switchboard.onStack
    rw [ends_bind, ends_attempt, ends_zoom]
    refine (Stack.ends_connect h.kept peerPort draws first).mono (fun port t ht => ?_)
      fun h' t ht => ?_
    · obtain ⟨hk, hdial, l, hl, hs⟩ := ht
      have hsettled := dialed h.settled hdial (h.ne_of_free hdial.1)
      have hready : Ready (fun _ => True) { b with stack := t } := ⟨hk, hsettled⟩
      dsimp only
      rw [ends_bind, ends_get]
      split
      · rw [ends_bind]
        exact (hready.hangUp port).mono (fun _ _ hc => hc.dispatch_rests) fun _ _ => False.elim
      · -- The new route is that of a connection that has come about.
        unfold Switchboard.openStream
        rw [ends_bind, ends_bind, ends_get, ends_bind, ends_set, ends_pure]
        obtain ⟨a, ha, htells⟩ := hk.exists_account hl
        suffices hall : Settled (fun _ => True) (b.routes ++ [(port, b.streams.length)]) t.ledger from
          dispatch_rests ⟨hk, hall⟩
        refine ⟨hsettled.idle, fun r hr => ?_⟩
        rcases List.mem_append.1 hr with hr | hr
        · exact hsettled.routed r hr
        · rw [List.mem_singleton.1 hr]
          refine ⟨a, ha, ?_, fun hn => absurd trivial hn⟩
          rw [← htells.status, hs]
          nofun
    · obtain ⟨hk, ⟨rfl, rfl⟩ | ⟨hw, port, u, hdial, hj⟩⟩ := ht
      · exact fun _ => h
      · cases h' with
        | waiting => exact absurd rfl hw
        | failed e =>
          have hne := h.ne_of_free hdial.1
          have hforgotten : Settled (fun _ => True) b.routes
              (Ledger.ofJournal ([.forgotten port] ++ u.journal)) := by
            refine (dialed h.settled hdial hne).elsewhere (fun e he => ?_) (fun a ha => ?_) hne
            · rw [List.mem_singleton.1 he]
              rfl
            · have hnone := Ledger.at?_note_forgotten (Ledger.ofJournal u.journal) port
              cases hnone.symm.trans ha
          have hledger : t.ledger = Ledger.ofJournal ([.forgotten port] ++ u.journal) := by
            rw [Stack.ledger, hj]
            rfl
          have hall : Settled (fun _ => True) b.routes t.ledger := hledger ▸ hforgotten
          exact dispatch_rests ⟨hk, hall⟩
  | send port bytes =>
    unfold Switchboard.serve Switchboard.onStack
    rw [ends_bind, ends_attempt, ends_zoom]
    refine (Stack.ends_send h.kept h.isIdle port bytes).mono (fun _ t ht => ?_) fun h' t ht => ?_
    · exact dispatch_rests ((h.sent ht.1 ht.2.1 ht.2.2).of_eq rfl rfl)
    · cases h' with
      | waiting => exact absurd rfl ht.1
      | failed e => exact dispatch_rests ((h.sent ht.2.1 ht.2.2.1 ht.2.2.2).of_eq rfl rfl)
  | close port =>
    unfold Switchboard.serve
    rw [ends_bind, ends_get]
    split
    · rw [ends_bind]
      exact (h.hangUp port).mono (fun _ _ hc => hc.dispatch_rests) fun _ _ => False.elim
    · exact h.dispatch_rests
  | capture file =>
    unfold Switchboard.serve Switchboard.onStack
    rw [ends_bind, ends_attempt, ends_zoom]
    have hstack {t : Stack} (hk : t.Kept) (hg : Stack.Grows (fun _ => False) b.stack t) :
        Ready (fun _ => False) { b with stack := t } := by
      refine ⟨hk, ?_⟩
      rw [Stack.ledger, hg.journal_eq]
      exact h.settled
    have hkeeps : Respects Stack.Keeps (Stack.startCapture file) :=
      Stack.keeps_act (.startCapture file)
    have hgrows : Respects (Stack.Grows fun _ => False) (Stack.startCapture file) :=
      Stack.grows_startCapture file
    refine ((hkeeps b.stack).and (hgrows b.stack)).mono (fun _ t ht => ?_) fun h' t ht => ?_
    · exact dispatch_rests ((hstack (ht.1 h.kept) ht.2).of_eq rfl rfl)
    · cases h' with
      | waiting => exact fun _ => hstack (ht.1 h.kept) ht.2
      | failed e => exact dispatch_rests ((hstack (ht.1 h.kept) ht.2).of_eq rfl rfl)
  | shutdown =>
    unfold Switchboard.serve
    rw [ends_bind]
    exact (stop_rests hd).mono (fun _ _ hc => rests_of_stopped hc) fun _ _ => False.elim

theorem serveNext {m : Notes} (h : Calm b) (hd : Delivers m b.routes b) :
    serveNext.Ends b (fun _ => Rests) (fun _ => Rests) := by
  unfold Switchboard.serveNext
  rw [ends_bind, ends_get]
  split
  · next ticket request later _ =>
    rw [ends_bind, ends_modify]
    have h' : Calm { b with requests := later } := h.of_eq rfl rfl
    exact h'.serve (hd.of_eq rfl rfl rfl) ticket request
  · rw [ends_bind, ends_get]
    split
    · exact fun _ => h
    · exact (stop_rests hd).mono (fun _ _ hc => rests_of_stopped hc) fun _ _ => False.elim

theorem listen {m : Notes} (h : Calm b) (hd : Delivers m b.routes b) :
    listen.Ends b (fun _ => Rests) (fun _ => Rests) := by
  -- A failure is told to each stream, and here it does not matter what the streams make of it.
  have hfell : Delivers { m with fell := fun _ => True } b.routes b :=
    hd.shrink (fun _ hr => hr) fun _ _ => trivial
  unfold Switchboard.listen Switchboard.onStack
  rw [ends_bind, ends_attempt, ends_zoom]
  refine (((Stack.keeps_process b.stack).and (Stack.grows_process b.stack)).and
    (Stack.ends_process_waiting b.stack)).mono (fun _ t ht => ?_) fun h' t ht => ?_
  · exact (h.traffic (ht.1.1 h.kept) ht.1.2).dispatch_rests
  · obtain ⟨⟨hk, hg⟩, hwaiting⟩ := ht
    cases h' with
    | waiting =>
      refine fun _ => ⟨hk h.kept, ?_⟩
      rw [Stack.ledger, hwaiting rfl]
      exact h.settled
    | failed e =>
      have hstack := hfell.traffic (hk h.kept) hg
      have hbreak := Delivers.breakDown (b := { b with stack := t }) hstack e fun _ _ => trivial
      exact hbreak.mono (fun _ _ hc => rests_of_stopped hc.2) fun _ _ => False.elim

theorem take {m : Notes} (h : Calm b) (hd : Delivers m b.routes b) (turn : Turn) :
    (take turn).Ends b (fun _ => Rests) (fun _ => Rests) := by
  cases turn with
  | atRequests => exact h.serveNext hd
  | atTunnel => exact h.listen hd

end Ready

end Switchboard

/-! ## Sessions -/

namespace Session

open Switchboard

variable {w : Session}

/-- A switchboard before and after something that is no turn. -/
structure Stands (b c : Switchboard) : Prop where
  links : c.stack.links = b.stack.links
  journal : c.stack.journal = b.stack.journal
  segmentSize : c.stack.segmentSize = b.stack.segmentSize
  routes : c.routes = b.routes
  isRunning : c.isRunning = b.isRunning

theorem Stands.refl (b : Switchboard) : Stands b b :=
  ⟨rfl, rfl, rfl, rfl, rfl⟩

theorem Stands.asks {b c : Switchboard} (h : Asks b c) : Stands b c := by
  obtain ⟨hs, hr, hi, -, -⟩ := h
  exact ⟨hs ▸ rfl, hs ▸ rfl, hs ▸ rfl, hr, hi⟩

/-- Users ask and read, and the world goes on; connections and routes change by turns only. -/
theorem stands_step (w : Session) {act : Act} (h : ∀ t, act ≠ .turn t) :
    Stands w.board (w.step act).board := by
  cases act with
  | read i most hm =>
    cases hs : w.board.streams[i]? with
    | none =>
      have hb : (w.step (.read i most hm)).board = w.board := state_read_none hs hm
      rw [hb]
      exact .refl _
    | some s =>
      have hb : (w.step (.read i most hm)).board =
          { w.board with streams := w.board.streams.set i (s.reading most).1 } :=
        state_read hs hm
      rw [hb]
      exact ⟨rfl, rfl, rfl, rfl, rfl⟩
  | turn t => exact absurd rfl (h t)
  | world | tick => exact ⟨rfl, rfl, rfl, rfl, rfl⟩
  | _ => exact .asks (asks_step w rfl)

/-- A switchboard that has stopped takes no turns, and one that runs serves all its routes. -/
theorem Sound.step_turn (hw : w.Sound) (t : Turn) {P : Switchboard → Prop}
    (hstopped : w.board.isRunning = false → P w.board)
    (htake : w.board.isRunning = true → Delivers (w.notes 0) w.board.routes w.board →
      (take t).Ends w.board (fun _ => P) (fun _ => P)) : P (w.step (.turn t)).board := by
  refine Call.Ends.state (P := P) ?_
  unfold Act.call
  rw [ends_bind, ends_get]
  split
  · next hr =>
    obtain ⟨live, hl, hd⟩ := hw.serves 0
    obtain rfl := hl hr
    exact htake hr hd
  · next hr => exact hstopped (by simpa using hr)

theorem Stands.rests {b c : Switchboard} (h : Stands b c) (hb : Rests b) : Rests c := by
  intro hr
  obtain ⟨hkept, hsettled⟩ := hb (h.isRunning ▸ hr)
  refine ⟨hkept.of_eq h.links h.journal h.segmentSize, ?_⟩
  rw [h.routes, Stack.ledger, h.journal]
  exact hsettled

theorem Sound.rests_step (hw : w.Sound) (h : Rests w.board) (act : Act) :
    Rests (w.step act).board := by
  by_cases hturn : ∃ t, act = .turn t
  · obtain ⟨t, rfl⟩ := hturn
    exact hw.step_turn t (fun _ => h) fun hr hd => (h hr).take hd t
  · exact (stands_step w fun t ht => hturn ⟨t, ht⟩).rests h

theorem rests_start {s : Stack} (hk : s.Kept) (hidle : ∀ p, s.IsIdle p) : Rests (start s).board := by
  refine fun _ => ⟨hk, fun p a ha => ?_, fun _ hr => absurd hr List.not_mem_nil⟩
  obtain ⟨l, hl, htells⟩ := hk.exists_link ha
  rw [← htells.queued]
  exact hidle p l hl

/-- A session is calm as long as its switchboard runs, if it was begun with nothing queued. -/
theorem rests_run {e : Tunnel.Ends} {before : List Stack.Act}
    (hidle : ∀ p, (Stack.play before (Stack.ofEnds e)).IsIdle p) (acts : List Act) :
    Rests (run e before acts).board := by
  have hrests := rests_start (Stack.kept_play e before) hidle
  have hsound := sound_start (Stack.kept_play e before)
  unfold run
  generalize start (Stack.play before (Stack.ofEnds e)) = w at hrests hsound
  induction acts generalizing w with
  | nil => exact hrests
  | cons act acts ih => exact ih _ (hsound.rests_step hrests act) (hsound.step act)

end Session

end Tether.Tunnel
