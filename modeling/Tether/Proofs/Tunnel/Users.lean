import Tether.Proofs.Tunnel.Reading

/-!
# What users get

Users only ask, and read. What they ask for waits for a turn, so between turns it changes nothing
that a stream still has to pass on. Together with what turns and reads do, this says what all
reads of a stream have returned, under any schedule.

* `Switchboard.Asks`: what asking leaves alone;
* `Session.Sound.play`: what holds of a session throughout;
* `Session.bytesOf_readsOf_prefix_accepted`: what the reads of a stream returned.
-/

namespace Tether.Tunnel

open Net Call

/-- Streams that differ in what their users have asked for, in who still has them, and in whether
more may arrive. -/
structure Stream.Like (s t : Stream) : Prop where
  port : t.port = s.port
  inbox : t.inbox = s.inbox
  rest : t.rest = s.rest
  hasEnded : t.hasEnded = s.hasEnded
  isHeld : t.isHeld = true → s.isHeld = true
  isFed : t.isFed = true → s.isFed = true

theorem Stream.Like.refl (s : Stream) : s.Like s :=
  ⟨rfl, rfl, rfl, rfl, id, id⟩

theorem Stream.Like.trans {s t u : Stream} (h : s.Like t) (h' : t.Like u) : s.Like u :=
  ⟨h'.port.trans h.port, h'.inbox.trans h.inbox, h'.rest.trans h.rest,
    h'.hasEnded.trans h.hasEnded, h.isHeld ∘ h'.isHeld, h.isFed ∘ h'.isFed⟩

namespace Switchboard

/-- A switchboard before and after users have asked for something. -/
structure Asks (b c : Switchboard) : Prop where
  stack : c.stack = b.stack
  routes : c.routes = b.routes
  isRunning : c.isRunning = b.isRunning
  length : c.streams.length = b.streams.length
  streams : ∀ (i : Nat) t, c.streams[i]? = some t → ∃ s, b.streams[i]? = some s ∧ s.Like t

variable {m m' : Notes} {live : List (UInt16 × Nat)} {b c : Switchboard} {s : Stream} {i most : Nat}

theorem Asks.of_eq (hs : c.stack = b.stack) (hr : c.routes = b.routes)
    (hi : c.isRunning = b.isRunning) (ht : c.streams = b.streams) : Asks b c :=
  ⟨hs, hr, hi, ht ▸ rfl, fun _ t h => ⟨t, ht ▸ h, .refl t⟩⟩

instance : IsPreorder Switchboard Asks where
  refl _ := .of_eq rfl rfl rfl rfl
  trans _ _ _ h h' := by
    refine ⟨h'.stack.trans h.stack, h'.routes.trans h.routes, h'.isRunning.trans h.isRunning,
      h'.length.trans h.length, fun i u hu => ?_⟩
    obtain ⟨t, ht, htu⟩ := h'.streams i u hu
    obtain ⟨s, hs, hst⟩ := h.streams i t ht
    exact ⟨s, hs, hst.trans htu⟩

/-! ## Asking -/

theorem respects_find {R : Switchboard → Switchboard → Prop} [IsPreorder Switchboard R] (i : Nat) :
    Respects R (Stream.find i) :=
  Respects.get.bind fun _ => .ofOption _

theorem respects_outcome {R : Switchboard → Switchboard → Prop} [IsPreorder Switchboard R]
    (ticket : Nat) : Respects R (outcome ticket) := by
  refine Respects.get.bind fun b => ?_
  split
  · exact .ofExcept _
  · split
    · exact .throw _
    · exact .fail _

theorem asks_update {α : Type} {f : Stream → Stream} (hf : ∀ s, Stream.Like s (f s)) (i : Nat)
    {k : PUnit → Call TunnelError Switchboard α} (hk : ∀ u, Respects Asks (k u)) :
    Respects Asks (do let s ← Stream.find i; let u ← Stream.put i (f s); k u) := by
  intro b
  cases hs : b.streams[i]? with
  | none =>
    unfold Stream.find
    rw [ends_bind, ends_bind, ends_get, hs]
    exact Asks.of_eq rfl rfl rfl rfl
  | some s =>
    rw [ends_bind]
    refine (Stream.ends_find hs).mono (fun t c hc => ?_) fun _ _ => False.elim
    obtain ⟨rfl, rfl⟩ := hc
    have hput : Asks c { c with streams := c.streams.set i (f t) } := by
      refine ⟨rfl, rfl, rfl, List.length_set, fun j u hu => ?_⟩
      dsimp only at hu
      rw [List.getElem?_set] at hu
      split at hu
      · next hij =>
        split at hu
        · exact ⟨t, hij ▸ hs, Option.some.inj hu ▸ hf t⟩
        · cases hu
      · exact ⟨u, hu, .refl u⟩
    rw [ends_bind]
    exact (hk _ _).mono (fun _ _ h => trans_of Asks hput h) fun _ _ h => trans_of Asks hput h

theorem asks_post (request : Request) : Respects Asks (post request) := by
  intro b
  unfold post
  rw [ends_bind, ends_get]
  dsimp only
  split
  · exact Asks.of_eq rfl rfl rfl rfl
  · exact Asks.of_eq rfl rfl rfl rfl

theorem asks_write (i : Nat) (bytes : Bytes) : Respects Asks (Stream.write i bytes) :=
  (respects_find i).bind fun _ => (asks_post _).bind fun ticket =>
    asks_update (f := fun s => { s with writes := s.writes ++ [ticket] })
      (fun _ => ⟨rfl, rfl, rfl, rfl, id, id⟩) i fun _ => .pure _

theorem asks_flush (i : Nat) : Respects Asks (Stream.flush i) := by
  refine (respects_find i).bind fun s => ?_
  generalize s.writes = tickets
  induction tickets with
  | nil => exact .pure _
  | cons ticket later ih =>
    exact (respects_outcome ticket).attempt.bind fun outcome =>
      asks_update (f := fun s => { s with writes := later }) (fun _ => ⟨rfl, rfl, rfl, rfl, id, id⟩) i
        fun _ => (Respects.ofExcept _).bind fun _ => ih

theorem asks_close (i : Nat) : Respects Asks (Stream.close i) :=
  (respects_find i).bind fun _ => (asks_post _).attempt.bind fun _ => .pure _

theorem asks_neglect (i : Nat) :
    Respects Asks (do Stream.put i { ← Stream.find i with isHeld := false }) := by
  have h := asks_update (f := fun s => { s with isHeld := false })
    (fun _ => ⟨rfl, rfl, rfl, rfl, nofun, id⟩) i (k := pure) fun _ => .pure _
  simpa only [bind_pure] using h

theorem asks_release (i : Nat) : Respects Asks (Stream.release i) :=
  (asks_close i).bind fun _ => asks_neglect i

/-- Whether an act only asks for something. -/
def Act.isAsking : Act → Bool
  | read .. | turn _ | world .. | tick _ => false
  | _ => true

theorem asks_call {act : Act} (h : act.isAsking = true) : Respects Asks act.call := by
  cases act with
  | connect | capture | shutdown => exact (asks_post _).bind fun _ => .pure _
  | abandon | release => exact fun _ => Asks.of_eq rfl rfl rfl rfl
  | write i bytes => exact (asks_write i bytes).bind fun _ => .pure _
  | flush i => exact asks_flush i
  | close i => exact asks_close i
  | drop i => exact asks_release i
  | neglect i => exact asks_neglect i
  | read | turn | world | tick => cases h

theorem Act.result_of_isAsking {act : Act} (h : act.isAsking = true) (b : Switchboard) :
    act.result b = [] := by
  cases act with
  | read => cases h
  | _ => rfl

/-! ## Between turns -/

namespace Serves

theorem asks (h : Serves m b) (hc : Asks b c) : Serves m c := by
  obtain ⟨live, hl, hd⟩ := h
  refine ⟨live, fun hr => (hl (hc.isRunning ▸ hr)).trans hc.routes.symm, hc.stack ▸ hd.kept,
    hc.routes ▸ hd.nodup, hc.routes ▸ hd.sub, hc.length ▸ hd.known, hc.stack ▸ hd.held,
    fun i t ht => ?_, hc.length ▸ hd.silent, hc.length ▸ hd.count_le⟩
  obtain ⟨s, hs, hlike⟩ := hc.streams i t ht
  obtain ⟨a, ha, hp, hfaith⟩ := hd.streams i s hs
  exact ⟨a, hc.stack ▸ ha, hp.trans hlike.port.symm,
    hfaith.of_eq hlike.inbox hlike.rest hlike.hasEnded hlike.isHeld⟩

/-- Streams that are not open play no part. -/
theorem congr (h : Serves m b) (ho : ∀ i < b.streams.length, m'.owner i = m.owner i)
    (hr : ∀ i, m'.reads i = m.reads i) (hf : ∀ i, m.fell i → m'.fell i)
    (hc : m'.count ≤ b.streams.length) : Serves m' b := by
  obtain ⟨live, hl, hd⟩ := h
  refine ⟨live, hl, hd.kept, hd.nodup, hd.sub, hd.known, fun r hr' => ?_, fun i s hs => ?_,
    fun i hi => (hr i).trans (hd.silent i hi), hc⟩
  · rw [ho _ (hd.known r hr')]
    exact hd.held r hr'
  · obtain ⟨a, ha, hp, hfaith⟩ := hd.streams i s hs
    rw [ho i (List.getElem?_eq_some_iff.1 hs).1, hr]
    exact ⟨a, ha, hp, hfaith.mono (.refl a) id (hf i) fun _ _ => rfl⟩

/-- The world and the clock do nothing to connections. -/
theorem onStack (h : Serves m b) {t : Stack} (hl : t.links = b.stack.links)
    (hj : t.journal = b.stack.journal) (hs : t.segmentSize = b.stack.segmentSize) :
    Serves m { b with stack := t } := by
  obtain ⟨live, hlive, hd⟩ := h
  have hj' : t.journal = [] ++ b.stack.journal := hj
  exact ⟨live, hlive, hd.onStack (hd.kept.of_eq hl hj hs) hj'
    (fun _ he => absurd he List.not_mem_nil) fun _ he => absurd he List.not_mem_nil⟩

/-- A stream is read. -/
theorem read (h : Serves m b) (hs : b.streams[i]? = some s) (hm : 0 < most)
    (hi : m'.reads i = m.reads i ++ (s.reading most).2.toList)
    (hr : ∀ k, k ≠ i → m'.reads k = m.reads k) (ho : m'.owner = m.owner) (hf : m'.fell = m.fell)
    (hc : m'.count = m.count) :
    Serves m' { b with streams := b.streams.set i (s.reading most).1 } := by
  obtain ⟨live, hlive, hd⟩ := h
  have hlen := (List.getElem?_eq_some_iff.1 hs).1
  refine ⟨live, hlive, hd.kept, hd.nodup, hd.sub, fun r hr' => ?_, fun r hr' => ?_,
    fun k t ht => ?_, fun k hk => ?_, ?_⟩
  · rw [List.length_set]
    exact hd.known r hr'
  · rw [ho]
    exact hd.held r hr'
  · by_cases hki : k = i
    · subst hki
      rw [List.getElem?_set_self hlen] at ht
      obtain rfl := Option.some.inj ht
      obtain ⟨a, ha, hp, hfaith⟩ := hd.streams k s hs
      rw [ho, hi, hf]
      refine ⟨a, ha, hp.trans ?_, hfaith.read hm⟩
      exact (Stream.port_reading s most).symm
    · rw [List.getElem?_set_ne (Ne.symm hki)] at ht
      rw [ho, hr k hki, hf]
      exact hd.streams k t ht
  · rw [List.length_set] at hk
    rw [hr k (Nat.ne_of_gt (Nat.lt_of_lt_of_le hlen hk))]
    exact hd.silent k hk
  · rw [List.length_set, hc]
    exact hd.count_le

end Serves

theorem result_read (hs : b.streams[i]? = some s) (hm : 0 < most) :
    (Act.read i most hm).result b = (s.reading most).2.toList.map fun r => (i, r) := by
  have hread := Stream.ends_read hs most
  have hlen := (List.getElem?_eq_some_iff.1 hs).1
  unfold Call.Ends at hread
  dsimp only [Act.result]
  rw [if_pos hlen]
  cases hr : Stream.read i most b with
  | ok bytes c =>
    rw [hr] at hread
    rw [hread.1]
    rfl
  | error h c =>
    rw [hr] at hread
    rw [hread.1]
    cases h <;> rfl

theorem state_read (hs : b.streams[i]? = some s) (hm : 0 < most) :
    (Act.read i most hm).call.state b =
      { b with streams := b.streams.set i (s.reading most).1 } := by
  refine Call.Ends.state (P := fun c => c = { b with streams := b.streams.set i (s.reading most).1 }) ?_
  unfold Act.call
  rw [ends_bind]
  exact (Stream.ends_read hs most).mono (fun _ _ hc => hc.2) fun _ _ hc => hc.2

theorem state_read_none (hs : b.streams[i]? = none) (hm : 0 < most) :
    (Act.read i most hm).call.state b = b := by
  refine Call.Ends.state (P := fun c => c = b) ?_
  unfold Act.call Stream.read Stream.find
  rw [ends_bind, ends_bind, ends_bind, ends_get, hs]
  rfl

end Switchboard

/-! ## Sessions -/

namespace Session

open Switchboard

variable {w : Session} {act : Act} {m : Notes} {i : Nat}

/-- What is known of the streams of a session. A stream that is still to be opened will belong to
the account `next`. -/
def notes (w : Session) (next : Nat) : Notes where
  owner i := w.owners[i]?.getD next
  reads := w.readsOf
  fell i := i ∈ w.felled
  count := w.owners.length

/-- What holds of a session throughout. -/
structure Sound (w : Session) : Prop where
  owners : w.owners.length = w.board.streams.length
  serves : ∀ next, Serves (w.notes next) w.board

theorem readsOf_step (w : Session) (act : Act) (i : Nat) :
    (w.step act).readsOf i =
      w.readsOf i ++ ((act.result w.board).filter fun r => r.1 = i).map Prod.snd := by
  simp [readsOf, step]

theorem readsOf_step_of_nil (hr : act.result w.board = []) (i : Nat) :
    (w.step act).readsOf i = w.readsOf i := by
  rw [readsOf_step, hr]
  exact List.append_nil _

theorem owners_step (h : w.owners.length = w.board.streams.length) (act : Act) :
    (w.step act).owners = w.owners ++ List.replicate
      ((w.step act).board.streams.length - w.owners.length)
      w.board.stack.ledger.accounts.length := by
  rw [h]
  rfl

/-- A stream that an act opens belongs to the account that the act begins. -/
theorem Sound.owner_step (h : w.Sound) (act : Act) (hi : i < (w.step act).owners.length)
    (next : Nat) : ((w.step act).notes next).owner i =
      (w.notes w.board.stack.ledger.accounts.length).owner i := by
  have howners := owners_step h.owners act
  dsimp only [notes]
  rw [howners] at hi ⊢
  by_cases hi' : i < w.owners.length
  · rw [List.getElem?_append_left hi', List.getElem?_eq_getElem hi']
    rfl
  · have hnone : w.owners[i]? = none := List.getElem?_eq_none (Nat.le_of_not_lt hi')
    rw [List.length_append, List.length_replicate] at hi
    rw [List.getElem?_append_right (Nat.le_of_not_lt hi'), List.getElem?_replicate, hnone,
      if_pos (by omega)]
    rfl

theorem Sound.of_serves (h : w.Sound) (hs : Serves m (w.step act).board)
    (ho : m.owner = (w.notes w.board.stack.ledger.accounts.length).owner)
    (hr : ∀ i, m.reads i = (w.step act).readsOf i) (hf : ∀ i, m.fell i → i ∈ (w.step act).felled)
    (hc : m.count = w.owners.length) : (w.step act).Sound := by
  have hcount : w.owners.length ≤ (w.step act).board.streams.length := by
    obtain ⟨_, -, hd⟩ := hs
    exact hc ▸ hd.count_le
  have hlength : (w.step act).owners.length = (w.step act).board.streams.length := by
    rw [owners_step h.owners, List.length_append, List.length_replicate]
    omega
  refine ⟨hlength, fun next => hs.congr (fun i hi => ?_) (fun i => (hr i).symm) hf
    (Nat.le_of_eq hlength)⟩
  rw [ho]
  exact h.owner_step act (hlength ▸ hi) next

theorem asks_step (w : Session) (ha : act.isAsking = true) : Asks w.board (w.step act).board :=
  (asks_call ha).state w.board

theorem Sound.asks (h : w.Sound) (ha : act.isAsking = true) : (w.step act).Sound :=
  h.of_serves ((h.serves _).asks (asks_step w ha)) rfl
    (fun i => (readsOf_step_of_nil (Act.result_of_isAsking ha _) i).symm)
    (fun _ hi => List.mem_append_left _ hi) rfl

theorem Sound.step (h : w.Sound) (act : Act) : (w.step act).Sound := by
  have hserves := h.serves w.board.stack.ledger.accounts.length
  cases act with
  | read i most hm =>
    cases hs : w.board.streams[i]? with
    | none =>
      have hb : (w.step (.read i most hm)).board = w.board := state_read_none hs hm
      have hr : (Act.read i most hm).result w.board = [] :=
        if_neg (Nat.not_lt.2 (List.getElem?_eq_none_iff.1 hs))
      exact h.of_serves (hb.symm ▸ hserves) rfl (fun i => (readsOf_step_of_nil hr i).symm)
        (fun i hi => List.mem_append_left _ hi) rfl
    | some s =>
      have hb : (w.step (.read i most hm)).board =
          { w.board with streams := w.board.streams.set i (s.reading most).1 } :=
        state_read hs hm
      refine h.of_serves (m := { w.notes _ with reads := (w.step (.read i most hm)).readsOf })
        (hb.symm ▸ hserves.read hs hm ?_ (fun k hk => ?_) rfl rfl rfl) rfl (fun _ => rfl)
        (fun i hi => List.mem_append_left _ hi) rfl
      · dsimp only
        rw [readsOf_step, result_read hs hm]
        cases (s.reading most).2 <;> simp [notes]
      · dsimp only
        rw [readsOf_step, result_read hs hm]
        cases (s.reading most).2 <;> simp [notes, Ne.symm hk]
  | turn t =>
    refine h.of_serves (m := { w.notes _ with fell := fun i => i ∈ (w.step (.turn t)).felled })
      ?_ rfl (fun i => (readsOf_step_of_nil rfl i).symm) (fun _ hi => hi) rfl
    refine Call.Ends.state (P := Serves _) ?_
    unfold Act.call
    rw [ends_bind, ends_get]
    split
    · next hr =>
      refine hserves.take hr ?_ t (fun i hi => List.mem_append_left _ hi)
        fun i hi => List.mem_append_right _ hi
      rw [← h.owners]
      dsimp only [notes]
      rw [List.getElem?_eq_none (Nat.le_refl _)]
      rfl
    · exact hserves.congr (fun _ _ => rfl) (fun _ => rfl)
        (fun i hi => List.mem_append_left _ hi) (Nat.le_of_eq h.owners)
  | world | tick =>
    exact h.of_serves (hserves.onStack rfl rfl rfl) rfl
      (fun i => (readsOf_step_of_nil rfl i).symm) (fun i hi => List.mem_append_left _ hi) rfl
  | _ => exact h.asks rfl

theorem sound_start {s : Stack} (h : s.Kept) : (start s).Sound where
  owners := rfl
  serves _ := ⟨[], fun _ => rfl, h, List.nodup_nil, nofun, nofun, nofun, nofun, fun _ _ => rfl,
    Nat.le_refl 0⟩

theorem Sound.play (h : w.Sound) (acts : List Act) : (w.play acts).Sound := by
  induction acts generalizing w with
  | nil => exact h
  | cons act acts ih => exact ih (h.step act)

/-- A session around a stack that may have been in use before, under a schedule. -/
def run (e : Tunnel.Ends) (before : List Stack.Act) (acts : List Act) : Session :=
  (start (Stack.play before (Stack.ofEnds e))).play acts

theorem sound_run (e : Tunnel.Ends) (before : List Stack.Act) (acts : List Act) :
    (run e before acts).Sound :=
  (sound_start (Stack.kept_play e before)).play acts

/-- What the reads of a stream have returned, under any schedule of a switchboard and its users.
The stream has an account in the ledger, that of the connection which was begun when the stream
was opened, and:

* the bytes that were read are a beginning of those that were accepted from the device;
* a read returns nothing only once all accepted bytes were read and the end was accepted, and then
  so does every later one;
* a reset is reported only once all bytes were read that were accepted before it. An error of the
  tunnel, which a stream may be told as well, is no reset. -/
theorem bytesOf_readsOf_prefix_accepted {e : Tunnel.Ends} {before : List Stack.Act}
    {acts : List Act} {i : Nat} {s : Stream}
    (hs : (run e before acts).board.streams[i]? = some s) :
    ∃ n a, (run e before acts).owners[i]? = some n ∧
      (run e before acts).board.stack.ledger.accounts[n]? = some a ∧ a.port = s.port ∧
      bytesOf ((run e before acts).readsOf i) <+: a.accepted ∧
      (∀ k, ((run e before acts).readsOf i)[k]? = some (.ok []) →
        bytesOf (((run e before acts).readsOf i).take k) = a.accepted ∧ a.isFinished = true ∧
          ∀ j r, k ≤ j → ((run e before acts).readsOf i)[j]? = some r → r = .ok []) ∧
      ∀ k err, ((run e before acts).readsOf i)[k]? = some (.error err) →
        err.fault = .connectionReset → i ∉ (run e before acts).felled →
        ∃ l x, (l, x) ∈ a.moments ∧ l.resets x = true ∧
          bytesOf (((run e before acts).readsOf i).take k) = l.received := by
  have h := sound_run e before acts
  generalize run e before acts = w at h hs
  obtain ⟨live, -, hd⟩ := h.serves 0
  have hi : i < w.owners.length := by
    rw [h.owners]
    exact (List.getElem?_eq_some_iff.1 hs).1
  obtain ⟨a, ha, hport, hfaith⟩ := hd.streams i s hs
  have howner : w.owners[i]? = some ((w.notes 0).owner i) := by
    dsimp only [notes]
    rw [List.getElem?_eq_getElem hi]
    rfl
  refine ⟨_, a, howner, ha, hport, ?_, fun k hk => ?_, fun k err hk he hn => ?_⟩
  · -- What was read has passed, what has passed was taken, and what was taken was accepted.
    have hread : bytesOf (w.readsOf i) <+: s.passed (w.readsOf i) := by
      rw [Stream.passed, List.append_assoc]
      exact List.prefix_append _ _
    have haccepted : a.taken <+: a.accepted :=
      ⟨_, Account.taken_append_unread hd.kept.valid (List.mem_of_getElem? ha)⟩
    exact (hread.trans hfaith.flow).trans haccepted
  · obtain ⟨-, hall, hstatus, hlater⟩ := hfaith.empties k hk
    have hfinished : a.heard.status = .ended .unexpectedEof ↔ a.isFinished = true :=
      Link.status_hear_eq_eof_iff fun h => Link.Status.noConfusion h
    exact ⟨hall, hfinished.1 hstatus, hlater⟩
  · obtain ⟨hall, hstatus⟩ := hfaith.resets k err hk he hn
    obtain ⟨⟨l, x⟩, hm, hresets, hreceived⟩ :=
      Link.exists_resets (l := a.fresh) (fun h => Link.Status.noConfusion h) hstatus
    exact ⟨l, x, hm, hresets, hall.trans hreceived.symm⟩

/-- The device connects, sends three bytes and finishes the connection; its user reads two bytes,
then more than are left, and then once more. -/
def serving : List Act :=
  [.world ((Stack.replies.take 1).flatMap Ends.sample.packet) .silent none, .connect 80 [0] 7,
    .turn .atRequests, .world ((Stack.replies.drop 1).flatMap Ends.sample.packet) .silent none,
    .turn .atTunnel, .read 0 2 (by decide), .read 0 5 (by decide), .read 0 1 (by decide)]

theorem streams_serving : (run Ends.sample [] serving).board.streams[0]? =
    some { port := 49152, isFed := false, hasEnded := true } := by
  cbv

theorem readsOf_serving :
    (run Ends.sample [] serving).readsOf 0 = [.ok [1, 2], .ok [3], .ok []] := by
  cbv

theorem accepted_serving :
    ∃ n a, (run Ends.sample [] serving).owners[0]? = some n ∧
      (run Ends.sample [] serving).board.stack.ledger.accounts[n]? = some a ∧
      a.accepted = [1, 2, 3] ∧ a.isFinished = true := by
  obtain ⟨n, a, hn, ha, -, -, hend, -⟩ := bytesOf_readsOf_prefix_accepted streams_serving
  rw [readsOf_serving] at hend
  obtain ⟨hall, hfinished, -⟩ := hend 2 rfl
  exact ⟨n, a, hn, ha, hall.symm, hfinished⟩

end Session

end Tether.Tunnel
