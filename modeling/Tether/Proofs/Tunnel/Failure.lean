import Tether.Proofs.Tunnel.Arriving
import Tether.Proofs.Tunnel.Emptying

/-!
# The failure of the tunnel

When the tunnel fails, each stream is told, and the switchboard stops. What was passed on in
earlier turns lies in the inbox before the error, so the user gets it first. What the device got
acknowledged in the very turn that fails was not passed on, and is lost: the end of a connection
is told after all that came before it, but the failure of the tunnel is not.

* `Stream.Reports`: a stream with some bytes and then an error to pass;
* `ends_listen_told`: what a failure leaves of a stream;
* `Session.readsOf_of_felled`: what is read of a stream from then on;
* `Session.readsOf_spoiled`: bytes that the device got acknowledged and nobody gets.
-/

namespace Tether.Tunnel

open Net Call

/-! ## A stream with an error to pass -/

namespace Stream

variable {s t : Stream} {e : TunnelError} {bytes : Bytes} {rs : List Piece} {p : Piece} {most : Nat}

/-- A read takes away what it returns, and nothing else. -/
theorem passed_reading (s : Stream) (rs : List Piece) (most : Nat) :
    (s.reading most).1.passed (rs ++ (s.reading most).2.toList) = s.passed rs := by
  by_cases hr : s.rest = []
  · cases he : s.hasEnded with
    | true => simp [reading_of_ended hr he, passed]
    | false =>
      cases hi : s.inbox with
      | nil =>
        rw [reading_of_nil hr he hi]
        cases s.isFed <;> simp [passed]
      | cons p later =>
        rw [reading_of_cons hr he hi]
        cases p <;> simp [passed, hr, hi, bytesOf, Except.map, Except.toOption]
  · simp [reading_of_rest hr, passed]

/-- What users leave true of a stream as they ask for something and as they read, given all that
reads have returned. -/
structure Stays (Q : List Piece → Stream → Prop) : Prop where
  like : ∀ {rs s t}, Q rs s → s.Like t → Q rs t
  read : ∀ {rs s most}, 0 < most → Q rs s → Q (rs ++ (s.reading most).2.toList) (s.reading most).1

/-- A stream that has some bytes to pass and then an error, of which reads have returned `rs`. -/
inductive Reports (e : TunnelError) (bytes : Bytes) (rs : List Piece) (s : Stream) : Prop
  /-- The error lies behind all bytes that were not read. -/
  | pending (first : List Piece) (hrs : IsPlain rs) (he : s.hasEnded = false)
      (hi : s.inbox = first ++ [.error e]) (hp : IsPlain first) (hb : s.passed rs = bytes)
  /-- The error was read after all bytes. -/
  | reported (first later : List Piece) (hrs : rs = first ++ .error e :: later)
      (hp : IsPlain first) (hb : bytesOf first = bytes)

theorem Reports.of_like (h : s.Reports e bytes rs) (ht : s.Like t) : t.Reports e bytes rs := by
  cases h with
  | pending first hrs he hi hp hb =>
    refine .pending first hrs (ht.hasEnded.trans he) (ht.inbox.trans hi) hp ?_
    rw [passed, ht.rest, ht.inbox]
    exact hb
  | reported first later hrs hp hb => exact .reported first later hrs hp hb

theorem IsPlain.concat (h : IsPlain rs) (hb : bytes ≠ []) : IsPlain (rs ++ [.ok bytes]) := by
  intro p hp
  rcases List.mem_append.1 hp with hp | hp
  · exact h p hp
  · exact ⟨bytes, hb, List.mem_singleton.1 hp⟩

/-- Reading such a stream. -/
theorem Reports.read (h : s.Reports e bytes rs) (hm : 0 < most) :
    (s.reading most).1.Reports e bytes (rs ++ (s.reading most).2.toList) := by
  have hpassed := s.passed_reading rs most
  cases h with
  | reported first later hrs hp hb =>
    exact .reported first (later ++ (s.reading most).2.toList) (by simp [hrs]) hp hb
  | pending first hrs he hi hp hb =>
    rw [hb] at hpassed
    by_cases hr : s.rest = []
    · cases first with
      | nil =>
        -- All bytes were read, and the error is next.
        rw [reading_of_cons hr he hi]
        refine .reported rs [] rfl hrs ?_
        rw [← hb, passed, hr, hi]
        simp
      | cons p first =>
        obtain ⟨bytes', hb', rfl⟩ := hp p List.mem_cons_self
        rw [reading_of_cons hr he hi] at hpassed ⊢
        exact .pending first (hrs.concat (take_ne_nil hm hb')) (by simp [Except.toOption, hb']) rfl
          (fun q hq => hp q (List.mem_cons_of_mem _ hq)) hpassed
    · rw [reading_of_rest hr] at hpassed ⊢
      exact .pending first (hrs.concat (take_ne_nil hm hr)) he hi hp hpassed

/-- As long as the error was not read, a read does not wait. -/
theorem Reports.isSome_reading (h : s.Reports e bytes rs) (hrs : IsPlain rs) (most : Nat) :
    (s.reading most).2.isSome = true := by
  cases h with
  | reported first later hrs' hp hb =>
    obtain ⟨_, _, hp⟩ := hrs (.error e) (by simp [hrs'])
    cases hp
  | pending first _ he hi hp hb =>
    by_cases hr : s.rest = []
    · cases hi' : s.inbox with
      | nil => simp [hi'] at hi
      | cons p later => simp [reading_of_cons hr he hi']
    · simp [reading_of_rest hr]

end Stream

/-! ## The turn that fails -/

/-- If nothing is unread, no packet comes before the failure. -/
theorem Stack.ends_process_of_unread (s : Stack) :
    process.Ends s (fun _ _ => True) (fun _ t => s.transport.unread = [] → t = s) := by
  rw [process, ends_bind]
  refine (ends_fill s).mono (fun _ t ht => ?_) fun _ _ ht _ => ht.2.1
  exact (ends_self handleBuffered t).mono (fun _ _ _ => trivial)
    fun _ _ _ hunread => absurd hunread ht.1

namespace Switchboard

variable {m : Notes} {b c : Switchboard} {s : Stream} {e : TunnelError} {t : Stack} {port : UInt16}
  {i : Nat}

/-- Streams keep what they have to pass. -/
def Alike (b c : Switchboard) : Prop :=
  ∀ (i : Nat) s, b.streams[i]? = some s → ∃ t, c.streams[i]? = some t ∧ s.Like t

instance : IsPreorder Switchboard Alike where
  refl _ _ s hs := ⟨s, hs, .refl s⟩
  trans _ _ _ h h' i s hs := by
    obtain ⟨t, ht, hst⟩ := h i s hs
    obtain ⟨u, hu, htu⟩ := h' i t ht
    exact ⟨u, hu, hst.trans htu⟩

theorem Alike.of_eq (h : c.streams = b.streams) : Alike b c :=
  fun _ s hs => ⟨s, h ▸ hs, .refl s⟩

theorem Asks.alike (h : Asks b c) : Alike b c := by
  intro i s hs
  have hi : i < c.streams.length := h.length ▸ (List.getElem?_eq_some_iff.1 hs).1
  obtain ⟨s', hs', hlike⟩ := h.streams i _ (List.getElem?_eq_getElem hi)
  obtain rfl : s = s' := Option.some.inj (hs.symm.trans hs')
  exact ⟨_, List.getElem?_eq_getElem hi, hlike⟩

theorem alike_unroute (port : UInt16) : Respects Alike (unroute port) := by
  refine Respects.modify fun b i s hs => ?_
  dsimp only
  rw [List.getElem?_mapIdx, hs]
  refine ⟨_, rfl, ?_⟩
  split
  · exact ⟨rfl, rfl, rfl, rfl, id, nofun⟩
  · exact .refl s

theorem alike_stop : Respects Alike stop := by
  have hstack (d : Call TunnelError Stack Unit) : Respects Alike (onStack d) :=
    (Respects.top d).zoom fun _ _ _ => Alike.of_eq rfl
  exact respects_stop (fun _ => hstack _) alike_unroute (hstack _) fun _ => Alike.of_eq rfl

/-- What is delivered to another stream. -/
theorem ends_deliver_ne {k : Nat} (hk : k ≠ i) (p : Piece) (b : Switchboard) :
    (deliver k p).Ends b (fun _ c => c.streams[i]? = b.streams[i]?) (fun _ _ => False) := by
  rw [deliver, ends_bind, ends_get]
  cases b.streams[k]? with
  | none => rfl
  | some s =>
    dsimp only
    split
    · exact List.getElem?_set_ne hk
    · rfl

/-- Each stream is told once. -/
theorem ends_tellAll {routes : List (UInt16 × Nat)} (hnodup : (routes.map Prod.snd).Nodup)
    (hi : i ∈ routes.map Prod.snd) (hs : b.streams[i]? = some s) (hheld : s.isHeld = true)
    (e : TunnelError) :
    (routes.forM fun r => do let _ ← deliver r.2 (.error e)).Ends b
      (fun _ c => c.streams[i]? = some (s.push (.error e))) (fun _ _ => False) := by
  induction routes generalizing b with
  | nil => cases hi
  | cons r routes ih =>
    rw [List.map_cons, List.nodup_cons] at hnodup
    rw [List.forM, ends_bind, ends_bind]
    by_cases hr : r.2 = i
    · rw [hr]
      refine (ends_deliver hs _).mono (fun _ c hc => ?_) fun _ _ => id
      have hc : c.streams[i]? = some (s.push (.error e)) := by
        rw [hc.2, if_pos hheld]
        exact List.getElem?_set_self (List.getElem?_eq_some_iff.1 hs).1
      refine ends_forM hc fun r' hr' d hd => ?_
      have hne : r'.2 ≠ i := by
        rintro rfl
        exact hnodup.1 (hr ▸ List.mem_map_of_mem hr')
      rw [ends_bind]
      exact (ends_deliver_ne hne _ d).mono (fun _ _ hd' => hd'.trans hd) fun _ _ => id
    · refine (ends_deliver_ne hr _ b).mono (fun _ c hc => ?_) fun _ _ => id
      refine ih hnodup.2 ?_ (hc.trans hs)
      exact (List.mem_cons.1 hi).resolve_left (Ne.symm hr)

/-- A stream is on one route at most. -/
theorem Delivers.nodup_streams (h : Delivers m b.routes b) : (b.routes.map Prod.snd).Nodup := by
  refine (h.nodup.of_map Prod.fst).map_on fun r hr r' hr' hrr => ?_
  obtain ⟨port, i⟩ := r
  obtain ⟨port', i'⟩ := r'
  obtain rfl : i = i' := hrr
  rw [h.port_eq hr hr']

theorem exists_failed_of_mem_felled (h : i ∈ (Act.turn .atTunnel).felled b) :
    ∃ err t, Stack.process b.stack = .error (.failed err) t ∧ i ∈ b.routes.map Prod.snd := by
  cases hp : Stack.process b.stack with
  | ok _ t => simp [Act.felled, hp] at h
  | error halt t =>
    cases halt with
    | failed err => exact ⟨err, t, rfl, by simpa only [Act.felled, hp] using h⟩
    | waiting => simp [Act.felled, hp] at h

/-- When the tunnel fails, a stream gets the error behind all that it has. -/
theorem ends_listen_told (hd : Delivers m b.routes b)
    (hfails : Stack.process b.stack = .error (.failed e) t) (hi : i ∈ b.routes.map Prod.snd)
    (hs : b.streams[i]? = some s) (hheld : s.isHeld = true) :
    listen.Ends b (fun _ c => ∃ u, c.streams[i]? = some u ∧ (s.push (.error e)).Like u)
      (fun _ c => ∃ u, c.streams[i]? = some u ∧ (s.push (.error e)).Like u) := by
  rw [listen, onStack, ends_bind, ends_attempt, ends_zoom]
  refine (ends_self _ _).mono (fun _ u hu => ?_) fun h u hu => ?_
  · rw [hfails] at hu
    cases hu
  · rw [hfails] at hu
    cases hu
    dsimp only
    rw [ends_bind, ends_get, ends_bind]
    refine (ends_tellAll (b := { b with stack := t }) hd.nodup_streams hi hs hheld e).mono
      (fun _ c hc => ?_) fun _ _ => False.elim
    exact (alike_stop c).mono (fun _ _ hd => hd i _ hc) fun _ _ hd => hd i _ hc

end Switchboard

/-! ## Sessions -/

namespace Session

open Switchboard

variable {w : Session} {act : Act} {e : TunnelError} {bytes : Bytes} {old : List Piece} {i : Nat}
  {s : Stream}

/-- The switchboard has stopped, and of a stream whose reads had returned `old`, the later reads and
what the stream still has are as in `Q`. -/
def Passes (Q : List Piece → Stream → Prop) (w : Session) (old : List Piece) (i : Nat) : Prop :=
  w.board.isRunning = false ∧ ∃ new s, w.readsOf i = old ++ new ∧
    w.board.streams[i]? = some s ∧ Q new s

section Passes

variable {Q : List Piece → Stream → Prop}

/-- What changes no stream and reads none. -/
theorem Passes.alike (hQ : Stream.Stays Q) (h : w.Passes Q old i)
    (hb : Alike w.board (w.step act).board)
    (hrun : (w.step act).board.isRunning = w.board.isRunning) (hr : act.result w.board = []) :
    (w.step act).Passes Q old i := by
  obtain ⟨hstopped, new, s, hreads, hs, hholds⟩ := h
  obtain ⟨t, ht, hlike⟩ := hb i s hs
  rw [Passes, readsOf_step_of_nil hr]
  exact ⟨hrun.trans hstopped, new, t, hreads, ht, hQ.like hholds hlike⟩

theorem Passes.asks (hQ : Stream.Stays Q) (h : w.Passes Q old i) (ha : act.isAsking = true) :
    (w.step act).Passes Q old i :=
  h.alike hQ (asks_step w ha).alike (asks_step w ha).isRunning (Act.result_of_isAsking ha _)

theorem Passes.read (hQ : Stream.Stays Q) {k most : Nat} (h : w.Passes Q old i) (hm : 0 < most) :
    (w.step (.read k most hm)).Passes Q old i := by
  cases hk : w.board.streams[k]? with
  | none =>
    have hb : (w.step (.read k most hm)).board = w.board := state_read_none hk hm
    have hr : (Act.read k most hm).result w.board = [] :=
      if_neg (Nat.not_lt.2 (List.getElem?_eq_none_iff.1 hk))
    exact h.alike hQ (.of_eq (congrArg _ hb)) (congrArg _ hb) hr
  | some u =>
    obtain ⟨hstopped, new, s, hreads, hs, hholds⟩ := h
    have hb : (w.step (.read k most hm)).board =
        { w.board with streams := w.board.streams.set k (u.reading most).1 } :=
      state_read hk hm
    rw [Passes, hb, readsOf_step, result_read hk hm, hreads]
    refine ⟨hstopped, ?_⟩
    by_cases hki : k = i
    · subst hki
      obtain rfl : s = u := Option.some.inj (hs.symm.trans hk)
      refine ⟨new ++ (s.reading most).2.toList, (s.reading most).1, ?_,
        List.getElem?_set_self (List.getElem?_eq_some_iff.1 hs).1, hQ.read hm hholds⟩
      cases (s.reading most).2 <;> simp
    · refine ⟨new, s, ?_, (List.getElem?_set_ne hki).trans hs, hholds⟩
      cases (u.reading most).2 <;> simp [hki]

theorem Passes.step (hQ : Stream.Stays Q) (h : w.Passes Q old i) (act : Act) :
    (w.step act).Passes Q old i := by
  cases act with
  | turn t =>
    have hb : (w.step (.turn t)).board = w.board := by
      refine Call.Ends.state (P := fun c => c = w.board) ?_
      rw [Act.call, ends_bind, ends_get, if_neg (by simp [h.1])]
      rfl
    exact h.alike hQ (.of_eq (congrArg _ hb)) (congrArg _ hb) rfl
  | read k most hm => exact h.read hQ hm
  | world | tick => exact h.alike hQ (.of_eq rfl) rfl rfl
  | _ => exact h.asks hQ rfl

theorem Passes.play (hQ : Stream.Stays Q) (h : w.Passes Q old i) (acts : List Act) :
    (w.play acts).Passes Q old i := by
  induction acts generalizing w with
  | nil => exact h
  | cons act acts ih => exact ih (h.step hQ act)

end Passes

/-- The switchboard has stopped, and of a stream whose reads had returned `old` there were still
some bytes and then an error to read. -/
def Tells (w : Session) (e : TunnelError) (bytes : Bytes) (old : List Piece) (i : Nat) : Prop :=
  w.board.isRunning = false ∧ ∃ new s, w.readsOf i = old ++ new ∧
    w.board.streams[i]? = some s ∧ s.Reports e bytes new

theorem Tells.play (h : w.Tells e bytes old i) (acts : List Act) :
    (w.play acts).Tells e bytes old i :=
  Passes.play ⟨fun h ht => h.of_like ht, fun hm h => h.read hm⟩ h acts

/-- What has been accepted on the connections of streams lies before the failure. -/
theorem Sound.exists_tells (hw : w.Sound) (hrun : w.board.isRunning = true)
    (hempty : Emptied w.board) (hi : i ∈ (Act.turn .atTunnel).felled w.board)
    (hs : w.board.streams[i]? = some s) (hheld : s.isHeld = true) :
    ∃ err t n a bytes, Stack.process w.board.stack = .error (.failed err) t ∧
      w.owners[i]? = some n ∧ w.board.stack.ledger.accounts[n]? = some a ∧
      bytesOf (w.readsOf i) ++ bytes = a.accepted ∧
      (w.step (.turn .atTunnel)).Tells err bytes (w.readsOf i) i := by
  obtain ⟨live, hlive, hd⟩ := hw.serves 0
  obtain rfl := hlive hrun
  obtain ⟨err, t, hfails, hi⟩ := exists_failed_of_mem_felled hi
  obtain ⟨⟨port, k⟩, hroute, hk⟩ := List.mem_map.1 hi
  obtain rfl : k = i := hk
  obtain ⟨a, ha, -, hfaith⟩ := hd.streams k s hs
  have hlive : ∃ p, (p, k) ∈ w.board.routes := ⟨port, hroute⟩
  obtain ⟨he, hplain⟩ := hfaith.phase.of_live hlive
  -- What was accepted was taken, and what was taken was passed on.
  have haccepted : s.passed (w.readsOf k) = a.accepted := by
    have hat : w.board.stack.ledger.at? port = some a :=
      Ledger.at?_eq_some_iff.2 ⟨_, hd.held _ hroute, ha⟩
    exact (hfaith.whole hlive hheld).trans (hempty _ hroute a hat)
  have howner : w.owners[k]? = some ((w.notes 0).owner k) := by
    have hlt : k < w.owners.length := by
      rw [hw.owners]
      exact hd.known _ hroute
    dsimp only [notes]
    rw [List.getElem?_eq_getElem hlt]
    rfl
  refine ⟨err, t, _, a, s.rest ++ bytesOf s.inbox, hfails, howner, ha, ?_, ?_⟩
  · rw [← haccepted, Stream.passed, List.append_assoc]
  · have htold : (w.step (.turn .atTunnel)).board.isRunning = false ∧
        ∃ u, (w.step (.turn .atTunnel)).board.streams[k]? = some u ∧
          (s.push (.error err)).Like u := by
      refine Call.Ends.state (P := fun c : Switchboard => c.isRunning = false ∧
        ∃ u, c.streams[k]? = some u ∧ (s.push (.error err)).Like u) ?_
      rw [Act.call, ends_bind, ends_get, if_pos hrun]
      exact ((ends_listen_failed hd hfails).and (ends_listen_told hd hfails hi hs hheld)).mono
        (fun _ _ hc => hc) fun _ _ hc => hc.1.elim
    obtain ⟨hstopped, u, hu, hlike⟩ := htold
    have hreads : (w.step (.turn .atTunnel)).readsOf k = w.readsOf k ++ [] := by
      rw [readsOf_step_of_nil rfl, List.append_nil]
    refine ⟨hstopped, [], u, hreads, hu, Stream.Reports.of_like ?_ hlike⟩
    refine .pending s.inbox (fun _ hp => absurd hp List.not_mem_nil) he rfl hplain ?_
    simp [Stream.passed, Stream.push]

/-- What is read of a stream once the tunnel has failed. The account `a` of its connection is that
before the turn that fails. The bytes accepted on it by then, and no others, are read before a read
reports the failure, and until then no read waits or returns nothing. If nothing was unread, so
that the read of the tunnel itself failed, the stack is still the same when it fails, and these are
all bytes that were accepted. -/
theorem readsOf_of_felled {e : Tunnel.Ends} {before : List Stack.Act} {acts : List Act}
    (hrun : (run e before acts).board.isRunning = true)
    (hi : i ∈ (Act.turn .atTunnel).felled (run e before acts).board)
    (hs : (run e before acts).board.streams[i]? = some s) (hheld : s.isHeld = true)
    (later : List Act) :
    ∃ err t n a new, Stack.process (run e before acts).board.stack = .error (.failed err) t ∧
      ((run e before acts).board.stack.transport.unread = [] →
        t = (run e before acts).board.stack) ∧
      (run e before acts).owners[i]? = some n ∧
      (run e before acts).board.stack.ledger.accounts[n]? = some a ∧
      (run e before (acts ++ .turn .atTunnel :: later)).readsOf i =
        (run e before acts).readsOf i ++ new ∧
      ((Stream.IsPlain new ∧
          bytesOf ((run e before (acts ++ .turn .atTunnel :: later)).readsOf i) <+: a.accepted ∧
          ∀ most hm, (Act.read i most hm).result
            (run e before (acts ++ .turn .atTunnel :: later)).board ≠ []) ∨
        ∃ first rest, new = first ++ .error err :: rest ∧ Stream.IsPlain first ∧
          bytesOf ((run e before acts).readsOf i ++ first) = a.accepted) := by
  obtain ⟨err, t, n, a, bytes, hfails, hn, ha, hbytes, htells⟩ :=
    (sound_run e before acts).exists_tells hrun (emptied_run hrun) hi hs hheld
  have hplay : run e before (acts ++ .turn .atTunnel :: later) =
      ((run e before acts).step (.turn .atTunnel)).play later := by
    simp [run, play]
  obtain ⟨-, new, u, hreads, hu, hreports⟩ := htells.play later
  rw [hplay]
  have hnone := Stack.ends_process_of_unread (run e before acts).board.stack
  rw [Call.Ends, hfails] at hnone
  refine ⟨err, t, n, a, new, hfails, hnone, hn, ha, hreads, ?_⟩
  cases hreports with
  | pending first hrs he hi' hp hb =>
    refine .inl ⟨hrs, ?_, fun most hm => ?_⟩
    · rw [hreads, bytesOf_append, ← hbytes, ← hb, Stream.passed, List.append_assoc]
      exact ⟨_, (List.append_assoc _ _ _)⟩
    · have hsome := Stream.Reports.isSome_reading (.pending first hrs he hi' hp hb) hrs most
      rw [result_read hu hm]
      cases hr : (u.reading most).2 with
      | none => simp [hr] at hsome
      | some p => simp
  | reported first rest hrs hp hb =>
    exact .inr ⟨first, rest, hrs, hp, by rw [bytesOf_append, hb, hbytes]⟩

/-- The device connects and sends two bytes; then the tunnel comes to its end. -/
def parting : List Act :=
  [.world ((Stack.replies.take 1).flatMap Ends.sample.packet) .silent none, .connect 80 [0] 7,
    .turn .atRequests,
    .world (((Stack.replies.drop 1).take 1).flatMap Ends.sample.packet) .closed none,
    .turn .atTunnel]

theorem streams_parting : (run Ends.sample [] parting).board.streams[0]? =
    some { port := 49152, inbox := [.ok [1, 2]] } := by
  cbv

theorem accepted_parting :
    ∃ n a, (run Ends.sample [] parting).owners[0]? = some n ∧
      (run Ends.sample [] parting).board.stack.ledger.accounts[n]? = some a ∧
      a.accepted = [1, 2] := by
  have hfelled : (Act.turn .atTunnel).felled (run Ends.sample [] parting).board = [0] := by cbv
  have hreads : (run Ends.sample [] (parting ++ [.turn .atTunnel, .read 0 1 (by decide),
      .read 0 5 (by decide), .read 0 5 (by decide)])).readsOf 0 =
        [.ok [1], .ok [2], .error ⟨.unexpectedEof, "tunnel closed"⟩] := by cbv
  have hnone : (run Ends.sample [] parting).readsOf 0 = [] := by cbv
  obtain ⟨err, t, n, a, new, -, -, hn, ha, hnew, hcases⟩ :=
    readsOf_of_felled (by cbv) (hfelled ▸ List.mem_singleton_self 0) streams_parting rfl
      [.read 0 1 (by decide), .read 0 5 (by decide), .read 0 5 (by decide)]
  rw [hreads, hnone, List.nil_append] at hnew
  refine ⟨n, a, hn, ha, ?_⟩
  rcases hcases with ⟨hplain, -⟩ | ⟨first, rest, hsplit, hplain, haccepted⟩
  · obtain ⟨_, -, herror⟩ := hplain (.error ⟨.unexpectedEof, "tunnel closed"⟩) (by simp [← hnew])
    cases herror
  · -- The error is the third of what was read.
    rw [← hnew] at hsplit
    have hfirst : first = [.ok [1], .ok [2]] := by
      rcases first with _ | ⟨p, _ | ⟨q, _ | ⟨r, first⟩⟩⟩
      · simp at hsplit
      · simp at hsplit
      · simp only [List.cons_append, List.nil_append, List.cons.injEq] at hsplit
        rw [← hsplit.1, ← hsplit.2.1]
      · simp at hsplit
    rw [← haccepted, hfirst, hnone]
    rfl

/-- The device connects, and sends two bytes; right behind them there is something in the tunnel
that is no packet. -/
def spoiled : List Act :=
  [.world ((Stack.replies.take 1).flatMap Ends.sample.packet) .silent none, .connect 80 [0] 7,
    .turn .atRequests,
    .world (((Stack.replies.drop 1).take 1).flatMap Ends.sample.packet ++ [0xff]) .silent none,
    .turn .atTunnel, .read 0 9 (by decide), .read 0 9 (by decide)]

/-- What the device got acknowledged in the turn that fails is lost. -/
theorem readsOf_spoiled :
    (run Ends.sample [] spoiled).readsOf 0 =
        [.error ⟨.invalidData, "tunnel is not carrying IP packets"⟩, .error Switchboard.closed] ∧
      ∃ a, (run Ends.sample [] spoiled).board.stack.ledger.accounts[0]? = some a ∧
        a.accepted = [1, 2] ∧ Stack.receipt 1 ∈ a.sent := by
  have haccount : ((run Ends.sample [] spoiled).board.stack.ledger.accounts[0]?).map
      (fun a => (a.accepted, a.sent[2]?)) = some ([1, 2], some (Stack.receipt 1)) := by
    cbv
  obtain ⟨a, ha, heq⟩ := Option.map_eq_some_iff.1 haccount
  have hsent : a.sent[2]? = some (Stack.receipt 1) := congrArg Prod.snd heq
  exact ⟨by cbv, a, ha, congrArg Prod.fst heq, List.mem_of_getElem? hsent⟩

end Session

end Tether.Tunnel
