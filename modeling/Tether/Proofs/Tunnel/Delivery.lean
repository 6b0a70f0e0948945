import Tether.Proofs.Tunnel.Schedule

/-!
# What a switchboard delivers

A stream *passes* the bytes that were taken from its connection: some have been returned by
reads, some are left of a piece, and the others wait in the inbox. As long as the stream is on a
route, these are all that were taken. The last piece that a stream gets is the end of the stream
or an error, and it gets neither an end nor a reset before all that was accepted.

* `Stream.Faithful`: a stream against the account of its connection;
* `Delivers.passOn`, `delivers_dispatch`: what has arrived is passed on;
* `delivers_take`: what a turn leaves of this.
-/

namespace Tether.Tunnel

open Net Call

/-- What reads return, and inboxes hold: bytes, none of them at the end of a stream, or an
error. -/
abbrev Piece := Except TunnelError Bytes

/-- The bytes of some pieces. -/
def bytesOf (ps : List Piece) : Bytes :=
  ps.flatMap fun p => p.toOption.getD []

@[simp] theorem bytesOf_nil : bytesOf [] = [] :=
  rfl

@[simp] theorem bytesOf_append (ps qs : List Piece) : bytesOf (ps ++ qs) = bytesOf ps ++ bytesOf qs :=
  List.flatMap_append

@[simp] theorem bytesOf_ok (bytes : Bytes) : bytesOf [.ok bytes] = bytes := by
  simp [bytesOf, Except.toOption]

@[simp] theorem bytesOf_error (e : TunnelError) : bytesOf [.error e] = [] :=
  rfl

namespace Stream

/-- The bytes that a stream has passed, of which its reads have returned `rs`. -/
def passed (rs : List Piece) (s : Stream) : Bytes :=
  bytesOf rs ++ s.rest ++ bytesOf s.inbox

/-- An inbox with bytes only. -/
def IsPlain (ps : List Piece) : Prop :=
  ∀ p ∈ ps, ∃ bytes, bytes ≠ [] ∧ p = .ok bytes

/-- A last piece is true to an account: an end or a reset was accepted from the device, and
everything accepted before has passed. Errors of streams that were told of the tunnel's failure
say nothing about the device. -/
def IsFinal (a : Account) (passed : Bytes) (isFelled : Prop) : Piece → Prop
  | .ok bytes =>
    bytes = [] ∧ passed = a.accepted ∧ a.heard.status = .ended .unexpectedEof
  | .error e => e.fault = .connectionReset → ¬ isFelled →
    passed = a.accepted ∧ a.heard.status = .ended .connectionReset

/-- How far a stream is. -/
inductive Phase (a : Account) (rs : List Piece) (isLive isFelled : Prop) (s : Stream) : Prop
  /-- More may come. -/
  | plain (he : s.hasEnded = false) (hp : IsPlain s.inbox)
  /-- The last piece has come and was not read. -/
  | told (first : List Piece) (last : Piece) (he : s.hasEnded = false) (hl : ¬ isLive)
    (hi : s.inbox = first ++ [last]) (hp : IsPlain first)
    (hf : IsFinal a (s.passed rs) isFelled last)
  /-- The end was read. -/
  | ended (he : s.hasEnded = true) (hl : ¬ isLive) (hi : s.inbox = []) (hr : s.rest = [])
    (hf : IsFinal a (s.passed rs) isFelled (.ok []))

/-- A stream is true to the account of its connection. -/
structure Faithful (a : Account) (rs : List Piece) (isLive isFelled : Prop) (s : Stream) : Prop where
  flow : s.passed rs <+: a.taken
  whole : isLive → s.isHeld = true → s.passed rs = a.taken
  phase : s.Phase a rs isLive isFelled
  /-- A read returns nothing once the end was accepted and all before was returned, and so do
  later ones. -/
  empties : ∀ i, rs[i]? = some (.ok []) → s.hasEnded = true ∧ bytesOf (rs.take i) = a.accepted ∧
    a.heard.status = .ended .unexpectedEof ∧ ∀ j r, i ≤ j → rs[j]? = some r → r = .ok []
  /-- A read reports a reset once all bytes before were returned. -/
  resets : ∀ i e, rs[i]? = some (.error e) → e.fault = .connectionReset → ¬ isFelled →
    bytesOf (rs.take i) = a.accepted ∧ a.heard.status = .ended .connectionReset

variable {a b : Account} {rs : List Piece} {isLive isLive' isFelled isFelled' : Prop}
  {s t : Stream} {p : Piece} {bytes : Bytes}

theorem IsFinal.mono {passed : Bytes} (h : IsFinal a passed isFelled p) (hab : a.Precedes b)
    (hf : isFelled → isFelled') : IsFinal b passed isFelled' p := by
  cases p with
  | ok bytes =>
    obtain ⟨hb, hp, hs⟩ := h
    have hheard := hab.ended _ hs
    exact ⟨hb, by rw [hp, Account.accepted, Account.accepted, hheard], hheard ▸ hs⟩
  | error e =>
    intro he hn
    obtain ⟨hp, hs⟩ := h he fun h' => hn (hf h')
    have hheard := hab.ended _ hs
    exact ⟨by rw [hp, Account.accepted, Account.accepted, hheard], hheard ▸ hs⟩

theorem Phase.mono (h : s.Phase a rs isLive isFelled) (hab : a.Precedes b)
    (hl : isLive' → isLive) (hf : isFelled → isFelled') : s.Phase b rs isLive' isFelled' := by
  cases h with
  | plain he hp => exact .plain he hp
  | told first last he hn hi hp hfin =>
    exact .told first last he (fun h => hn (hl h)) hi hp (hfin.mono hab hf)
  | ended he hn hi hr hfin => exact .ended he (fun h => hn (hl h)) hi hr (hfin.mono hab hf)

/-- Time goes on, and nothing comes for the stream. -/
theorem Faithful.mono (h : s.Faithful a rs isLive isFelled) (hab : a.Precedes b)
    (hl : isLive' → isLive) (hf : isFelled → isFelled')
    (ht : isLive' → s.isHeld = true → b.taken = a.taken) : s.Faithful b rs isLive' isFelled' where
  flow := h.flow.trans hab.taken
  whole hl' hh := (h.whole (hl hl') hh).trans (ht hl' hh).symm
  phase := h.phase.mono hab hl hf
  empties i hi := by
    obtain ⟨he, hb, hs, hlater⟩ := h.empties i hi
    have hheard := hab.ended _ hs
    exact ⟨he, by rw [hb, Account.accepted, Account.accepted, hheard], hheard ▸ hs, hlater⟩
  resets i e hi he hn := by
    obtain ⟨hb, hs⟩ := h.resets i e hi he fun h' => hn (hf h')
    have hheard := hab.ended _ hs
    exact ⟨by rw [hb, Account.accepted, Account.accepted, hheard], hheard ▸ hs⟩

/-- Other fields of a stream do not matter, and it does not matter if it is given up. -/
theorem Faithful.of_eq (h : s.Faithful a rs isLive isFelled) (hi : t.inbox = s.inbox)
    (hr : t.rest = s.rest) (he : t.hasEnded = s.hasEnded)
    (hh : t.isHeld = true → s.isHeld = true) : t.Faithful a rs isLive isFelled := by
  have hpassed : t.passed rs = s.passed rs := by rw [passed, passed, hi, hr]
  refine ⟨hpassed ▸ h.flow, fun hl ht => hpassed.trans (h.whole hl (hh ht)), ?_,
    he ▸ h.empties, h.resets⟩
  cases h.phase with
  | plain he' hp => exact .plain (he.trans he') (hi ▸ hp)
  | told first last he' hn hi' hp hf =>
    exact .told first last (he.trans he') hn (hi.trans hi') hp (hpassed ▸ hf)
  | ended he' hn hi' hr' hf =>
    exact .ended (he.trans he') hn (hi.trans hi') (hr.trans hr') (hpassed ▸ hf)

/-- A stream on a route has not been told that anything is over. -/
theorem Phase.of_live (h : s.Phase a rs isLive isFelled) (hl : isLive) :
    s.hasEnded = false ∧ IsPlain s.inbox := by
  cases h with
  | plain he hp => exact ⟨he, hp⟩
  | told _ _ _ hn => exact absurd hl hn
  | ended _ hn => exact absurd hl hn

/-- The stream with one more piece in its inbox. -/
def push (s : Stream) (p : Piece) : Stream :=
  { s with inbox := s.inbox ++ [p] }

theorem passed_push (rs : List Piece) (s : Stream) (p : Piece) :
    (s.push p).passed rs = s.passed rs ++ bytesOf [p] := by
  simp only [passed, push, bytesOf_append, List.append_assoc]

/-- Bytes that were taken are put into the inbox. -/
theorem Faithful.push (h : s.Faithful a rs isLive isFelled) (hl : isLive) (hh : s.isHeld = true)
    (hab : a.Precedes b) (hb : bytes ≠ []) (ht : b.taken = a.taken ++ bytes) :
    (s.push (.ok bytes)).Faithful b rs isLive isFelled := by
  obtain ⟨he, hp⟩ := h.phase.of_live hl
  have hpassed : (s.push (.ok bytes)).passed rs = b.taken := by
    rw [passed_push, h.whole hl hh, bytesOf_ok, ht]
  have hmono : s.Faithful b rs False isFelled := h.mono hab False.elim id fun hf => hf.elim
  refine ⟨hpassed ▸ List.prefix_rfl, fun _ _ => hpassed, .plain he fun p hp' => ?_, hmono.empties,
    hmono.resets⟩
  rcases List.mem_append.1 hp' with hp' | hp'
  · exact hp p hp'
  · exact ⟨bytes, hb, List.mem_singleton.1 hp'⟩

/-- The last piece is put into the inbox. -/
theorem Faithful.tell (h : s.Faithful a rs isLive isFelled) (hl : isLive) (hl' : ¬ isLive')
    (hf : IsFinal a (s.passed rs) isFelled p) :
    (s.push p).Faithful a rs isLive' isFelled := by
  obtain ⟨he, hp⟩ := h.phase.of_live hl
  have hnone : bytesOf [p] = [] := by
    cases p with
    | ok bytes => rw [bytesOf_ok, hf.1]
    | error e => rfl
  have hpassed : (s.push p).passed rs = s.passed rs := by
    rw [passed_push, hnone, List.append_nil]
  exact ⟨hpassed ▸ h.flow, fun h => absurd h hl',
    .told s.inbox p he hl' rfl hp (hpassed ▸ hf), h.empties, h.resets⟩

end Stream

namespace Switchboard

/-- What is known of the streams of a switchboard, by number. -/
structure Notes where
  /-- The account of the connection that was begun when the stream was opened. -/
  owner : Nat → Nat
  /-- What the reads have returned. -/
  reads : Nat → List Piece
  /-- Whether the stream is told that the tunnel has failed. -/
  fell : Nat → Prop
  /-- How many streams there are at least. -/
  count : Nat

/-- What holds of a switchboard while the routes `live` are in use. -/
structure Delivers (m : Notes) (live : List (UInt16 × Nat)) (b : Switchboard) : Prop where
  kept : b.stack.Kept
  nodup : (b.routes.map Prod.fst).Nodup
  sub : ∀ r ∈ live, r ∈ b.routes
  known : ∀ r ∈ live, r.2 < b.streams.length
  held : ∀ r ∈ live, b.stack.ledger.holder r.1 = some (m.owner r.2)
  streams : ∀ i s, b.streams[i]? = some s →
    ∃ a, b.stack.ledger.accounts[m.owner i]? = some a ∧ a.port = s.port ∧
      s.Faithful a (m.reads i) (∃ p, (p, i) ∈ live) (m.fell i)
  silent : ∀ i, b.streams.length ≤ i → m.reads i = []
  count_le : m.count ≤ b.streams.length

section

variable {m : Notes} {fell : Nat → Prop} {live live' : List (UInt16 × Nat)} {b c : Switchboard}
  {s : Stream} {t : Stack} {es : Journal} {port : UInt16} {i : Nat} {l : Link} {p : Piece}

namespace Delivers

/-- Only the stack, the routes and the streams matter. -/
theorem of_eq (h : Delivers m live b) (hs : c.stack = b.stack) (hr : c.routes = b.routes)
    (ht : c.streams = b.streams) : Delivers m live c where
  kept := hs ▸ h.kept
  nodup := hr ▸ h.nodup
  sub := hr ▸ h.sub
  known := ht ▸ h.known
  held := hs ▸ h.held
  streams := by
    rw [hs, ht]
    exact h.streams
  silent := ht ▸ h.silent
  count_le := ht ▸ h.count_le

/-- Fewer routes are in use, and more streams are told that the tunnel has failed. -/
theorem shrink (h : Delivers m live b) (hl : ∀ r ∈ live', r ∈ live)
    (hf : ∀ i, m.fell i → fell i) : Delivers { m with fell } live' b where
  kept := h.kept
  nodup := h.nodup
  sub r hr := h.sub r (hl r hr)
  known r hr := h.known r (hl r hr)
  held r hr := h.held r (hl r hr)
  streams i s hs := by
    obtain ⟨a, ha, hp, hfaith⟩ := h.streams i s hs
    exact ⟨a, ha, hp, hfaith.mono (.refl a) (fun ⟨p, hp⟩ => ⟨p, hl _ hp⟩) (hf i) fun _ _ => rfl⟩
  silent := h.silent
  count_le := h.count_le

/-- The stack goes on and takes no bytes, and no connection on a route in use begins or ends. -/
theorem onStack (h : Delivers m live b) (ht : t.Kept)
    (hj : t.journal = es ++ b.stack.journal) (htaken : ∀ e ∈ es, e.isTaken = false)
    (hturn : ∀ e ∈ es, e.isTurn = true → ∀ r ∈ live, e.port ≠ r.1) :
    Delivers m live { b with stack := t } where
  kept := ht
  nodup := h.nodup
  sub := h.sub
  known := h.known
  held r hr := by
    rw [Stack.ledger, hj, Ledger.holder_append fun e he het => hturn e he het r hr]
    exact h.held r hr
  streams i s hs := by
    obtain ⟨a, ha, hp, hfaith⟩ := h.streams i s hs
    obtain ⟨a', ha', hprec, htk⟩ := Ledger.exists_precedes ha es
    refine ⟨a', ?_, hprec.port.trans hp, hfaith.mono hprec id id fun _ _ => htk htaken⟩
    rw [Stack.ledger, hj]
    exact ha'
  silent := h.silent
  count_le := h.count_le

/-- Routes in use have connections of their own. -/
theorem eq_of_owner (h : Delivers m live b) {q : UInt16} {k : Nat} (hr : (port, i) ∈ live)
    (hr' : (q, k) ∈ live) (ho : m.owner i = m.owner k) : i = k := by
  have hp := h.held _ hr
  have hq := h.held _ hr'
  rw [← ho] at hq
  obtain rfl : port = q := (Ledger.sound_ofJournal _).holder_inj hp hq
  exact (Prod.mk.inj (List.inj_on_of_nodup_map h.nodup (h.sub _ hr) (h.sub _ hr') rfl)).2

theorem exists_link (h : Delivers m live b) (hr : (port, i) ∈ live) :
    ∃ l, b.stack.links.get? port = some l := by
  obtain ⟨a, ha, -⟩ := (Ledger.sound_ofJournal _).exists_at? (h.held _ hr)
  obtain ⟨l, hl, -⟩ := h.kept.exists_link ha
  exact ⟨l, hl⟩

theorem exists_stream (h : Delivers m live b) (hr : (port, i) ∈ live) :
    ∃ s, b.streams[i]? = some s :=
  ⟨_, List.getElem?_eq_getElem (h.known _ hr)⟩

/-- What was received on a route is taken and put into the inbox of its stream, if the user
still has the stream. -/
theorem take (h : Delivers m live b) (hr : (port, i) ∈ live) (hs : b.streams[i]? = some s)
    (ht : t.Kept) {bytes : Bytes} (hj : t.journal = .taken port bytes :: b.stack.journal) :
    Delivers m live
      { b with
        stack := t
        streams := if s.isHeld = true ∧ bytes ≠ [] then b.streams.set i (s.push (.ok bytes))
          else b.streams } := by
  have hheld := h.held _ hr
  have hledger : t.ledger = b.stack.ledger.note (.taken port bytes) := by
    rw [Stack.ledger, hj]
    rfl
  have hlen : i < b.streams.length := (List.getElem?_eq_some_iff.1 hs).1
  have hlength : (if s.isHeld = true ∧ bytes ≠ [] then b.streams.set i (s.push (.ok bytes))
      else b.streams).length = b.streams.length := by
    split
    · exact List.length_set
    · rfl
  refine ⟨ht, h.nodup, h.sub, fun r hr => ?_, fun r hr' => ?_, fun k sk hk => ?_,
    fun k hk => h.silent k (hlength ▸ hk), hlength.symm ▸ h.count_le⟩
  · rw [hlength]
    exact h.known r hr
  · rw [hledger, Ledger.note_eq_change rfl, Ledger.holder_change]
    exact h.held r hr'
  · -- The stream of the route gets its bytes; all others have other accounts, or are on no route.
    by_cases hki : k = i
    · subst hki
      obtain ⟨a, ha, hp, hfaith⟩ := h.streams k s hs
      have ha' := Ledger.getElem?_note ha (.taken port bytes)
      rw [show (Event.taken port bytes).port = port from rfl, if_pos hheld] at ha'
      refine ⟨_, hledger ▸ ha', ?_⟩
      by_cases hpush : s.isHeld = true ∧ bytes ≠ []
      · simp only [if_pos hpush, List.getElem?_set_self hlen] at hk
        obtain rfl := Option.some.inj hk
        exact ⟨by rw [Account.port_note, hp]; rfl,
          hfaith.push ⟨port, hr⟩ hpush.1 (a.precedes_note _) hpush.2 rfl⟩
      · simp only [if_neg hpush] at hk
        obtain rfl := Option.some.inj (hs.symm.trans hk)
        refine ⟨by rw [Account.port_note, hp], hfaith.mono (a.precedes_note _) id id fun _ hh => ?_⟩
        have hnil : bytes = [] := by
          by_contra hne
          exact hpush ⟨hh, hne⟩
        rw [hnil]
        exact List.append_nil a.taken
    · have hk' : b.streams[k]? = some sk := by
        dsimp only at hk
        split at hk
        · rwa [List.getElem?_set_ne (Ne.symm hki)] at hk
        · exact hk
      obtain ⟨a, ha, hp, hfaith⟩ := h.streams k sk hk'
      have ha' := Ledger.getElem?_note ha (.taken port bytes)
      by_cases ho : b.stack.ledger.holder port = some (m.owner k)
      · rw [show (Event.taken port bytes).port = port from rfl, if_pos ho] at ha'
        refine ⟨_, hledger ▸ ha', by rw [Account.port_note, hp],
          hfaith.mono (a.precedes_note _) id id fun hl _ => ?_⟩
        obtain ⟨q, hq⟩ := hl
        exact absurd (h.eq_of_owner hq hr (Option.some.inj (ho.symm.trans hheld))) hki
      · rw [show (Event.taken port bytes).port = port from rfl, if_neg ho] at ha'
        exact ⟨a, hledger ▸ ha', hp, hfaith⟩

/-- The last piece for a stream is put into its inbox, and its route is in use no more. -/
theorem tell (h : Delivers m live b) (hr : (port, i) ∈ live) (hs : b.streams[i]? = some s)
    (hf : ∀ a, b.stack.ledger.accounts[m.owner i]? = some a → s.isHeld = true →
      a.taken = s.passed (m.reads i) → Stream.IsFinal a (s.passed (m.reads i)) (m.fell i) p)
    (hl : ∀ r ∈ live', r ∈ live) (hl' : ∀ q, (q, i) ∉ live') :
    Delivers m live'
      { b with streams := if s.isHeld then b.streams.set i (s.push p) else b.streams } := by
  have hlen : i < b.streams.length := (List.getElem?_eq_some_iff.1 hs).1
  have hshrink : Delivers m live' b := h.shrink hl fun _ hf => hf
  cases hh : s.isHeld with
  | false => exact hshrink.of_eq rfl rfl rfl
  | true =>
    refine ⟨h.kept, h.nodup, hshrink.sub, fun r hr => ?_, hshrink.held, fun k sk hk => ?_,
      fun k hk => h.silent k ?_, ?_⟩
    · rw [if_pos rfl, List.length_set]
      exact hshrink.known r hr
    · rw [if_pos rfl] at hk
      by_cases hki : k = i
      · subst hki
        rw [List.getElem?_set_self hlen] at hk
        obtain rfl := Option.some.inj hk
        obtain ⟨a, ha, hp, hfaith⟩ := h.streams k s hs
        exact ⟨a, ha, hp, hfaith.tell ⟨port, hr⟩ (fun ⟨q, hq⟩ => hl' q hq)
          (hf a ha hh (hfaith.whole ⟨port, hr⟩ hh).symm)⟩
      · rw [List.getElem?_set_ne (Ne.symm hki)] at hk
        exact hshrink.streams k sk hk
    · rwa [if_pos rfl, List.length_set] at hk
    · rw [if_pos rfl, List.length_set]
      exact h.count_le

end Delivers

end

end Switchboard

end Tether.Tunnel
