import Tether.Proofs.Service.Marcos

/-!
# The run of a keep-alive

What a device sends is Marcos and then something that is no Marco, or less than a message, or
nothing that can be read; all along a connection it may come to a point where no more can be
written. A keep-alive answers the Marcos in front of that, each with one whole Polo, and no other
message. It ends for a cause, with the error of that cause, and then nothing about it changes any
more.

* `Underway.run`: a run answers Marcos until there is none any more;
* `hear_of_underway`: so do arrivals, one after the other;
* `idle_or_over`: what came of arrivals that come in time;
* `answers_until_failure`: what can be seen of the keep-alive.
-/

namespace Tether.Heartbeat

open Connection (Message Stops)

namespace KeepAlive

variable {k k' : KeepAlive} {m : Marco} {e : DeviceError} {tail : Bytes}

/-! ## Runs -/

/-- The interval that was announced last. -/
def lastInterval (answered : List Marco) : UInt64 :=
  (answered.getLast?.map Marco.interval).getD defaultInterval

/-- The bytes of Marcos. -/
def bytesOf (answered : List Marco) : Bytes :=
  Message.bytesOf (answered.map Marco.toMessage)

/-- On the connection `c` these Marcos were answered, and then this much was written. -/
structure Tally (c : Connection) (answered : List Marco) (tail : Bytes) (k : KeepAlive) : Prop where
  beats : k.beats = UInt64.ofNat answered.length
  interval : k.interval = lastInterval answered
  sent : k.sent = c.transport.sent ++ polos answered.length ++ tail

/-- Behind the answers to so many Marcos this much can be written on the connection `c`. -/
def RoomBehind (c : Connection) (n : Nat) (room : Option (Nat × Fault)) : Prop :=
  c.transport.allowance = room.map fun left => ((polos n).length + left.1, left.2)

/-- Of a stream these Marcos were answered, and nothing has failed. -/
structure Underway (c : Connection) (stream : Bytes) (answered : List Marco) (k : KeepAlive) :
    Prop where
  stream : stream = bytesOf answered ++ k.pending
  tally : Tally c answered [] k
  room : RoomBehind c answered.length k.room
  error : k.error = none
  isOpen : k.connection.isOpen

/-- Of a stream these Marcos were answered, and then the keep-alive ended: with this error, and with
this much of an answer written. -/
structure Over (c : Connection) (ending : Ending) (stream : Bytes) (answered : List Marco)
    (e : DeviceError) (tail : Bytes) (k : KeepAlive) : Prop where
  tally : Tally c answered tail k
  error : k.error = some e
  cause : ∃ rest room, stream = bytesOf answered ++ rest ∧ RoomBehind c answered.length room ∧
    Cause ending room rest e tail

variable {c : Connection} {stream : Bytes} {answered : List Marco}

theorem Tally.rests (h : Tally c answered tail k) (hk : Rests k k') :
    Tally c answered tail k' where
  beats := hk.beats.trans h.beats
  interval := hk.interval.trans h.interval
  sent := hk.sent.trans h.sent

theorem Underway.answers (h : Underway c stream answered k) (hm : Answers m k k') :
    Underway c stream (answered ++ [m]) k' where
  stream := by
    rw [h.stream, hm.pending]
    simp [bytesOf]
  tally := by
    refine ⟨?_, ?_, ?_⟩
    · rw [hm.beats, h.tally.beats, List.length_append, List.length_singleton, UInt64.ofNat_add]
      rfl
    · rw [hm.interval]
      simp [lastInterval]
    · rw [hm.sent, h.tally.sent, List.length_append, List.length_singleton, polos_succ]
      simp
  room := by
    have hroom := h.room
    rw [RoomBehind, hm.room, Option.map_map] at hroom
    rw [RoomBehind, hroom, List.length_append, List.length_singleton, polos_succ,
      List.length_append]
    simp only [Function.comp_def, Nat.add_assoc]
  error := hm.error
  isOpen := hm.isOpen

theorem Underway.waits (h : Underway c stream answered k) (hk : Waits k k') :
    Underway c stream answered k' where
  stream := by rw [h.stream, hk.pending]
  tally := h.tally.rests hk.toRests
  room := by rw [RoomBehind, hk.room, ← h.room]
  error := hk.error.trans h.error
  isOpen := hk.isOpen.trans h.isOpen

theorem Underway.dies (h : Underway c stream answered k) (hk : Dies e tail k k') :
    Over c k.ending stream answered e tail k' where
  tally := by
    refine ⟨?_, ?_, ?_⟩
    · rw [hk.beats, h.tally.beats]
    · rw [hk.interval, h.tally.interval]
    · rw [hk.sent, h.tally.sent, List.append_nil]
  error := hk.error
  cause := ⟨k.pending, k.room, h.stream, h.room, hk.cause⟩

theorem runFor_of_goes {fuel : Nat} (h : k.beat.2 = true) :
    runFor (fuel + 1) k = runFor fuel k.beat.1 := by
  rw [runFor]
  rcases hb : k.beat with ⟨next, _ | _⟩
  · rw [hb] at h
    contradiction
  · rfl

theorem runFor_of_stays {fuel : Nat} (h : k.beat.2 = false) : runFor (fuel + 1) k = k.beat.1 := by
  rw [runFor]
  rcases hb : k.beat with ⟨next, _ | _⟩
  · rfl
  · rw [hb] at h
    contradiction

/-- Marcos are answered until there is none any more. Then the keep-alive is idle, or it is over. -/
theorem Underway.runFor {fuel : Nat} (h : Underway c stream answered k)
    (hfuel : k.pending.length < fuel) :
    ∃ more, (k.beat.2 = true ↔ more ≠ []) ∧
      ((Underway c stream (answered ++ more) (runFor fuel k) ∧ (runFor fuel k).IsIdle) ∨
        ∃ e tail, Over c k.ending stream (answered ++ more) e tail (runFor fuel k)) := by
  -- Each Marco takes up four bytes at least, so there is fuel for all that is pending.
  induction fuel generalizing k answered with
  | zero => omega
  | succ fuel ih =>
    obtain ⟨⟨m, hm⟩, hgoes⟩ | ⟨hends, hstays⟩ := beat_cases h.isOpen
    · have hshorter : k.beat.1.pending.length < fuel := by
        have := m.four_le_length_toBytes
        rw [hm.pending, List.length_append] at hfuel
        omega
      obtain ⟨more, -, hmore⟩ := ih (h.answers hm) hshorter
      refine ⟨m :: more, by simp [hgoes], ?_⟩
      rw [runFor_of_goes hgoes, List.append_cons, ← hm.ending]
      exact hmore
    · refine ⟨[], by simp [hstays], ?_⟩
      rw [runFor_of_stays hstays, List.append_nil]
      obtain hwaits | ⟨e, tail, hdies⟩ := hends
      · exact .inl ⟨h.waits hwaits, hwaits.isIdle⟩
      · exact .inr ⟨e, tail, h.dies hdies⟩

theorem Underway.run (h : Underway c stream answered k) :
    ∃ more, (k.beat.2 = true ↔ more ≠ []) ∧
      ((Underway c stream (answered ++ more) k.run ∧ k.run.IsIdle) ∨
        ∃ e tail, Over c k.ending stream (answered ++ more) e tail k.run) := by
  have halive : k.isAlive = true := by rw [isAlive, h.error]; rfl
  have hpending : k.pending.length =
      k.partialMessage.length + k.connection.transport.unread.length :=
    List.length_append
  rw [KeepAlive.run, if_pos halive]
  exact h.runFor (by omega)

/-- More bytes arrive. -/
theorem Underway.deliver (h : Underway c stream answered k) (bs : Bytes) (ending : Ending) :
    Underway c (stream ++ bs) answered (k.deliver bs ending) where
  stream := by
    rw [h.stream, List.append_assoc]
    exact congrArg (bytesOf answered ++ ·) (List.append_assoc _ _ _)
  tally := ⟨h.tally.beats, h.tally.interval, h.tally.sent⟩
  room := h.room
  error := h.error
  isOpen := h.isOpen

/-! ### The end -/

instance isPreorder_rests : IsPreorder KeepAlive Rests where
  refl _ := ⟨rfl, rfl, rfl, rfl⟩
  trans _ _ _ h h' := ⟨h'.interval.trans h.interval, h'.beats.trans h.beats,
    h'.error.trans h.error, h'.sent.trans h.sent⟩

theorem isAlive_iff : k.isAlive ↔ k.error = none := by
  rw [isAlive, Option.isNone_iff_eq_none]

theorem isAlive_deliver (k : KeepAlive) (bs : Bytes) (ending : Ending) :
    (k.deliver bs ending).isAlive = k.isAlive :=
  rfl

theorem run_of_ended (h : ¬ k.isAlive) : k.run = k :=
  if_neg h

theorem wait_eq (k : KeepAlive) : k.wait = some (k.error.getD .heartbeatTimeout) := by
  rw [wait, expire, isAlive]
  rcases h : k.error with - | e
  · rfl
  · exact h

theorem Over.rests {ending : Ending} (h : Over c ending stream answered e tail k)
    (hk : Rests k k') : Over c ending stream answered e tail k' where
  tally := h.tally.rests hk
  error := hk.error.trans h.error
  cause := h.cause

end KeepAlive

/-! ## Time -/

namespace Watch

open KeepAlive

variable {c : Connection} {w : Watch} {a : Arrival} {as : List Arrival} {stream : Bytes}
  {answered : List Marco}

/-- A keep-alive that has just been started. -/
def start (c : Connection) : Watch where
  keepAlive := { connection := c }

/-- All this arrives, one after the other. -/
def hearAll (w : Watch) (as : List Arrival) : Watch :=
  as.foldl hear w

@[simp] theorem hearAll_nil (w : Watch) : w.hearAll [] = w :=
  rfl

@[simp] theorem hearAll_append (w : Watch) (as as' : List Arrival) :
    w.hearAll (as ++ as') = (w.hearAll as).hearAll as' :=
  List.foldl_append

@[simp] theorem hearAll_singleton (w : Watch) (a : Arrival) : w.hearAll [a] = w.hear a :=
  rfl

/-- All bytes that arrive. -/
def streamOf (as : List Arrival) : Bytes :=
  as.flatMap Arrival.bytes

theorem streamOf_append_singleton (as : List Arrival) (a : Arrival) :
    streamOf (as ++ [a]) = streamOf as ++ a.bytes := by
  rw [streamOf, List.flatMap_append, List.flatMap_singleton]
  rfl

/-- Whatever arrives while the keep-alive is at work does so before its time is over. -/
def IsPunctual (w : Watch) : List Arrival → Prop
  | [] => True
  | a :: as => (w.keepAlive.isAlive → w.waited + a.delay < w.limit) ∧ (w.hear a).IsPunctual as

theorem isPunctual_append (w : Watch) (as as' : List Arrival) :
    w.IsPunctual (as ++ as') ↔ w.IsPunctual as ∧ (w.hearAll as).IsPunctual as' := by
  induction as generalizing w with
  | nil => simp [IsPunctual]
  | cons a as ih =>
    rw [List.cons_append, IsPunctual, IsPunctual, ih, and_assoc]
    rfl

/-- Nothing has arrived on the connection. -/
structure IsFresh (c : Connection) : Prop where
  isOpen : c.isOpen
  unread : c.transport.unread = []
  ending : c.transport.ending = .silent

/-! ### Arrivals -/

/-- Bytes that arrive in time bring some more Marcos, maybe none, and maybe the end. -/
theorem hear_of_underway (h : Underway c stream answered w.keepAlive)
    (htime : w.waited + a.delay < w.limit) :
    ∃ more, (w.hear a).waited = (if more = [] then w.waited + a.delay else 0) ∧
      ((Underway c (stream ++ a.bytes) (answered ++ more) (w.hear a).keepAlive ∧
          (w.hear a).keepAlive.IsIdle) ∨
        ∃ e tail, Over c a.ending (stream ++ a.bytes) (answered ++ more) e tail
          (w.hear a).keepAlive) := by
  -- The time that passes before they arrive changes nothing.
  have hlate : (w.pass a.delay).keepAlive = w.keepAlive := if_pos htime
  have hdeliver := h.deliver a.bytes a.ending
  obtain ⟨more, hgoes, hmore⟩ := hdeliver.run
  have halive : (w.keepAlive.deliver a.bytes a.ending).isAlive = true :=
    isAlive_iff.2 hdeliver.error
  refine ⟨more, ?_, ?_⟩
  · rw [hear, hlate, halive, Bool.true_and]
    by_cases hmore : more = []
    · rw [if_pos hmore, if_neg fun h => hgoes.1 h hmore]
      rfl
    · rw [if_neg hmore, if_pos (hgoes.2 hmore)]
  · rw [hear, hlate]
    exact hmore

/-- Where the keep-alive has ended before the bytes arrive, they are left unread. -/
theorem hear_of_ended (h : ¬ (w.pass a.delay).keepAlive.isAlive) :
    (w.hear a).keepAlive = (w.pass a.delay).keepAlive.deliver a.bytes a.ending := by
  rw [← isAlive_deliver _ a.bytes a.ending] at h
  rw [hear, run_of_ended h]

/-- A keep-alive that has ended hears nothing. -/
theorem rests_hear (h : ¬ w.keepAlive.isAlive) (a : Arrival) :
    Rests w.keepAlive (w.hear a).keepAlive := by
  have hlate : (w.pass a.delay).keepAlive = w.keepAlive := by
    rw [pass, expire, if_neg h, ite_self]
  have hended : ¬ (w.pass a.delay).keepAlive.isAlive := by rwa [hlate]
  rw [hear_of_ended hended, hlate]
  exact ⟨rfl, rfl, rfl, rfl⟩

theorem rests_hearAll (h : ¬ w.keepAlive.isAlive) (as : List Arrival) :
    Rests w.keepAlive (w.hearAll as).keepAlive := by
  induction as generalizing w with
  | nil => exact refl_of Rests w.keepAlive
  | cons a as ih =>
    have ha := rests_hear h a
    have hdead : ¬ (w.hear a).keepAlive.isAlive := by rwa [isAlive_iff, ha.error, ← isAlive_iff]
    exact trans_of Rests ha (ih hdead)

/-! ### Runs in time -/

/-- What came of the arrivals: the keep-alive waits for a message, or it ended with one of them. -/
inductive Fate (c : Connection) (as : List Arrival) (answered : List Marco) :
    Bytes → Option DeviceError → Prop
  | waiting (rest : Bytes) (hstream : streamOf as = bytesOf answered ++ rest)
      (hrest : Stops .silent rest .waiting []) : Fate c as answered [] none
  | ended (before : List Arrival) (a : Arrival) (after : List Arrival) (rest : Bytes)
      (room : Option (Nat × Fault)) {e : DeviceError} {tail : Bytes}
      (has : as = before ++ a :: after) (halive : ((start c).hearAll before).keepAlive.isAlive)
      (hstream : streamOf (before ++ [a]) = bytesOf answered ++ rest)
      (hroom : RoomBehind c answered.length room) (hcause : Cause a.ending room rest e tail) :
      Fate c as answered tail (some e)

theorem underway_start (hc : IsFresh c) :
    Underway c [] [] (start c).keepAlive ∧ (start c).keepAlive.IsIdle := by
  have hpending : (start c).keepAlive.pending = [] := hc.unread
  constructor
  · refine ⟨by rw [hpending]; rfl, ⟨rfl, rfl, ?_⟩, ?_, rfl, hc.isOpen⟩
    · simp [polos, start, KeepAlive.sent]
    · simp [RoomBehind, polos, start, KeepAlive.room]
  · refine ⟨?_, hc.ending⟩
    rw [hpending]
    exact Connection.stops_of_lt .silent (by decide)

/-- The keep-alive is idle, or it ended with one of the arrivals. -/
theorem idle_or_over (hc : IsFresh c) (h : (start c).IsPunctual as) :
    ∃ answered, (Underway c (streamOf as) answered ((start c).hearAll as).keepAlive ∧
        ((start c).hearAll as).keepAlive.IsIdle) ∨
      ∃ before a after e tail, as = before ++ a :: after ∧
        ((start c).hearAll before).keepAlive.isAlive ∧
        Over c a.ending (streamOf (before ++ [a])) answered e tail
          ((start c).hearAll as).keepAlive := by
  -- What the last arrival does depends on what came of those before it.
  induction as using List.reverseRecOn with
  | nil => exact ⟨[], .inl (underway_start hc)⟩
  | append_singleton as a ih =>
    obtain ⟨hpunctual, hlast, -⟩ := (isPunctual_append _ _ _).1 h
    rw [hearAll_append, hearAll_singleton]
    obtain ⟨answered, ⟨hunderway, -⟩ | ⟨before, b, after, e, tail, rfl, halive, hover⟩⟩ :=
      ih hpunctual
    · have halive := isAlive_iff.2 hunderway.error
      obtain ⟨more, -, hmore⟩ := hear_of_underway hunderway (hlast halive)
      rw [← streamOf_append_singleton] at hmore
      refine ⟨answered ++ more, hmore.imp_right ?_⟩
      rintro ⟨e, tail, hover⟩
      exact ⟨as, a, [], e, tail, rfl, halive, hover⟩
    · -- It ended before, and stays as it is.
      have hdead : ¬ ((start c).hearAll (before ++ b :: after)).keepAlive.isAlive := by
        rw [isAlive_iff, hover.error]
        exact Option.some_ne_none e
      refine ⟨answered, .inr ⟨before, b, after ++ [a], e, tail, by simp, halive, ?_⟩⟩
      exact hover.rests (rests_hear hdead a)

/-- What can be seen of a keep-alive when all this has arrived: it has answered the Marcos at the
front of the stream, each with one whole Polo, and shows how many they were and what the last of
them announced. An error that ended it is shown, and waiting for it gives the same error. Nothing is
written behind it. -/
structure Account (c : Connection) (as : List Arrival) (answered : List Marco) (tail : Bytes)
    (k : KeepAlive) : Prop where
  fate : Fate c as answered tail k.error
  sent : k.sent = c.transport.sent ++ polos answered.length ++ tail
  snapshot : k.snapshot = {
    interval := lastInterval answered
    beats := UInt64.ofNat answered.length
    error := k.error.map DeviceError.report }
  beats : answered.length < 2 ^ 64 → k.beats.toNat = answered.length
  wait : k.wait = some (k.error.getD .heartbeatTimeout)
  rests : k.error ≠ none → ∀ later, Rests k ((start c).hearAll (as ++ later)).keepAlive

/-- A tally and a fate are an account. -/
theorem account_of_tally {tail : Bytes}
    (ht : Tally c answered tail ((start c).hearAll as).keepAlive)
    (hf : Fate c as answered tail ((start c).hearAll as).keepAlive.error) :
    Account c as answered tail ((start c).hearAll as).keepAlive where
  fate := hf
  sent := ht.sent
  snapshot := by rw [KeepAlive.snapshot, ht.interval, ht.beats]
  beats hlt := by rw [ht.beats, UInt64.toNat_ofNat', Nat.mod_eq_of_lt hlt]
  wait := wait_eq _
  rests herror later := by
    rw [hearAll_append]
    exact rests_hearAll (by rwa [isAlive_iff]) later

/-- For all that arrives in time, and wherever reading or writing starts to fail, there is an
account of what can be seen. -/
theorem answers_until_failure (hc : IsFresh c) (h : (start c).IsPunctual as) :
    ∃ answered tail, Account c as answered tail ((start c).hearAll as).keepAlive := by
  obtain ⟨answered, ⟨hunderway, hidle⟩ | ⟨before, a, after, e, tail, has, halive, hover⟩⟩ :=
    idle_or_over hc h
  · refine ⟨answered, [], account_of_tally hunderway.tally ?_⟩
    rw [hunderway.error]
    exact .waiting _ hunderway.stream hidle.1
  · obtain ⟨rest, room, hstream, hroom, hcause⟩ := hover.cause
    refine ⟨answered, tail, account_of_tally hover.tally ?_⟩
    rw [hover.error]
    exact .ended before a after rest room has halive hstream hroom hcause

/-- A connection on which one Polo can be written, and some more. -/
def narrow : Connection where
  transport := { unread := [], ending := .silent, allowance := some (300, .brokenPipe) }
  label := "host"

/-- One Marco in two parts, and a second one. -/
def twoMarcos : List Arrival :=
  [{ delay := 10 ^ 9, bytes := (marco 2).toBytes.take 30 },
    { delay := 10 ^ 9, bytes := (marco 2).toBytes.drop 30 },
    { delay := 6 * 10 ^ 9, bytes := (marco 3).toBytes }]

/-- The second Polo cannot be written whole. -/
theorem account_twoMarcos :
    IsFresh narrow ∧ (start narrow).IsPunctual twoMarcos ∧
      ((start narrow).hearAll twoMarcos).keepAlive.snapshot =
        ⟨2, 1, some (DeviceError.socket .brokenPipe).report⟩ ∧
      ∃ answered tail,
        Account narrow twoMarcos answered tail ((start narrow).hearAll twoMarcos).keepAlive := by
  have hfresh : IsFresh narrow := ⟨rfl, rfl, rfl⟩
  have hpunctual : (start narrow).IsPunctual twoMarcos :=
    ⟨fun _ => by decide +kernel, fun _ => by decide +kernel, fun _ => by decide +kernel, trivial⟩
  exact ⟨hfresh, hpunctual, by decide +kernel, answers_until_failure hfresh hpunctual⟩

end Watch

end Tether.Heartbeat
