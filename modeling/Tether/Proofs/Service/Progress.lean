import Tether.Proofs.Service.Browsing

/-!
# Commands with progress

What a command gives when it is asked again and again is read off the messages that a device sends,
in order. A message tells how far the command is, and behind that that it is complete, as far as it
says so; one with an error gives this error and nothing else. With an error, or when the command is
complete, there is nothing more to ask for. A message is read when its first event is asked for and
no sooner, and the request is sent when anything is asked for at all.

* `courseOf`: what the messages give, with the bytes that are unread at each moment;
* `ends_next`: one question, from any point of a course;
* `follows_course`: all questions, and the command carried out as a whole.
-/

namespace Tether.Apps

open Connection (Message Delivery framed)

/-! ## What messages tell -/

/-- How far a command is, by what a report says. -/
def percentIn? (d : Plist.Dictionary) : Option Nat :=
  match d.get? "PercentComplete" with
  | some (.integer n) => n.toNat?
  | _ => none

/-- What a report tells about a command, in order. -/
def eventsIn (d : Plist.Dictionary) : List Event :=
  ((percentIn? d).map Event.percent).toList ++ if IsFinal d then [.complete] else []

theorem eventsOf_eq (d : Plist.Dictionary) : Progress.eventsOf d = eventsIn d := by
  unfold Progress.eventsOf eventsIn
  simp only [isComplete_iff]
  congr 3
  unfold percentIn?
  rcases d.get? "PercentComplete" with _ | v
  · rfl
  · cases v <;> rfl

theorem length_eventsIn_le (d : Plist.Dictionary) : (eventsIn d).length ≤ 2 := by
  unfold eventsIn
  cases percentIn? d <;> split <;> simp

/-- A report that is the last one tells so. -/
theorem eventsIn_ne_nil {d : Plist.Dictionary} (h : IsFinal d) : eventsIn d ≠ [] := by
  simp [eventsIn, h]

/-- A command is complete before there is an error. -/
def Completes (ms : List Message) : Prop :=
  ∃ before m after, ms = before ++ m :: after ∧ IsFinal m.content ∧
    ∀ m' ∈ before ++ [m], errorIn? m'.content = none

theorem not_completes_nil : ¬ Completes [] := by
  rintro ⟨before, m, after, h, -⟩
  simp at h

theorem completes_cons {m : Message} {ms : List Message} :
    Completes (m :: ms) ↔ errorIn? m.content = none ∧ (IsFinal m.content ∨ Completes ms) := by
  constructor
  · rintro ⟨before, m', after, h, hfinal, hsound⟩
    cases before with
    | nil =>
      obtain ⟨rfl, rfl⟩ := List.cons.inj h
      exact ⟨hsound m List.mem_cons_self, .inl hfinal⟩
    | cons x before =>
      obtain ⟨rfl, rfl⟩ := List.cons.inj h
      exact ⟨hsound m List.mem_cons_self, .inr ⟨before, m', after, rfl, hfinal,
        fun x hx => hsound x (List.mem_cons_of_mem _ hx)⟩⟩
  · rintro ⟨hsound, hfinal | ⟨before, m', after, rfl, hfinal, hsound'⟩⟩
    · exact ⟨[], m, ms, rfl, hfinal, List.forall_mem_singleton.2 hsound⟩
    · exact ⟨m :: before, m', after, rfl, hfinal, List.forall_mem_cons.2 ⟨hsound, hsound'⟩⟩

namespace Progress

/-! ## Courses -/

/-- What a question is answered with: an event, or that there are no more, or an error. -/
abbrev Item := Except DeviceError (Option Event)

/-- Answers in their order. -/
structure Course where
  /-- The answers up to the last event or error, each with the bytes that are unread then. -/
  items : List (Item × Bytes)
  /-- Whether a further question is not answered, where it would be told that there is no more. -/
  waits : Bool

namespace Course

/-- A course with these answers in front. -/
def tell (f : Course) (items : List (Item × Bytes)) : Course :=
  { f with items := items ++ f.items }

/-- There are no more events. -/
def ended : Course :=
  ⟨[], false⟩

/-- The answers to so many questions. -/
def first (f : Course) (n : Nat) : List Item :=
  (f.items.map Prod.fst).take n ++ List.replicate (n - f.items.length) (.ok none)

/-- The bytes that are unread after so many questions, if there are these before the first. -/
def unreadAfter (f : Course) (n : Nat) (unread : Bytes) : Bytes :=
  ((f.items.map Prod.snd).take n).getLastD unread

theorem tell_nil (f : Course) : f.tell [] = f :=
  rfl

theorem tell_tell (f : Course) (items items' : List (Item × Bytes)) :
    (f.tell items').tell items = f.tell (items ++ items') := by
  simp only [tell, List.append_assoc]

/-- So many questions are answered. -/
def Answers (f : Course) (n : Nat) : Prop :=
  f.waits → n ≤ f.items.length

/-- From one course to another with an answer, and from these unread bytes to those. -/
inductive Step : Course → Bytes → Item → Bytes → Course → Prop
  /-- It is the next answer. -/
  | next {f : Course} {item : Item} {unread unread' : Bytes} (h : item ≠ .ok none) :
    Step (f.tell [(item, unread')]) unread item unread' f
  /-- There are no more. -/
  | stay {unread : Bytes} : Step ended unread (.ok none) unread ended

variable {f f' : Course} {item : Item} {unread unread' : Bytes}

theorem Step.eq_tell (h : Step f unread item unread' f') (hitem : item ≠ .ok none) :
    f = f'.tell [(item, unread')] := by
  cases h with
  | next => rfl
  | stay => exact absurd rfl hitem

theorem Step.eq_ended (h : Step f unread (.ok none) unread' f') : f = ended ∧ unread' = unread := by
  generalize hitem : (.ok none : Item) = item at h
  cases h with
  | next hne => exact absurd hitem.symm hne
  | stay => exact ⟨rfl, rfl⟩

theorem Step.first (h : Step f unread item unread' f') (n : Nat) :
    f.first (n + 1) = item :: f'.first n := by
  cases h with
  | next => simp [Course.first, tell]
  | stay => simp [Course.first, Course.ended, List.replicate_succ]

theorem Step.unreadAfter (h : Step f unread item unread' f') (n : Nat) :
    f.unreadAfter (n + 1) unread = f'.unreadAfter n unread' := by
  cases h with
  | next =>
    simp only [Course.unreadAfter, tell, List.cons_append, List.nil_append, List.map_cons,
      List.take_succ_cons, List.getLastD_cons]
  | stay => simp [Course.unreadAfter, Course.ended]

theorem Step.answers (h : Step f unread item unread' f') (n : Nat) :
    f.Answers (n + 1) ↔ f'.Answers n := by
  cases h with
  | next => simp [Answers, tell]
  | stay => simp [Answers, Course.ended]

end Course

variable {ending : Ending} (d : Delivery ending)

/-- What comes of these messages of a delivery and of what is behind them. -/
def courseOf : List Message → Course
  | [] =>
    match d.halt with
    | .failed e => ⟨[(.error e, d.left)], false⟩
    | .waiting => ⟨[], true⟩
  | m :: ms =>
    let behind := Message.bytesOf ms ++ d.rest
    match errorIn? m.content with
    | some e => ⟨[(.error e, behind)], false⟩
    | none =>
      (if IsFinal m.content then Course.ended else courseOf ms).tell
        ((eventsIn m.content).map fun e => (.ok (some e), behind))

/-- A message gives two answers at most. -/
theorem length_items_courseOf_le (ms : List Message) :
    (courseOf d ms).items.length ≤ 2 * ms.length + 1 := by
  induction ms with
  | nil => cases h : d.halt <;> simp [courseOf, h]
  | cons m ms ih =>
    have htwo := length_eventsIn_le m.content
    cases herror : errorIn? m.content with
    | some e => simp [courseOf, herror]
    | none =>
      by_cases hfinal : IsFinal m.content
      · simp only [courseOf, herror, hfinal, if_true, Course.tell, Course.ended, List.append_nil,
          List.length_map, List.length_cons]
        omega
      · simp only [courseOf, herror, hfinal, if_false, Course.tell, List.length_append,
          List.length_map, List.length_cons]
        omega

/-- Only events are told, and then that there are no more, where a command is complete before there
is an error. -/
theorem completes_iff (ms : List Message) :
    Completes ms ↔ (courseOf d ms).waits = false ∧
      ∀ x ∈ (courseOf d ms).items, ∃ e, x.1 = .ok (some e) := by
  induction ms with
  | nil =>
    refine iff_of_false not_completes_nil ?_
    cases h : d.halt <;> simp [courseOf, h]
  | cons m ms ih =>
    rw [completes_cons]
    cases herror : errorIn? m.content with
    | some e => simp [courseOf, herror]
    | none =>
      by_cases hfinal : IsFinal m.content
      · simp [courseOf, herror, hfinal, Course.tell, Course.ended]
      · simp only [courseOf, herror, hfinal, if_false, Course.tell, false_or, true_and, ih,
          List.forall_mem_append, List.forall_mem_map]
        simp

/-! ## Answering -/

variable {d}

/-- A command whose request was sent, when these messages of the delivery are still to come. -/
structure Faces (d : Delivery ending) (sent : Bytes) (ms : List Message) (s : Session) : Prop where
  isOpen : s.connection.isOpen
  ending : s.connection.transport.ending = ending
  sent : s.connection.transport.sent = sent
  request : s.progress.request = none
  unread : s.progress.isOver = false →
    s.connection.transport.unread = Message.bytesOf ms ++ d.rest

/-- What is to come of a command, when these messages of the delivery are. -/
def ahead (d : Delivery ending) (ms : List Message) (s : Session) : Course :=
  (if s.progress.isOver then Course.ended else courseOf d ms).tell
    (s.progress.queued.map fun e => (.ok (some e), s.connection.transport.unread))

variable {sent : Bytes} {ms : List Message} {s : Session}

theorem ahead_of_queued {e : Event} {queued : List Event} (h : s.progress.queued = e :: queued) :
    ahead d ms s = (ahead d ms { s with progress := { s.progress with queued := queued } }).tell
      [(.ok (some e), s.connection.transport.unread)] := by
  simp only [ahead, h, Course.tell_tell]
  rfl

theorem ahead_of_over (hqueued : s.progress.queued = []) (hover : s.progress.isOver = true) :
    ahead d ms s = Course.ended := by
  rw [ahead, hqueued, if_pos hover]
  rfl

/-- A failure ends the report for good. -/
theorem ahead_of_failed {connection : Connection} (hqueued : s.progress.queued = []) :
    ahead d ms { connection, progress := { s.progress with request := none, isOver := true } } =
      Course.ended :=
  ahead_of_over hqueued rfl

theorem ahead_of_idle (hqueued : s.progress.queued = []) (hover : s.progress.isOver = false) :
    ahead d ms s = courseOf d ms := by
  rw [ahead, hqueued, hover]
  rfl

theorem ends_onConnection {α : Type} {c : Call DeviceError Connection α}
    {Q : α → Session → Prop} {E : Halt DeviceError → Session → Prop} :
    (onConnection c).Ends s Q E ↔
      c.Ends s.connection (fun a connection => Q a { s with connection }) (fun h connection =>
        match h with
        | .failed e =>
          E (.failed e) { connection, progress := { s.progress with request := none, isOver := true } }
        | .waiting => E .waiting { s with connection }) := by
  simp only [Call.Ends, onConnection]
  rcases c s.connection with _ | ⟨_ | _, _⟩ <;> rfl

/-- A message that has arrived is received, or the error in it is. -/
theorem ends_report {c : Connection} {m : Message} {rest : Bytes} (ho : c.isOpen)
    (h : c.transport.unread = m.toBytes ++ rest) :
    Call.Ends (do
        let message ← Connection.receive
        if let some e := describedFailure? message then Call.fail e
        return message) c
      (fun message t => message = m.content ∧ errorIn? m.content = none ∧
        ∃ reads, t = c.left rest reads)
      (fun halt t => (∃ e, errorIn? m.content = some e ∧ halt = .failed e) ∧
        ∃ reads, t = c.left rest reads) := by
  rw [Call.ends_bind]
  refine (Connection.ends_receive ho h).mono ?_ ?_
  · rintro message t ⟨rfl, hreported, hleft⟩
    rw [errorIn?_eq, hreported, Option.none_or]
    cases hwords : describedFailure? m.content with
    | none => exact ⟨rfl, rfl, hleft⟩
    | some e => exact ⟨⟨e, rfl, rfl⟩, hleft⟩
  · rintro halt t ⟨⟨e, hreported, rfl⟩, hleft⟩
    exact ⟨⟨e, by rw [errorIn?_eq, hreported, Option.some_or], rfl⟩, hleft⟩

/-- Messages are received up to the first that tells something. -/
theorem ends_receiveEvent {fuel : Nat} (hs : Faces d sent ms s) (hover : s.progress.isOver = false)
    (hqueued : s.progress.queued = []) (hfuel : ms.length < fuel) :
    (receiveEvent fuel).Ends s
      (fun e t => ∃ ms', Faces d sent ms' t ∧
        courseOf d ms = (ahead d ms' t).tell [(.ok (some e), t.connection.transport.unread)])
      (fun halt t => match halt with
        | .failed e => ∃ ms', Faces d sent ms' t ∧
          courseOf d ms = (ahead d ms' t).tell [(.error e, t.connection.transport.unread)]
        | .waiting => t.connection.transport.sent = sent ∧ courseOf d ms = ⟨[], true⟩) := by
  induction ms generalizing fuel s with
  | nil =>
    obtain ⟨fuel, rfl⟩ := Nat.exists_eq_add_of_lt hfuel
    rw [List.length_nil, Nat.zero_add, receiveEvent, Call.ends_bind, ends_onConnection,
      Call.ends_bind]
    refine (d.stops _ hs.isOpen hs.ending (hs.unread hover)).mono (fun _ _ => False.elim) ?_
    rintro halt _ ⟨hhalt, reads, rfl⟩
    cases halt with
    | failed e =>
      refine ⟨[], ⟨hs.isOpen, hs.ending, hs.sent, rfl, fun h => absurd h.symm Bool.false_ne_true⟩, ?_⟩
      rw [ahead_of_failed hqueued, courseOf, ← hhalt]
      rfl
    | waiting =>
      exact ⟨hs.sent, by rw [courseOf, ← hhalt]⟩
  | cons m ms ih =>
    obtain ⟨fuel, rfl⟩ := Nat.exists_eq_add_of_lt (Nat.lt_of_le_of_lt (Nat.zero_le _) hfuel)
    have hunread := hs.unread hover
    rw [Message.bytesOf_cons, List.append_assoc] at hunread
    rw [Nat.zero_add, receiveEvent, Call.ends_bind, ends_onConnection]
    refine (ends_report hs.isOpen hunread).mono ?_ ?_
    · rintro _ _ ⟨rfl, hsound, reads, rfl⟩
      have ht : Faces d sent ms
          { s with connection := s.connection.left (Message.bytesOf ms ++ d.rest) reads } :=
        ⟨hs.isOpen, hs.ending, hs.sent, hs.request, fun _ => rfl⟩
      rw [eventsOf_eq]
      cases hevents : eventsIn m.content with
      | nil =>
        have hgoing : ¬ IsFinal m.content := fun hfinal => eventsIn_ne_nil hfinal hevents
        have hsame : courseOf d (m :: ms) = courseOf d ms := by
          simp only [courseOf, hsound, hevents, if_neg hgoing, List.map_nil, Course.tell_nil]
        rw [hsame]
        refine ih ht hover hqueued ?_
        rw [List.length_cons] at hfuel
        omega
      | cons e queued =>
        refine ⟨ms, ⟨hs.isOpen, hs.ending, hs.sent, hs.request, fun _ => rfl⟩, ?_⟩
        simp only [courseOf, hsound, hevents, ahead, isComplete_iff, Course.tell_tell]
        rfl
    · rintro _ _ ⟨⟨e, herror, rfl⟩, reads, rfl⟩
      refine ⟨ms, ⟨hs.isOpen, hs.ending, hs.sent, rfl, fun h => absurd h.symm Bool.false_ne_true⟩, ?_⟩
      rw [ahead_of_failed hqueued, courseOf, herror]
      rfl

/-- One question is answered with what is next on the course, or with nothing where that has ended,
or not at all where it waits. -/
theorem ends_next (hs : Faces d sent ms s) :
    next.Ends s
      (fun o t => ∃ ms', Faces d sent ms' t ∧ (ahead d ms s).Step s.connection.transport.unread
        (.ok o) t.connection.transport.unread (ahead d ms' t))
      (fun halt t => match halt with
        | .failed e => ∃ ms', Faces d sent ms' t ∧
          (ahead d ms s).Step s.connection.transport.unread
            (.error e) t.connection.transport.unread (ahead d ms' t)
        | .waiting => t.connection.transport.sent = sent ∧ ahead d ms s = ⟨[], true⟩) := by
  rw [next, Call.ends_bind, Call.ends_get]
  dsimp only
  cases hqueued : s.progress.queued with
  | cons e queued =>
    -- The event is one of the message that was received last.
    refine Call.ends_bind.2 ⟨ms, ⟨hs.isOpen, hs.ending, hs.sent, hs.request, hs.unread⟩, ?_⟩
    rw [ahead_of_queued hqueued]
    exact .next (by simp)
  | nil =>
    cases hover : s.progress.isOver with
    | true =>
      refine ⟨ms, hs, ?_⟩
      rw [ahead_of_over hqueued hover]
      exact .stay
    | false =>
      rw [hs.request, ahead_of_idle hqueued hover]
      have hfuel : ms.length < s.connection.transport.unread.length + 1 := by
        have := Message.length_le_length_bytesOf ms
        rw [hs.unread hover, List.length_append]
        omega
      refine Call.ends_bind.2 (Call.ends_get.2 (Call.ends_map.2 ?_))
      refine (ends_receiveEvent hs hover hqueued hfuel).mono ?_ ?_
      · rintro e t ⟨ms', ht, heq⟩
        exact ⟨ms', ht, heq ▸ .next (by simp)⟩
      · rintro (e | _) t ht
        · obtain ⟨ms', ht, heq⟩ := ht
          exact ⟨ms', ht, heq ▸ .next (by simp)⟩
        · exact ht

/-- Questions one after the other, whatever each is answered with. -/
def polls : Nat → Call DeviceError Session (List Item)
  | 0 => return []
  | n + 1 => do
    let item : Item ← Call.attempt next
    return item :: (← polls n)

/-- Questions are answered with what is next on the course, and behind its end with nothing, over
and over, while nothing changes. -/
theorem ends_polls (n : Nat) (hs : Faces d sent ms s) :
    (polls n).Ends s
      (fun items t => items = (ahead d ms s).first n ∧
        t.connection.transport.unread =
          (ahead d ms s).unreadAfter n s.connection.transport.unread ∧
        t.connection.transport.sent = sent ∧ (ahead d ms s).Answers n)
      (fun halt t => halt = .waiting ∧ t.connection.transport.sent = sent ∧
        ¬ (ahead d ms s).Answers n) := by
  induction n generalizing ms s with
  | zero => exact ⟨by simp [Course.first], rfl, hs.sent, fun _ => Nat.zero_le _⟩
  | succ n ih =>
    have hanswer : (Call.attempt next : Call DeviceError Session Item).Ends s
        (fun item t => ∃ ms', Faces d sent ms' t ∧ (ahead d ms s).Step s.connection.transport.unread
          item t.connection.transport.unread (ahead d ms' t))
        (fun halt t => halt = .waiting ∧ t.connection.transport.sent = sent ∧
          ahead d ms s = ⟨[], true⟩) := by
      refine Call.ends_attempt.2 ((ends_next hs).mono (fun _ _ h => h) ?_)
      rintro (e | _) t ht
      · exact ht
      · exact ⟨rfl, ht⟩
    rw [polls, Call.ends_bind]
    refine hanswer.mono ?_ ?_
    · rintro item t ⟨ms', ht, hstep⟩
      rw [Call.ends_bind, hstep.first, hstep.unreadAfter, hstep.answers]
      refine (ih ht).mono ?_ fun _ _ h => h
      rintro items u ⟨rfl, h⟩
      exact ⟨rfl, h⟩
    · rintro halt t ⟨rfl, hsent, hwaits⟩
      exact ⟨rfl, hsent, by simp [hwaits, Course.Answers]⟩

/-- Questions are asked until there are no more events, or an error. -/
theorem ends_drain (fuel : Nat) (hs : Faces d sent ms s)
    (hfuel : (ahead d ms s).items.length < fuel) :
    (drain fuel).Ends s
      (fun _ t => (ahead d ms s).waits = false ∧
        (∀ x ∈ (ahead d ms s).items, ∃ e, x.1 = .ok (some e)) ∧
        t.connection.transport.sent = sent ∧
        t.connection.transport.unread = (ahead d ms s).unreadAfter
          (ahead d ms s).items.length s.connection.transport.unread)
      (fun halt t => t.connection.transport.sent = sent ∧ match halt with
        | .failed e => ∃ x ∈ (ahead d ms s).items, x.1 = .error e
        | .waiting => (ahead d ms s).waits = true ∧
          ∀ x ∈ (ahead d ms s).items, ∃ e, x.1 = .ok (some e)) := by
  induction fuel generalizing ms s with
  | zero => exact absurd hfuel (Nat.not_lt_zero _)
  | succ fuel ih =>
    rw [drain, Call.ends_bind]
    refine (ends_next hs).mono ?_ ?_
    · rintro (_ | e) t ⟨ms', ht, hstep⟩
      · obtain ⟨hended, hunread⟩ := hstep.eq_ended
        rw [hended]
        exact ⟨rfl, List.forall_mem_nil _, ht.sent, hunread⟩
      · have hahead := hstep.eq_tell (by simp)
        rw [hahead] at hfuel ⊢
        refine (ih ht (by simpa [Course.tell] using hfuel)).mono ?_ ?_
        · rintro _ u ⟨hwaits, hevents, hsent, hunread⟩
          refine ⟨hwaits, List.forall_mem_cons.2 ⟨⟨e, rfl⟩, hevents⟩, hsent, hunread.trans ?_⟩
          exact ((hahead ▸ hstep).unreadAfter _).symm
        · rintro halt u ⟨hsent, hhalt⟩
          refine ⟨hsent, ?_⟩
          cases halt with
          | failed e' =>
            obtain ⟨x, hx, hxe⟩ := hhalt
            exact ⟨x, List.mem_cons_of_mem _ hx, hxe⟩
          | waiting => exact ⟨hhalt.1, List.forall_mem_cons.2 ⟨⟨e, rfl⟩, hhalt.2⟩⟩
    · rintro (e | _) t ht
      · obtain ⟨ms', ht, hstep⟩ := ht
        rw [hstep.eq_tell (by simp)]
        exact ⟨ht.sent, _, List.mem_cons_self, rfl⟩
      · rw [ht.2]
        exact ⟨ht.1, rfl, List.forall_mem_nil _⟩

/-! ## The first question -/

variable {request : Plist.Dictionary} {c u : Connection} {e : DeviceError}

/-- The first question sends the request, and is then like the others. -/
theorem next_start (h : Connection.send (.dictionary request) c = .ok () u) :
    next ⟨c, { request := some request }⟩ = next ⟨u, { request := none }⟩ := by
  have hsend : onConnection (Connection.send (.dictionary request))
      ⟨c, { request := some request }⟩ = .ok () ⟨u, { request := some request }⟩ := by
    rw [onConnection, h]
  simp only [next, bind, EStateM.bind, get, getThe, MonadStateOf.get, EStateM.get,
    Bool.false_eq_true, if_false, hsend]
  rfl

/-- If the request cannot be sent, this is the end. -/
theorem next_unsent (h : Connection.send (.dictionary request) c = .error (.failed e) u) :
    next ⟨c, { request := some request }⟩ =
      .error (.failed e) ⟨u, { request := none, isOver := true }⟩ := by
  have hsend : onConnection (Connection.send (.dictionary request))
      ⟨c, { request := some request }⟩ =
        .error (.failed e) ⟨u, { request := none, isOver := true }⟩ := by
    rw [onConnection, h]
  simp only [next, bind, EStateM.bind, get, getThe, MonadStateOf.get, EStateM.get,
    Bool.false_eq_true, if_false, hsend]

theorem polls_start (n : Nat) (h : Connection.send (.dictionary request) c = .ok () u) :
    polls (n + 1) ⟨c, { request := some request }⟩ = polls (n + 1) ⟨u, { request := none }⟩ := by
  simp only [polls, bind, EStateM.bind, Call.attempt, next_start h]

theorem drain_start (fuel : Nat) (h : Connection.send (.dictionary request) c = .ok () u) :
    drain (fuel + 1) ⟨c, { request := some request }⟩ = drain (fuel + 1) ⟨u, { request := none }⟩ := by
  simp only [drain, bind, EStateM.bind, next_start h]

/-- Behind the end nothing comes and nothing changes. -/
theorem polls_over (n : Nat) (hover : s.progress.isOver = true) (hqueued : s.progress.queued = []) :
    polls n s = .ok (List.replicate n (.ok none)) s := by
  have hnext : next s = .ok none s := by
    simp only [next, bind, EStateM.bind, get, getThe, MonadStateOf.get, EStateM.get, hover, hqueued]
    rfl
  induction n with
  | zero => rfl
  | succ n ih =>
    simp only [polls, bind, EStateM.bind, Call.attempt, hnext, ih]
    rfl

theorem polls_unsent (n : Nat) (h : Connection.send (.dictionary request) c = .error (.failed e) u) :
    polls (n + 1) ⟨c, { request := some request }⟩ =
      .ok (.error e :: List.replicate n (.ok none)) ⟨u, { request := none, isOver := true }⟩ := by
  simp only [polls, bind, EStateM.bind, Call.attempt, next_unsent h,
    polls_over n (s := ⟨u, { request := none, isOver := true }⟩) rfl rfl]
  rfl

end Progress

open Progress

theorem ends_withProgress {α : Type} {task : Task} {subject : String} {options : Option Plist}
    {c : Call DeviceError Session α} {s : Connection} {Q : α → Connection → Prop}
    {E : Halt DeviceError → Connection → Prop} :
    (withProgress task subject options c).Ends s Q E ↔
      c.Ends ⟨s, .start task subject options⟩ (fun a t => Q a t.connection)
        (fun h t => E h t.connection) := by
  simp only [Call.Ends, withProgress]
  cases c ⟨s, .start task subject options⟩ <;> rfl

/-- The request of a command. -/
def requestOf (task : Task) (subject : String) (options : Option Plist) : Plist.Dictionary :=
  command task.name options ++ [(task.subjectKey, .string subject)]

variable {task : Task} {subject : String} {options : Option Plist} {ending : Ending}
  {d : Delivery ending} {s u : Connection}

/-- Once the request is sent, all messages are to come. -/
theorem faces_sent (hending : s.transport.ending = ending)
    (hunread : s.transport.unread = d.toBytes)
    (hsend : Connection.send (.dictionary (requestOf task subject options)) s = .ok () u) :
    Faces d (s.transport.sent ++ framed (requestOf task subject options)) d.messages
      ⟨u, { request := none }⟩ ∧ u.transport.unread = s.transport.unread := by
  have hends := Connection.ends_send (requestOf task subject options) s
  rw [Call.Ends, hsend] at hends
  obtain ⟨ho, hending', hsent, hunread'⟩ := hends
  exact ⟨⟨ho, hending'.trans hending, hsent, rfl, fun _ => hunread'.trans hunread⟩, hunread'⟩

/-- What becomes of a command on `s` when its request is sent and a device sends these messages. -/
structure Runs (task : Task) (subject : String) (options : Option Plist) (s : Connection)
    (d : Delivery ending) : Prop where
  /-- Questions are answered with the course of the messages. The request is sent with the first
  one, and nothing else is sent. -/
  polled : ∀ n, (withProgress task subject options (polls n)).Ends s
    (fun items t => items = (courseOf d d.messages).first n ∧
      t.transport.unread = (courseOf d d.messages).unreadAfter n s.transport.unread ∧
      t.transport.sent = s.transport.sent ++
        (if n = 0 then [] else framed (requestOf task subject options)) ∧
      (courseOf d d.messages).Answers n)
    (fun halt t => halt = .waiting ∧
      t.transport.sent = s.transport.sent ++ framed (requestOf task subject options) ∧
      ¬ (courseOf d d.messages).Answers n)
  /-- As a whole, it succeeds if it is complete before there is an error. -/
  performed : (perform task subject options).Ends s
    (fun _ t => Completes d.messages ∧
      t.transport.sent = s.transport.sent ++ framed (requestOf task subject options) ∧
      t.transport.unread = (courseOf d d.messages).unreadAfter
        (courseOf d d.messages).items.length s.transport.unread)
    (fun halt t => ¬ Completes d.messages ∧
      t.transport.sent = s.transport.sent ++ framed (requestOf task subject options) ∧
      match halt with
      | .failed e => ∃ x ∈ (courseOf d d.messages).items, x.1 = .error e
      | .waiting => (courseOf d d.messages).waits = true)

/-- What becomes of a command on `s` when sending its request fails and leaves `u`. -/
structure Fails (task : Task) (subject : String) (options : Option Plist) (s : Connection)
    (e : DeviceError) (u : Connection) : Prop where
  polled : ∀ n, (withProgress task subject options (polls n)).Ends s
    (fun items t => items = (.error e :: List.replicate n (.ok none)).take n ∧
      t = if n = 0 then s else u) (fun _ _ => False)
  performed : perform task subject options s = .error (.failed e) u

theorem runs_of_send (hending : s.transport.ending = ending)
    (hunread : s.transport.unread = d.toBytes)
    (hsend : Connection.send (.dictionary (requestOf task subject options)) s = .ok () u) :
    Runs task subject options s d where
  polled n := by
    rw [ends_withProgress]
    cases n with
    | zero => exact ⟨by simp [Course.first], rfl, (List.append_nil _).symm, fun _ => Nat.zero_le _⟩
    | succ n =>
      obtain ⟨hfaces, hsame⟩ := faces_sent hending hunread hsend
      have hpolls := ends_polls (n + 1) hfaces
      rw [Call.Ends, ← polls_start n hsend, ← Call.Ends, hsame] at hpolls
      exact hpolls
  performed := by
    obtain ⟨hfaces, hsame⟩ := faces_sent hending hunread hsend
    have hfuel : (courseOf d d.messages).items.length < 2 * s.transport.unread.length + 2 + 1 := by
      have hitems := length_items_courseOf_le d d.messages
      have hmessages := Message.length_le_length_bytesOf d.messages
      rw [hunread, Delivery.toBytes, List.length_append]
      omega
    have hdrain := ends_drain _ hfaces hfuel
    rw [Call.Ends, ← drain_start _ hsend, ← Call.Ends, hsame] at hdrain
    rw [perform, ends_withProgress, Call.ends_bind, Call.ends_get, completes_iff d]
    refine hdrain.mono ?_ ?_
    · rintro _ t ⟨hwaits, hevents, hsent, hleft⟩
      exact ⟨⟨hwaits, hevents⟩, hsent, hleft⟩
    · rintro halt t ⟨hsent, hhalt⟩
      cases halt with
      | failed e =>
        obtain ⟨x, hx, herror⟩ := hhalt
        refine ⟨fun hcompletes => ?_, hsent, x, hx, herror⟩
        obtain ⟨event, hevent⟩ := hcompletes.2 x hx
        rw [hevent] at herror
        cases herror
      | waiting =>
        refine ⟨fun hcompletes => ?_, hsent, hhalt.1⟩
        exact Bool.false_ne_true (hcompletes.1.symm.trans hhalt.1)

theorem fails_of_send {e : DeviceError}
    (hsend : Connection.send (.dictionary (requestOf task subject options)) s = .error (.failed e) u) :
    Fails task subject options s e u where
  polled n := by
    rw [ends_withProgress]
    cases n with
    | zero => exact ⟨rfl, rfl⟩
    | succ n =>
      rw [Progress.start, ← requestOf, Call.Ends, polls_unsent n hsend]
      exact ⟨by simp [List.take_succ_cons, List.take_replicate], rfl⟩
  performed := by
    have hdrain (fuel : Nat) : drain (fuel + 1) ⟨s, .start task subject options⟩ =
        .error (.failed e) ⟨u, { request := none, isOver := true }⟩ := by
      rw [Progress.start, ← requestOf]
      simp only [drain, bind, EStateM.bind, next_unsent hsend]
    have hends := Call.ends_self (perform task subject options) s
    rw [perform, ends_withProgress, Call.ends_bind, Call.ends_get, Call.Ends, hdrain] at hends
    exact hends

/-- For a command on any connection, whatever a device sends: that is messages, and bytes behind
them with which receiving halts. If the request can be sent, the command gives what the messages
tell; else it gives the error with which sending failed, and nothing more. -/
theorem follows_course (task : Task) (subject : String) (options : Option Plist) (s : Connection) :
    (∃ d : Delivery s.transport.ending, s.transport.unread = d.toBytes) ∧
    ∀ d : Delivery s.transport.ending, s.transport.unread = d.toBytes →
      (Connection.send (.dictionary (requestOf task subject options))).Ends s
        (fun _ _ => Runs task subject options s d)
        (fun halt u => ∃ e, halt = .failed e ∧ Fails task subject options s e u) := by
  refine ⟨?_, fun d hunread => ?_⟩
  · obtain ⟨d, hd⟩ := Connection.exists_delivery s.transport.ending s.transport.unread
    exact ⟨d, hd.symm⟩
  · refine ((Connection.ends_send _ s).and (Call.ends_self _ s)).mono ?_ ?_
    · rintro _ u ⟨-, hsend⟩
      exact runs_of_send rfl hunread hsend
    · rintro (e | _) u ⟨hprompt, hsend⟩
      · exact ⟨e, rfl, fails_of_send hsend⟩
      · exact absurd rfl hprompt

/-- A report that half of a command is done. -/
def halfway : Message where
  body := Bytes.ofString ("<plist><dict><key>PercentComplete</key><integer>50</integer>" ++
    "</dict></plist>")
  content := [("PercentComplete", .integer { value := 50 })]
  reads := by cbv
  short := by cbv

/-- A report that all of it is. -/
def finished : Message where
  body := Bytes.ofString ("<plist><dict><key>PercentComplete</key><integer>100</integer>" ++
    "<key>Status</key><string>Complete</string></dict></plist>")
  content := [("PercentComplete", .integer { value := 100 }), ("Status", .string "Complete")]
  reads := by cbv
  short := by cbv

/-- Both reports, and one that comes too late. -/
def punctual : Delivery .closed where
  messages := [halfway, finished, halfway]
  rest := []
  halt := Connection.haltAt .closed
  left := []
  stops := Connection.stops_of_lt .closed (by decide)

/-- A connection on which these have arrived. -/
def installing : Connection :=
  { transport := { unread := punctual.toBytes }, label := "" }

/-- The request can be written there. -/
theorem send_installing :
    (Connection.send (.dictionary (requestOf .install "a.ipa" none))).Ends installing
      (fun _ _ => True) (fun _ _ => False) :=
  trivial

theorem follows_course_installing :
    (withProgress .install "a.ipa" none (polls 5)).Ends installing
      (fun items t => items = [.ok (some (.percent 50)), .ok (some (.percent 100)),
          .ok (some .complete), .ok none, .ok none] ∧
        t.transport.unread = halfway.toBytes)
      (fun _ _ => False) := by
  have hsend := (follows_course .install "a.ipa" none installing).2 punctual rfl
  have hruns : Runs .install "a.ipa" none installing punctual :=
    ((hsend.and send_installing).mono (fun _ _ h => h.1) fun _ _ h => h.2).const
  generalize installing = s at hruns ⊢
  refine (hruns.polled 5).mono ?_ ?_
  · rintro items t ⟨rfl, hunread, -⟩
    exact ⟨rfl, hunread.trans (List.append_nil _)⟩
  · rintro halt t ⟨-, -, h⟩
    exact absurd (fun hwaits => absurd hwaits Bool.false_ne_true) h

end Tether.Apps
