import Tether.Proofs.Plist.Document
import Tether.Proofs.Service.Messages
import Tether.Service.KeepAlive

/-!
# Marcos and their answers

A Marco is a message that announces an interval; every other message means an error. Its answer is a
Polo, which is written whole or, where no more can be written, cut off. One beat of a keep-alive
answers a Marco, or waits where there is less than a message, or ends the keep-alive for a cause.

* `Connection.ends_send_took`: what is written, and how it is cut off;
* `polo`: the answer, and what is read from it;
* `marco_or_error`, `ends_awaitMarco`: messages of the device;
* `marco`: each interval is announced by a Marco;
* `beat_cases`: what one beat comes to.
-/

namespace Tether

/-! ## Writing -/

namespace Connection

variable {c : Connection}

/-- A dictionary that can be written is written behind its length, or cut off. -/
theorem ends_send_took {d : Plist.Dictionary} (ho : c.isOpen)
    (hd : Plist.hasUidEntries d = false) :
    (send (.dictionary d)).Ends c
      (fun _ u => ∃ t, c.transport.Took (framed d) t ∧ u = { c with transport := t })
      (fun h u => ∃ fault t, h = .failed (.socket fault) ∧
        Transport.CutOff (framed d) fault c.transport t ∧ u = { c with transport := t }) := by
  have huid : Plist.hasUid (.dictionary d) = false := by rwa [Plist.hasUid]
  rw [send, Plist.Xml.write?, huid, if_neg (by decide), Call.ends_bind, Call.ends_ofOption_some,
    sendFramed, Call.Ends, onTransport_open _ ho, ← Call.Ends, Call.ends_zoom, Call.ends_bind]
  refine (Transport.ends_writeAll_took _ c.transport).mono ?_ ?_
  · intro _ t ht
    refine (Transport.ends_writeAll_took _ t).mono ?_ ?_
    · intro _ u hu
      exact ⟨u, ht.trans hu, rfl⟩
    · rintro _ u ⟨fault, rfl, hu⟩
      exact ⟨fault, u, rfl, ht.cutOff hu, rfl⟩
  · rintro _ t ⟨fault, rfl, ht⟩
    exact ⟨fault, t, rfl, ht.append _, rfl⟩

end Connection

/-! ## Marcos -/

namespace Plist

theorem asUnsigned?_eq_some_iff {v : Plist} {s : Nat} :
    v.asUnsigned? = some s ↔ ∃ n, v = .integer n ∧ n.value = s := by
  rcases v with _ | n | _ | _ | _ | _ | _ | _ | _ <;>
    simp only [asUnsigned?, reduceCtorEq, false_and, exists_false, Plist.integer.injEq,
      exists_eq_left']
  rw [Plist.Integer.toNat?]
  split_ifs with h
  · rw [Option.some.injEq]
    omega
  · simp only [false_iff]
    omega

end Plist

namespace Heartbeat

open Connection (Message Stops framed reportedError? receive)

/-- What the answer says. -/
def answer : Plist.Dictionary :=
  [("Command", .string "Polo")]

/-- The answer to a Marco. -/
def polo : Message where
  body := Bytes.ofString (Plist.Xml.document (.dictionary answer))
  content := answer
  reads := Plist.dictionaryOfBytes?_document (List.cons_ne_nil _ _)
    (List.forall_mem_singleton.2 (.string "Polo")) (by decide)
  short := by decide +kernel

/-- So many answers, one after the other. -/
def polos (n : Nat) : Bytes :=
  Message.bytesOf (List.replicate n polo)

theorem polos_succ (n : Nat) : polos (n + 1) = polos n ++ polo.toBytes := by
  rw [polos, List.replicate_succ', Message.bytesOf_append, Message.bytesOf_cons,
    Message.bytesOf_nil, List.append_nil]
  rfl

/-- What a message means: an announced interval, or an error. -/
def meaningOf (d : Plist.Dictionary) : Except DeviceError UInt64 :=
  match reportedError? d with
  | some e => .error e
  | none => intervalOf d

/-- A message with an interval, which is a number without a sign. A message that reports an error is
none: it is never received. -/
structure Marco extends Message where
  interval : UInt64
  announces : ∃ n, content.get? "Interval" = some (.integer n) ∧ n.value = interval.toNat
  isNoReport : reportedError? content = none

theorem intervalOf_eq_ok_iff {d : Plist.Dictionary} {i : UInt64} :
    intervalOf d = .ok i ↔ ∃ n, d.get? "Interval" = some (.integer n) ∧ n.value = i.toNat := by
  rw [intervalOf]
  rcases hv : d.get? "Interval" with - | v
  · dsimp only
    split_ifs <;> simp
  · dsimp only
    rcases hs : v.asUnsigned? with - | s
    · simp only [reduceCtorEq, Option.some.injEq, false_iff, not_exists, not_and]
      intro n hn hvalue
      have := Plist.asUnsigned?_eq_some_iff.2 ⟨n, hn, hvalue⟩
      rw [hs] at this
      contradiction
    · obtain ⟨n, rfl, hvalue⟩ := Plist.asUnsigned?_eq_some_iff.1 hs
      have := n.upper
      simp only [Except.ok.injEq, Option.some.injEq, Plist.integer.injEq, exists_eq_left', hvalue,
        ← UInt64.toNat_inj, UInt64.toNat_ofNat']
      omega

theorem meaningOf_eq_ok_iff {d : Plist.Dictionary} {i : UInt64} :
    meaningOf d = .ok i ↔ (∃ n, d.get? "Interval" = some (.integer n) ∧ n.value = i.toNat) ∧
      reportedError? d = none := by
  rw [meaningOf, ← intervalOf_eq_ok_iff]
  cases reportedError? d with
  | some e => simp
  | none => simp

/-- A message is a Marco, or it means an error. -/
theorem marco_or_error (m : Message) :
    (∃ marco : Marco, marco.toMessage = m) ∨ ∃ e, meaningOf m.content = .error e := by
  rcases hm : meaningOf m.content with e | i
  · exact .inr ⟨e, rfl⟩
  · obtain ⟨hannounces, hreport⟩ := meaningOf_eq_ok_iff.1 hm
    exact .inl ⟨⟨m, i, hannounces, hreport⟩, rfl⟩

theorem Marco.meaning (m : Marco) : meaningOf m.content = .ok m.interval :=
  meaningOf_eq_ok_iff.2 ⟨m.announces, m.isNoReport⟩

/-! ### Every interval can be announced -/

section

open Plist.Xml

/-- An interval has twenty digits at most. -/
theorem length_toString_le (i : UInt64) :
    (Bytes.ofString (toString (i.toNat : Int))).length ≤ 20 := by
  have hplain : ∀ c ∈ (toString (i.toNat : Int)).toList, c.toNat < 128 := by
    intro c hc
    obtain hdigit | rfl := Text.forall_mem_toString _ c hc
    · rw [Char.isDigit, Bool.and_eq_true, decide_eq_true_eq, decide_eq_true_eq] at hdigit
      have := UInt32.le_iff_toNat_le.1 hdigit.2
      exact lt_of_le_of_lt this (by decide)
    · decide
  have hlist : (toString (i.toNat : Int)).toList = Nat.toDigits 10 i.toNat := by
    rw [Text.toList_toString, if_pos (Int.natCast_nonneg _), Int.toNat_natCast]
  rw [← String.ofList_toList (s := toString (i.toNat : Int)), Bytes.ofString_ofList_of_lt hplain,
    List.length_map, hlist, Nat.length_toDigits_le_iff (by decide) (by decide)]
  have := i.toNat_lt
  omega

/-- What a device says. -/
def announced (i : UInt64) : Plist.Dictionary :=
  [("Command", .string "Marco"), ("Interval", .integer (.ofUInt64 i))]

/-- The document up to the interval. -/
def front : String :=
  declaration ++ "\n" ++ doctype ++ "\n" ++ "<plist version=\"1.0\">" ++
    ("\n" ++ tabs 0 ++ "<dict>") ++ ("\n" ++ tabs 1 ++ element "key" (escaped "Command")) ++
    ("\n" ++ tabs 1 ++ element "string" (escaped "Marco")) ++
    ("\n" ++ tabs 1 ++ element "key" (escaped "Interval")) ++ ("\n" ++ tabs 1 ++ "<integer>")

/-- The document behind the interval. -/
def back : String :=
  "</integer>" ++ ("\n" ++ tabs 0 ++ "</dict>") ++ "\n</plist>"

theorem ofString_announced (i : UInt64) :
    Bytes.ofString (document (.dictionary (announced i))) =
      Bytes.ofString front ++
        (Bytes.ofString (toString (i.toNat : Int)) ++ Bytes.ofString back) := by
  rw [announced, ofString_document (lines_dictionary_ne_nil (List.cons_ne_nil _ _))]
  simp only [underneath, lines, entryLines, List.cons_append, List.nil_append, List.append_nil,
    List.flatMap_cons, List.flatMap_nil, Bytes.ofString_append, List.append_assoc, element, front,
    back]
  rfl

/-- The Marco that announces an interval. -/
def marco (i : UInt64) : Marco where
  body := Bytes.ofString (document (.dictionary (announced i)))
  content := announced i
  reads := by
    refine Plist.dictionaryOfBytes?_document (List.cons_ne_nil _ _) ?_ ?_
    · simp only [announced, List.forall_mem_cons]
      exact ⟨.string _, .integer _, List.forall_mem_nil _⟩
    · have hkeys : ["Command", "Interval"].Nodup := by decide
      exact hkeys
  short := by
    -- From one interval to the next only the digits differ.
    have hdigits := length_toString_le i
    have hfront : (Bytes.ofString front).length ≤ 1000 := by decide +kernel
    have hback : (Bytes.ofString back).length ≤ 1000 := by decide +kernel
    rw [ofString_announced, List.length_append, List.length_append, Connection.maxPlistLength]
    omega
  interval := i
  announces := ⟨.ofUInt64 i, rfl, rfl⟩
  isNoReport := rfl

end

/-! ### Receiving -/

variable {c : Connection} {rest : Bytes}

theorem ends_awaitMarco {m : Message} (ho : c.isOpen)
    (h : c.transport.unread = m.toBytes ++ rest) :
    awaitMarco.Ends c
      (fun i t => meaningOf m.content = .ok i ∧ ∃ reads, t = c.left rest reads)
      (fun halt t => (∃ e, meaningOf m.content = .error e ∧ halt = .failed e) ∧
        ∃ reads, t = c.left rest reads) := by
  rw [awaitMarco, Call.ends_bind]
  refine (Connection.ends_receive ho h).mono ?_ ?_
  · rintro _ t ⟨rfl, hnone, hleft⟩
    rw [meaningOf, hnone]
    cases intervalOf m.content with
    | ok i => exact ⟨rfl, hleft⟩
    | error e => exact ⟨⟨e, rfl, rfl⟩, hleft⟩
  · rintro _ t ⟨⟨e, hsome, rfl⟩, hleft⟩
    rw [meaningOf, hsome]
    exact ⟨⟨e, rfl, rfl⟩, hleft⟩

theorem ends_awaitMarco_of_stops {bs left : Bytes} {halt : Halt DeviceError} (ho : c.isOpen)
    (hstops : Stops c.transport.ending bs halt left) (h : c.transport.unread = bs) :
    awaitMarco.Ends c (fun _ _ => False)
      (fun h t => h = halt ∧ ∃ reads, t = c.left left reads) := by
  rw [awaitMarco, Call.ends_bind]
  exact (hstops c ho rfl h).mono (fun _ _ => False.elim) fun _ _ h => h

/-! ## Beats -/

namespace KeepAlive

variable {k k' : KeepAlive} {m : Marco} {e : DeviceError} {tail : Bytes}

/-- What has arrived and belongs to no message that was dealt with. -/
def pending (k : KeepAlive) : Bytes :=
  k.partialMessage ++ k.connection.transport.unread

/-- All that was written. -/
def sent (k : KeepAlive) : Bytes :=
  k.connection.transport.sent

/-- How the stream goes on behind what has arrived. -/
def ending (k : KeepAlive) : Ending :=
  k.connection.transport.ending

/-- How many more bytes can be written, and how writing fails then. -/
def room (k : KeepAlive) : Option (Nat × Fault) :=
  k.connection.transport.allowance

/-- Nothing more can be done before more bytes arrive. -/
def IsIdle (k : KeepAlive) : Prop :=
  Stops .silent k.pending .waiting [] ∧ k.ending = .silent

/-- Why a keep-alive ends: what is pending, the error, and what of an answer was written. -/
inductive Cause (ending : Ending) (room : Option (Nat × Fault)) : Bytes → DeviceError → Bytes → Prop
  /-- A message is no Marco. -/
  | refused (m : Message) (rest : Bytes) {e : DeviceError} (h : meaningOf m.content = .error e) :
    Cause ending room (m.toBytes ++ rest) e []
  /-- No message can be read. -/
  | unread {bs left : Bytes} {e : DeviceError} (h : Stops ending bs (.failed e) left) :
    Cause ending room bs e []
  /-- A Marco cannot be answered. -/
  | unanswered (m : Marco) (rest : Bytes) {n : Nat} {fault : Fault} (hn : n < polo.toBytes.length)
    (h : room = some (n, fault)) :
    Cause ending room (m.toBytes ++ rest) (.socket fault) (polo.toBytes.take n)

/-- A Marco was answered. -/
structure Answers (m : Marco) (k k' : KeepAlive) : Prop where
  pending : k.pending = m.toBytes ++ k'.pending
  interval : k'.interval = m.interval
  beats : k'.beats = k.beats + 1
  error : k'.error = none
  sent : k'.sent = k.sent ++ polo.toBytes
  room : k.room = k'.room.map fun left => (polo.toBytes.length + left.1, left.2)
  isOpen : k'.connection.isOpen
  ending : k'.ending = k.ending

/-- What it shows and what it has written stays. -/
structure Rests (k k' : KeepAlive) : Prop where
  interval : k'.interval = k.interval
  beats : k'.beats = k.beats
  error : k'.error = k.error
  sent : k'.sent = k.sent

/-- Nothing was done but to read what there is of a message. -/
structure Waits (k k' : KeepAlive) : Prop extends Rests k k' where
  isIdle : k'.IsIdle
  pending : k'.pending = k.pending
  room : k'.room = k.room
  isOpen : k'.connection.isOpen = k.connection.isOpen

/-- It ended with this error, and this much of an answer was written. -/
structure Dies (e : DeviceError) (tail : Bytes) (k k' : KeepAlive) : Prop where
  cause : Cause k.ending k.room k.pending e tail
  interval : k'.interval = k.interval
  beats : k'.beats = k.beats
  error : k'.error = some e
  sent : k'.sent = k.sent ++ tail

/-- A Marco that has arrived is answered, or there is no room for the answer. -/
theorem beat_of_marco (ho : k.connection.isOpen) {rest : Bytes}
    (h : k.pending = m.toBytes ++ rest) :
    (Answers m k k.beat.1 ∧ k.beat.2 = true) ∨
      ∃ e tail, Dies e tail k k.beat.1 ∧ k.beat.2 = false := by
  have hmarco := ends_awaitMarco (c := k.resumed) ho h
  rw [Call.Ends] at hmarco
  rw [beat]
  rcases hc : awaitMarco k.resumed with ⟨i, t⟩ | ⟨halt, t⟩
  · rw [hc, m.meaning] at hmarco
    obtain ⟨hi, reads, rfl⟩ := hmarco
    obtain rfl : m.interval = i := by simpa using hi
    -- The Marco was received. Its answer is written whole or cut off.
    have hpolo := Connection.ends_send_took (c := k.resumed.left rest reads) (d := answer) ho rfl
    rw [Call.Ends] at hpolo
    dsimp only
    rw [sendPolo, ← answer]
    rcases hp : Connection.send (.dictionary answer) (k.resumed.left rest reads) with
      ⟨_, u⟩ | ⟨halt, u⟩
    · rw [hp] at hpolo
      obtain ⟨t, ht, rfl⟩ := hpolo
      obtain ⟨written, allowance, hwrites⟩ := ht.writes
      refine .inl ⟨⟨?_, rfl, rfl, rfl, ht.sent, ht.allowance, ho, ?_⟩, rfl⟩
      · rw [h, hwrites]
        rfl
      · rw [hwrites]
        rfl
    · rw [hp] at hpolo
      obtain ⟨fault, t, rfl, ht, rfl⟩ := hpolo
      obtain ⟨n, hn, hroom, hsent⟩ := ht.cut
      refine .inr ⟨_, _, ⟨?_, rfl, rfl, rfl, hsent⟩, rfl⟩
      rw [h]
      exact .unanswered m rest hn hroom
  · rw [hc, m.meaning] at hmarco
    obtain ⟨⟨e, he, -⟩, -⟩ := hmarco
    contradiction

/-- What is no Marco ends the keep-alive. -/
theorem beat_of_refused (ho : k.connection.isOpen) {m : Message} {rest : Bytes}
    (h : k.pending = m.toBytes ++ rest) (he : meaningOf m.content = .error e) :
    Dies e [] k k.beat.1 ∧ k.beat.2 = false := by
  have hmarco := ends_awaitMarco (c := k.resumed) ho h
  rw [Call.Ends] at hmarco
  rw [beat]
  rcases hc : awaitMarco k.resumed with ⟨i, t⟩ | ⟨halt, t⟩
  · rw [hc] at hmarco
    rw [he] at hmarco
    exact absurd hmarco.1 (by simp)
  · rw [hc] at hmarco
    obtain ⟨⟨e', he', rfl⟩, reads, rfl⟩ := hmarco
    obtain rfl : e = e' := by simpa [he] using he'
    refine ⟨⟨?_, rfl, rfl, rfl, (List.append_nil _).symm⟩, rfl⟩
    rw [h]
    exact .refused m rest he

/-- Where there is no message, it waits or fails. -/
theorem beat_of_stops (ho : k.connection.isOpen) {halt : Halt DeviceError} {left : Bytes}
    (h : Stops k.ending k.pending halt left)
    (hwaiting : halt = .waiting → k.ending = .silent ∧ left = []) :
    (Waits k k.beat.1 ∨ ∃ e, Dies e [] k k.beat.1) ∧ k.beat.2 = false := by
  have hmarco := ends_awaitMarco_of_stops (c := k.resumed) ho h rfl
  rw [Call.Ends] at hmarco
  rw [beat]
  rcases hc : awaitMarco k.resumed with ⟨i, t⟩ | ⟨halt', t⟩
  · rw [hc] at hmarco
    exact hmarco.elim
  · rw [hc] at hmarco
    obtain ⟨rfl, reads, rfl⟩ := hmarco
    rcases halt' with e | -
    · exact ⟨.inr ⟨e, .unread h, rfl, rfl, rfl, (List.append_nil _).symm⟩, rfl⟩
    · -- All that was read is kept, so what is pending stays the same.
      obtain ⟨hsilent, rfl⟩ := hwaiting rfl
      rw [hsilent] at h
      have hidle : Stops .silent (k.pending ++ []) .waiting [] := by rwa [List.append_nil]
      have hrests : Rests k { k with
          connection := k.resumed.left [] reads
          partialMessage := k.pending } := ⟨rfl, rfl, rfl, rfl⟩
      exact ⟨.inl ⟨hrests, ⟨hidle, hsilent⟩, List.append_nil _, rfl, rfl⟩, rfl⟩

/-- What one beat comes to. -/
theorem beat_cases (ho : k.connection.isOpen) :
    ((∃ m, Answers m k k.beat.1) ∧ k.beat.2 = true) ∨
      ((Waits k k.beat.1 ∨ ∃ e tail, Dies e tail k k.beat.1) ∧ k.beat.2 = false) := by
  obtain ⟨m, rest, hm⟩ | ⟨halt, left, hstops, hwaiting⟩ :=
    Connection.message_or_stops k.ending k.pending
  · obtain ⟨m, rfl⟩ | ⟨e, he⟩ := marco_or_error m
    · obtain ⟨hanswers, hgoes⟩ | ⟨e, tail, hdies, hstays⟩ := beat_of_marco ho hm
      · exact .inl ⟨⟨m, hanswers⟩, hgoes⟩
      · exact .inr ⟨.inr ⟨e, tail, hdies⟩, hstays⟩
    · obtain ⟨hdies, hstays⟩ := beat_of_refused ho hm he
      exact .inr ⟨.inr ⟨e, [], hdies⟩, hstays⟩
  · obtain ⟨hwaits | ⟨e, hdies⟩, hstays⟩ := beat_of_stops ho hstops hwaiting
    · exact .inr ⟨.inl hwaits, hstays⟩
    · exact .inr ⟨.inr ⟨e, [], hdies⟩, hstays⟩

end KeepAlive

end Heartbeat

end Tether
