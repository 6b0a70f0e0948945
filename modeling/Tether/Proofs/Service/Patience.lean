import Tether.Proofs.Service.Beats

/-!
# How long a keep-alive waits

A keep-alive that has answered some Marcos and not ended waits for the next one: as long as the last
of them announced, and five seconds more. The seconds are counted in 64 bits, so that the longest
intervals come to no more than four seconds. The time starts with the arrival that brought the last
of the Marcos.

* `Arrived`: the arrivals up to the last of some Marcos;
* `waited_since_answer`: how long a keep-alive has been waiting;
* `waits_for_interval`: how long it is going to;
* `gives_up_early`: a keep-alive that gives up at once.
-/

namespace Tether

namespace Connection

/-- Where a message has arrived, receiving does not wait. -/
theorem not_stops_waiting (ending : Ending) (m : Message) (rest left : Bytes) :
    ¬ Stops ending (m.toBytes ++ rest) .waiting left := by
  intro hstops
  let c : Connection := { transport := { unread := m.toBytes ++ rest, ending }, label := "" }
  have ho : c.isOpen := rfl
  have hunread : c.transport.unread = m.toBytes ++ rest := rfl
  have hmessage := ends_receive ho hunread
  refine ((hmessage.and (hstops c rfl rfl rfl)).mono (fun _ _ h => h.2) ?_).const
  rintro halt t ⟨⟨⟨e, -, rfl⟩, -⟩, hhalt, -⟩
  exact Halt.failed_ne_waiting e hhalt

end Connection

namespace Heartbeat.Watch

open KeepAlive
open Connection (Message Stops)

variable {c : Connection} {w : Watch} {a : Arrival} {as : List Arrival}

/-- These are the arrivals up to the one that brought the last byte of the last of these Marcos. -/
structure Arrived (as : List Arrival) (answered : List Marco) : Prop where
  whole : (bytesOf answered).length ≤ (streamOf as).length
  just : ∀ earlier a, as = earlier ++ [a] → (streamOf earlier).length < (bytesOf answered).length

theorem bytesOf_append (ms ms' : List Marco) : bytesOf (ms ++ ms') = bytesOf ms ++ bytesOf ms' := by
  rw [bytesOf, List.map_append, Message.bytesOf_append]
  rfl

/-- The Marcos that arrive later do not end before that. -/
theorem length_lt_of_idle {k : KeepAlive} (h : k.IsIdle) {more : List Marco} (hne : more ≠ [])
    {bs rest : Bytes} (heq : k.pending ++ bs = bytesOf more ++ rest) :
    k.pending.length < (bytesOf more).length := by
  obtain ⟨m, more, rfl⟩ := List.exists_cons_of_ne_nil hne
  by_contra hle
  -- Else the first of them would have arrived whole, and there would be nothing to wait for.
  have hfront : m.toBytes <+: k.pending := by
    have harrives : m.toBytes <+: k.pending ++ bs := by
      rw [heq]
      exact ⟨bytesOf more ++ rest, (List.append_assoc _ _ _).symm⟩
    refine List.prefix_of_prefix_length_le harrives (List.prefix_append _ _) ?_
    rw [bytesOf, List.map_cons, Message.bytesOf_cons, List.length_append] at hle
    omega
  obtain ⟨rest, hpending⟩ := hfront
  have hstops := h.1
  rw [← hpending] at hstops
  exact Connection.not_stops_waiting .silent m.toMessage rest [] hstops

theorem not_isAlive_hear_of_late (h : ¬ w.waited + a.delay < w.limit) :
    ¬ (w.hear a).keepAlive.isAlive := by
  have hlate : (w.pass a.delay).keepAlive = w.keepAlive.expire := if_neg h
  have hexpired : ¬ (w.pass a.delay).keepAlive.isAlive := by
    rw [hlate, isAlive_iff, expire]
    split_ifs with halive
    · exact Option.some_ne_none _
    · rwa [← isAlive_iff]
  rwa [hear_of_ended hexpired, isAlive_deliver]

/-- A keep-alive that is at work was so before, and heard in time. -/
theorem isAlive_of_hear (h : (w.hear a).keepAlive.isAlive) :
    w.keepAlive.isAlive ∧ w.waited + a.delay < w.limit := by
  constructor
  · by_contra hdead
    rw [isAlive_iff, (rests_hear hdead a).error, ← isAlive_iff] at h
    exact hdead h
  · by_contra hlate
    exact not_isAlive_hear_of_late hlate h

/-- A keep-alive at work is idle, and has been waiting since it answered. -/
theorem waited_since_answer (hc : IsFresh c) (halive : ((start c).hearAll as).keepAlive.isAlive) :
    ∃ answered before after, as = before ++ after ∧ Arrived before answered ∧
      Underway c (streamOf as) answered ((start c).hearAll as).keepAlive ∧
      ((start c).hearAll as).keepAlive.IsIdle ∧
      ((start c).hearAll as).waited = (after.map Arrival.delay).sum := by
  induction as using List.reverseRecOn with
  | nil =>
    obtain ⟨hunderway, hidle⟩ := underway_start hc
    refine ⟨[], [], [], rfl, ⟨Nat.le_refl _, ?_⟩, hunderway, hidle, rfl⟩
    intro earlier a h
    simp at h
  | append_singleton as a ih =>
    rw [hearAll_append, hearAll_singleton] at halive ⊢
    obtain ⟨hbefore, htime⟩ := isAlive_of_hear halive
    obtain ⟨answered, before, after, rfl, harrived, hunderway, hidle, hwaited⟩ := ih hbefore
    obtain ⟨more, htimer, ⟨hmore, hidle'⟩ | ⟨e, tail, hover⟩⟩ := hear_of_underway hunderway htime
    · rw [← streamOf_append_singleton] at hmore
      by_cases hnone : more = []
      · -- No Marco has come to its end, and the waiting goes on.
        subst hnone
        refine ⟨answered, before, after ++ [a], by simp, harrived, by simpa using hmore, hidle', ?_⟩
        rw [htimer, if_pos rfl, hwaited, List.map_append, List.sum_append]
        rfl
      · -- The waiting starts anew. The last Marco was not whole before, or it had its answer.
        refine ⟨answered ++ more, before ++ after ++ [a], [], by simp, ⟨?_, ?_⟩, hmore, hidle', ?_⟩
        · rw [hmore.stream, List.length_append]
          omega
        · intro earlier b h
          obtain ⟨rfl, -⟩ := List.append_inj' h rfl
          have hrest : ((start c).hearAll (before ++ after)).keepAlive.pending ++ a.bytes =
              bytesOf more ++ (((start c).hearAll (before ++ after)).hear a).keepAlive.pending := by
            have hstream := hmore.stream
            rw [streamOf_append_singleton, hunderway.stream, bytesOf_append, List.append_assoc,
              List.append_assoc] at hstream
            exact List.append_cancel_left hstream
          have hlonger := length_lt_of_idle hidle hnone hrest
          rw [hunderway.stream, bytesOf_append, List.length_append, List.length_append]
          omega
        · rw [htimer, if_neg hnone]
          rfl
    · rw [isAlive_iff, hover.error] at halive
      exact absurd halive (Option.some_ne_none e)

/-- The seconds for which a keep-alive waits where this interval was announced. -/
def patience (interval : UInt64) : Nat :=
  if interval.toNat + 5 < 2 ^ 64 then interval.toNat + 5 else interval.toNat + 5 - 2 ^ 64

theorem limit_eq (w : Watch) : w.limit = patience w.keepAlive.interval * 10 ^ 9 := by
  have hlt := w.keepAlive.interval.toNat_lt
  -- The sum of two numbers of 64 bits wraps around once at most.
  rw [limit, timeLimit, UInt64.toNat_add, show grace.toNat = 5 from rfl, patience]
  split_ifs with h
  · rw [Nat.mod_eq_of_lt h]
  · rw [Nat.mod_eq_sub_mod (Nat.le_of_not_lt h), Nat.mod_eq_of_lt (by omega)]

theorem error_pass (w : Watch) (h : w.keepAlive.isAlive) (d : Nat) :
    (w.pass d).keepAlive.error =
      if w.waited + d < w.limit then none else some .heartbeatTimeout := by
  rw [pass]
  split_ifs with htime
  · exact isAlive_iff.1 h
  · rw [expire, if_pos h]
    rfl

/-- A keep-alive at work has answered some Marcos, and since the last of them has arrived it waits
for the next one: as long as that Marco announced, and five seconds more, counted in 64 bits. Then
it gives up. -/
theorem waits_for_interval (hc : IsFresh c) (halive : ((start c).hearAll as).keepAlive.isAlive) :
    ∃ answered before after rest, as = before ++ after ∧ Arrived before answered ∧
      streamOf as = bytesOf answered ++ rest ∧ Stops .silent rest .waiting [] ∧
      ∀ d, (((start c).hearAll as).pass d).keepAlive.error =
        if (after.map Arrival.delay).sum + d < patience (lastInterval answered) * 10 ^ 9 then none
        else some .heartbeatTimeout := by
  obtain ⟨answered, before, after, has, harrived, hunderway, hidle, hwaited⟩ :=
    waited_since_answer hc halive
  refine ⟨answered, before, after, _, has, harrived, hunderway.stream, hidle.1, fun d => ?_⟩
  rw [error_pass _ halive, limit_eq, hwaited, hunderway.tally.interval]

/-- A connection on which all can be written. -/
def wide : Connection where
  transport := { unread := [], ending := .silent }
  label := "host"

/-- A Marco, and later the first bytes of another one. -/
def marcoAndPart : List Arrival :=
  [{ delay := 10 ^ 9, bytes := (marco 60).toBytes },
    { delay := 64 * 10 ^ 9, bytes := (marco 60).toBytes.take 7 }]

theorem waits_behind_marcoAndPart :
    IsFresh wide ∧ ((start wide).hearAll marcoAndPart).keepAlive.isAlive ∧
      ∃ answered before after rest, marcoAndPart = before ++ after ∧ Arrived before answered ∧
        streamOf marcoAndPart = bytesOf answered ++ rest ∧ Stops .silent rest .waiting [] ∧
        ∀ d, (((start wide).hearAll marcoAndPart).pass d).keepAlive.error =
          if (after.map Arrival.delay).sum + d < patience (lastInterval answered) * 10 ^ 9 then none
          else some .heartbeatTimeout := by
  have hfresh : IsFresh wide := ⟨rfl, rfl, rfl⟩
  have halive : ((start wide).hearAll marcoAndPart).keepAlive.isAlive := by decide +kernel
  exact ⟨hfresh, halive, waits_for_interval hfresh halive⟩

/-- Where the longest interval was announced, the keep-alive gives up after four seconds. -/
theorem gives_up_early :
    let w := (start wide).hearAll [{ delay := 0, bytes := (marco (2 ^ 64 - 1)).toBytes }]
    w.keepAlive.isAlive ∧ w.keepAlive.interval.toNat = 2 ^ 64 - 1 ∧ w.waited = 0 ∧
      4 * 10 ^ 9 < (w.keepAlive.interval.toNat + 5) * 10 ^ 9 ∧
      (w.pass (4 * 10 ^ 9)).keepAlive.error = some .heartbeatTimeout := by
  decide +kernel

end Heartbeat.Watch

end Tether
