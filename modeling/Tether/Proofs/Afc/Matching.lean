import Tether.Proofs.Afc.Calls

/-!
# Which reply a request gets

A client takes the packets of the device in their order, one for each request, and compares
nothing in them with the request. So the order decides: a request gets the packet at the place
where the client is in what the device sends. It is the reply to the request if the device
answers each packet in turn and the client has taken as many packets as it has sent. A call that
is given up while it waits leaves its reply to the next one, and each call behind it gets a reply
to an earlier request.

* `Client.standing_run`: how many packets were sent and how many were taken, along a run;
* `Client.answered_in_order`: the replies to the requests of a call that succeeds;
* `Client.not_answered_by_own`: behind a call that was given up they are not its own.
-/

namespace Tether.Afc

open Packet (bytesOf)

/-- A string of packets that is another one and a part of a packet is the other one. -/
theorem Packet.eq_of_cut {ps qs : List Packet} {part : Bytes} (hps : ∀ p ∈ ps, p.IsReply)
    (hqs : ∀ q ∈ qs, q.IsReply) (hcut : Cut part) (h : bytesOf ps = bytesOf qs ++ part) :
    ps = qs ∧ part = [] := by
  induction qs generalizing ps with
  | nil =>
    cases ps with
    | nil => exact ⟨rfl, by simpa using h.symm⟩
    | cons p ps =>
      rw [bytesOf_nil, List.nil_append, bytesOf_cons] at h
      exact absurd (h ▸ hcut) (not_cut_toBytes (hps p List.mem_cons_self))
  | cons q qs ih =>
    cases ps with
    | nil =>
      simp only [bytesOf_nil, bytesOf_cons, List.append_assoc, List.nil_eq_append_iff] at h
      exact absurd h.1 q.toBytes_ne_nil
    | cons p ps =>
      rw [bytesOf_cons, bytesOf_cons, List.append_assoc] at h
      obtain ⟨rfl, hrest⟩ := toBytes_append_inj (hps p List.mem_cons_self).toFits
        (hqs q List.mem_cons_self).toFits h
      obtain ⟨rfl, hpart⟩ := ih (fun x hx => hps x (List.mem_cons_of_mem _ hx))
        (fun x hx => hqs x (List.mem_cons_of_mem _ hx)) hrest
      exact ⟨rfl, hpart⟩

namespace Client

/-- What happens to a client. A call that waits is given up. -/
inductive Act where
  /-- More bytes arrive. -/
  | hear (bs : Bytes)
  | call (c : Command)
  /-- A packet is sent by hand. -/
  | send (p : Packet)
  /-- A packet is received by hand. -/
  | receive

namespace Act

/-- The client afterwards. -/
def play (s : Client) : Act → Client
  | hear bs => s.hear bs
  | call c => c.call.state s
  | send p => (Client.send p).state s
  | receive => Client.receive.state s

/-- The bytes that arrive. -/
def heard : Act → Bytes
  | hear bs => bs
  | _ => []

/-- How many packets more are sent than taken. -/
def owes (s : Client) : Act → ℤ
  | hear _ => 0
  | call c => if lost (c.call.result s) then 1 else 0
  | send p => if lost ((Client.send p).result s) then 0 else 1
  | receive => if lost (Client.receive.result s) then 0 else -1

end Act

/-- A client after a run. -/
def run (s : Client) (acts : List Act) : Client :=
  acts.foldl Act.play s

/-- How many packets more were sent than taken. -/
def owed : Client → List Act → ℤ
  | _, [] => 0
  | s, a :: acts => a.owes s + owed (a.play s) acts

/-- From `s` to `t` whole packets were read. -/
def Whole (s t : Client) : Prop :=
  ∃ ps : List Packet, (∀ p ∈ ps, p.IsReply) ∧ s.unread = bytesOf ps ++ t.unread

/-- No call is given up in the middle of a packet. -/
def Unbroken : Client → List Act → Prop
  | _, [] => True
  | s, a :: acts => ((∀ bs, a ≠ .hear bs) → Whole s (a.play s)) ∧ Unbroken (a.play s) acts

/-- The numbers of packets. -/
def numbers (ps : List Packet) : List UInt64 :=
  ps.map (·.header.number)

/-- Each packet of the device has the number of the packet of the client at the same place. -/
def InStep (qs rs : List Packet) : Prop :=
  ∀ (i : ℕ) (hq : i < qs.length) (hr : i < rs.length),
    rs[i].header.number = qs[i].header.number

/-! ### The place in what the device sends -/

/-- Of the packets `rs` the client has taken as many as it has sent, less `d`. What has arrived so
far is `arrived`, and what was sent before is `base`. -/
structure Standing (rs : List Packet) (base arrived : Bytes) (d : ℤ) (w : Client) (k : ℕ) :
    Prop where
  arrived : arrived = bytesOf (rs.take k) ++ w.unread
  sent : w.CanSend → ∃ qs : List Packet, w.sent = base ++ bytesOf qs ∧ (qs.length : ℤ) = k + d

variable {rs : List Packet} {base arrived : Bytes} {d : ℤ} {k : ℕ} {s t w : Client}
  {asks : List Ask} {replies : List Packet}

theorem Standing.start (rs : List Packet) (s : Client) : Standing rs s.sent s.unread 0 s 0 where
  arrived := by simp
  sent _ := ⟨[], by simp, by simp⟩

/-- What has arrived and was not read is what comes next. -/
theorem Standing.unread_prefix (h : Standing rs base arrived d w k)
    (harrived : arrived <+: bytesOf rs) : w.unread <+: bytesOf (rs.drop k) := by
  rw [h.arrived] at harrived
  have hsplit : bytesOf rs = bytesOf (rs.take k) ++ bytesOf (rs.drop k) := by
    rw [← Packet.bytesOf_append, List.take_append_drop]
  rw [hsplit] at harrived
  exact (List.prefix_append_right_inj _).1 harrived

/-- The packets that are taken are those that come next. -/
theorem Standing.replies_eq (h : Standing rs base arrived d w k) (hrs : ∀ p ∈ rs, p.IsReply)
    (harrived : arrived <+: bytesOf rs) (hx : Exchanged asks replies w t) :
    replies = (rs.drop k).take asks.length := by
  obtain ⟨rest, hrest, -⟩ := hx.eq_append (fun p hp => hrs p (List.mem_of_mem_drop hp))
    (h.unread_prefix harrived)
  rw [hrest, ← hx.length, List.take_left]

/-- Packets were taken from the place where the client was. -/
theorem Standing.take {w' : Client} (h : Standing rs base arrived d w k)
    (hrs : ∀ p ∈ rs, p.IsReply) (harrived : arrived <+: bytesOf rs) {ps : List Packet}
    (hps : ∀ p ∈ ps, p.IsReply) (htaken : w.unread = bytesOf ps ++ w'.unread) :
    arrived = bytesOf (rs.take (k + ps.length)) ++ w'.unread := by
  have hnext := h.unread_prefix harrived
  rw [htaken] at hnext
  obtain ⟨rest, hrest⟩ := Packet.prefix_of_bytesOf_prefix (fun p hp => (hps p hp).toFits)
    (fun p hp => (hrs p (List.mem_of_mem_drop hp)).toFits) ((List.prefix_append _ _).trans hnext)
  rw [h.arrived, htaken, List.take_add, ← hrest, List.take_left, Packet.bytesOf_append,
    List.append_assoc]

theorem Standing.exchanged (h : Standing rs base arrived d w k) (hrs : ∀ p ∈ rs, p.IsReply)
    (harrived : arrived <+: bytesOf rs) (hx : Exchanged asks replies w t) :
    Standing rs base arrived d t (k + replies.length) where
  arrived := h.take hrs harrived hx.isReply hx.taken
  sent ht := by
    obtain ⟨qs, hsent, hlength⟩ := h.sent (hx.canSend ht)
    refine ⟨qs ++ Ask.numbered w.nextNumber asks, by rw [hx.sent, hsent]; simp, ?_⟩
    simp only [List.length_append, Ask.length_numbered, hx.length]
    omega

theorem Standing.givenUp (h : Standing rs base arrived d w k) (hrs : ∀ p ∈ rs, p.IsReply)
    (harrived : arrived <+: bytesOf rs) (hx : GivenUp replies w t) (hwhole : Whole w t) :
    Standing rs base arrived (d + 1) t (k + replies.length) where
  arrived := by
    obtain ⟨part, hcut, htaken⟩ := hx.taken
    obtain ⟨ps, hps, htaken'⟩ := hwhole
    -- The part of a packet that was read is none: whole packets were.
    rw [htaken, ← List.append_assoc] at htaken'
    obtain ⟨rfl, rfl⟩ :=
      Packet.eq_of_cut hps hx.isReply hcut (List.append_cancel_right htaken').symm
    exact h.take hrs harrived hx.isReply (by simpa using htaken)
  sent ht := by
    obtain ⟨qs, hsent, hlength⟩ := h.sent (hx.canSend ht)
    obtain ⟨more, hmore, hsent'⟩ := hx.sent ht
    refine ⟨qs ++ Ask.numbered w.nextNumber more, by rw [hsent', hsent]; simp, ?_⟩
    simp only [List.length_append, Ask.length_numbered, hmore]
    omega

/-- Where the connection is gone nothing is received. -/
theorem ends_receive_gone (ho : ¬ s.connection.isOpen) :
    Client.receive.Ends s (fun _ _ => False) (fun h t => Connection.isLost h ∧ t = s) := by
  rw [Client.receive, Call.ends_bind, onConnection, Call.ends_zoom, Packet.receive,
    Call.ends_bind, Connection.readRaw, Call.Ends,
    Connection.onTransport_lost _ (by simpa using ho)]
  exact ⟨rfl, rfl⟩

theorem Standing.call (h : Standing rs base arrived d w k) (hrs : ∀ p ∈ rs, p.IsReply)
    (harrived : arrived <+: bytesOf rs) {c : Command} (hwhole : Whole w (c.call.state w)) :
    ∃ k', Standing rs base arrived (d + (Act.call c).owes w) (c.call.state w) k' := by
  have hdrop : ∀ p ∈ rs.drop k, p.IsReply := fun p hp => hrs p (List.mem_of_mem_drop hp)
  rw [Act.owes]
  cases (c.talks w).outcome hdrop (h.unread_prefix harrived) with
  | exchanged hr hx =>
    rw [if_neg (by simp [hr]), add_zero]
    exact ⟨_, h.exchanged hrs harrived hx⟩
  | givenUp hr hx =>
    rw [if_pos hr]
    exact ⟨_, h.givenUp hrs harrived hx hwhole⟩

theorem Standing.send (h : Standing rs base arrived d w k) (p : Packet) :
    Standing rs base arrived (d + (Act.send p).owes w) ((Client.send p).state w) k := by
  refine Call.Ends.of_result
    (P := fun r t => Standing rs base arrived (d + if lost r then 0 else 1) t k)
    ((ends_send p w).mono ?_ ?_)
  · rintro _ t ⟨hable, hsent, hstill⟩
    refine ⟨h.arrived.trans (by rw [hstill.unread]), fun _ => ?_⟩
    obtain ⟨qs, hqs, hlength⟩ := h.sent hable
    refine ⟨qs ++ [p], by rw [hsent, hqs]; simp, ?_⟩
    simp only [List.length_append, List.length_singleton, lost, Bool.false_eq_true, if_false]
    omega
  · rintro halt t ⟨hunable, hlost, hstill⟩
    exact ⟨h.arrived.trans (by rw [hstill.unread]), fun ht => absurd ht hunable⟩

theorem Standing.receive (h : Standing rs base arrived d w k) (hrs : ∀ p ∈ rs, p.IsReply)
    (harrived : arrived <+: bytesOf rs) (hwhole : Whole w (Client.receive.state w)) :
    ∃ k', Standing rs base arrived (d + Act.receive.owes w) (Client.receive.state w) k' := by
  have hdrop : ∀ p ∈ rs.drop k, p.IsReply := fun p hp => hrs p (List.mem_of_mem_drop hp)
  -- One packet more is taken, and none is sent.
  have htook (p : Packet) (rest : Bytes) (reads : ℕ) (hp : p.IsReply)
      (hs : w.unread = p.toBytes ++ rest) :
      Standing rs base arrived (d + -1) (w.left rest reads) (k + 1) :=
    ⟨h.take hrs harrived (by simpa using hp : ∀ x ∈ [p], x.IsReply) (by simpa using hs), fun hable => by
      obtain ⟨qs, hqs, hlength⟩ := h.sent hable
      exact ⟨qs, hqs, by omega⟩⟩
  refine Call.Ends.of_result (P := fun r t => Whole w t →
    ∃ k', Standing rs base arrived (d + if lost r then 0 else -1) t k') ?_ hwhole
  by_cases ho : w.connection.isOpen
  · refine (ends_receive ho (Packet.arriving_of_prefix hdrop (h.unread_prefix harrived))).mono ?_ ?_
    · rintro p _ ⟨hp, -, rest, reads, hs, rfl⟩ -
      exact ⟨_, htook p rest reads hp hs⟩
    · rintro halt _ (⟨p, e, rest, reads, hp, hf, rfl, hs, rfl⟩ | ⟨hcut, hlost, reads, rfl⟩)
      · intro _
        have hr : lost (.error (.failed e) : Except (Halt DeviceError) Packet) = false :=
          settled_failureOf p e hf
        rw [hr]
        exact ⟨_, htook p rest reads hp hs⟩
      · rintro ⟨ps, hps, htaken⟩
        -- Nothing had arrived, or else a part of a packet was read.
        have heq : bytesOf ps = bytesOf [] ++ w.unread := by simpa using htaken.symm
        obtain ⟨rfl, hnil⟩ := Packet.eq_of_cut hps (by simp) hcut heq
        have hr : lost (.error halt : Except (Halt DeviceError) Packet) = true := hlost
        rw [hr]
        exact ⟨k, ⟨h.arrived.trans (by rw [hnil]; simp), by simpa using h.sent⟩⟩
  · refine (ends_receive_gone ho).mono (fun _ _ h => h.elim) ?_
    rintro halt _ ⟨hlost, rfl⟩ -
    have hr : lost (.error halt : Except (Halt DeviceError) Packet) = true := hlost
    rw [hr]
    exact ⟨k, by simpa using h⟩

/-- One act more. -/
theorem Standing.step (h : Standing rs base arrived d w k) (hrs : ∀ p ∈ rs, p.IsReply) (a : Act)
    (harrived : arrived ++ a.heard <+: bytesOf rs)
    (hwhole : (∀ bs, a ≠ .hear bs) → Whole w (a.play w)) :
    ∃ k', Standing rs base (arrived ++ a.heard) (d + a.owes w) (a.play w) k' := by
  cases a with
  | hear bs => exact ⟨k, by rw [h.arrived]; simp [Act.heard, Act.play],
      by simpa [Act.owes, Act.play] using h.sent⟩
  | call c =>
    simp only [Act.heard, List.append_nil] at harrived ⊢
    exact h.call hrs harrived (hwhole nofun)
  | send p =>
    simp only [Act.heard, List.append_nil] at harrived ⊢
    exact ⟨k, h.send p⟩
  | receive =>
    simp only [Act.heard, List.append_nil] at harrived ⊢
    exact h.receive hrs harrived (hwhole nofun)

/-- A run keeps count of the packets. -/
theorem standing_run (h : Standing rs base arrived d w k) (hrs : ∀ p ∈ rs, p.IsReply)
    {acts : List Act} (harrived : arrived ++ acts.flatMap Act.heard <+: bytesOf rs)
    (hwhole : Unbroken w acts) :
    ∃ k', Standing rs base (arrived ++ acts.flatMap Act.heard) (d + owed w acts) (w.run acts)
      k' := by
  induction acts generalizing w arrived d k with
  | nil => exact ⟨k, by simpa [owed, run] using h⟩
  | cons a acts ih =>
    rw [List.flatMap_cons, ← List.append_assoc] at harrived ⊢
    obtain ⟨k', h'⟩ := h.step hrs a ((List.prefix_append _ _).trans harrived) hwhole.1
    obtain ⟨k'', h''⟩ := ih h' harrived hwhole.2
    exact ⟨k'', by rw [owed, ← add_assoc]; exact h''⟩

/-- The packets at some place have the numbers of those of the client at the same place. -/
theorem InStep.numbers_eq {qs : List Packet} {n : ℕ} (h : InStep qs rs)
    (hlength : ((rs.drop k).take n).length = n) (hle : k + n ≤ qs.length) :
    numbers ((rs.drop k).take n) = numbers ((qs.drop k).take n) := by
  rw [List.length_take, List.length_drop] at hlength
  refine List.ext_getElem (by simp [numbers]; omega) fun i hi _ => ?_
  simp only [numbers, List.length_map, List.length_take, List.length_drop] at hi
  simp only [numbers, List.getElem_map, List.getElem_take, List.getElem_drop]
  exact h (k + i) (by omega) (by omega)

/-- What the requests of a call get, when the packets `qs` were sent before and `k` packets were
taken: the packets that come next. If the device answers each packet in turn, with its number,
they are the replies to packets that were sent as many places before as replies are owed, and
where none is they are the replies to these requests. -/
structure Placed (rs qs requests replies : List Packet) (k : ℕ) (owed : ℤ) : Prop where
  length : (qs.length : ℤ) = k + owed
  replies_eq : replies = (rs.drop k).take requests.length
  earlier : InStep (qs ++ requests) rs → 0 ≤ owed →
    numbers replies = numbers (((qs ++ requests).drop k).take requests.length)
  own : InStep (qs ++ requests) rs → owed = 0 → numbers replies = numbers requests

theorem placed_of_length {qs requests : List Packet} (hlength : (qs.length : ℤ) = k + d)
    (hreplies : replies = (rs.drop k).take requests.length)
    (hcount : replies.length = requests.length) : Placed rs qs requests replies k d where
  length := hlength
  replies_eq := hreplies
  earlier hstep howed := by
    rw [hreplies] at hcount ⊢
    exact hstep.numbers_eq hcount (by simp; omega)
  own hstep howed := by
    -- Nothing is owed, so the client is at the place of these requests.
    have hk : k = qs.length := by omega
    rw [hreplies] at hcount ⊢
    rw [hstep.numbers_eq hcount (by simp; omega), hk, List.drop_left, List.take_length]

/-- The names in a directory, as the reply to the request with a number. -/
def names (number : UInt64) (text : String) : Packet :=
  .make .data number [] (Bytes.ofString text)

/-- The replies to two requests arrive, and the first request is made. -/
def prompt : List Act :=
  [.hear ((names 0 "one").toBytes ++ (names 1 "two").toBytes), .call (.listDirectory "/a")]

/-- A request is given up before its reply arrives. -/
def belated : List Act :=
  [.call (.listDirectory "/a"), .hear ((names 0 "late").toBytes ++ (names 1 "own").toBytes)]

/-- A call that succeeds takes for its requests the packets that come next, whatever calls came
before it and were given up. -/
theorem answered_in_order (hrs : ∀ p ∈ rs, p.IsReply) {before : List Act}
    (harrived : s.unread ++ before.flatMap Act.heard <+: bytesOf rs) (hwhole : Unbroken s before)
    (c : Command) (hok : c.call.result (s.run before) = .ok ()) :
    ∃ asks replies, Exchanged asks replies (s.run before) (c.call.state (s.run before)) ∧
      (asks ≠ [] → ∃ qs k, (s.run before).sent = s.sent ++ bytesOf qs ∧
        Placed rs qs (Ask.numbered (s.run before).nextNumber asks) replies k (s.owed before)) := by
  obtain ⟨k, hstanding⟩ := standing_run (Standing.start rs s) hrs harrived hwhole
  rw [zero_add] at hstanding
  have hdrop : ∀ p ∈ rs.drop k, p.IsReply := fun p hp => hrs p (List.mem_of_mem_drop hp)
  obtain ⟨-, hx⟩ | ⟨hlost, -⟩ := (c.talks _).outcome hdrop (hstanding.unread_prefix harrived)
  · refine ⟨_, _, hx, fun hasks => ?_⟩
    obtain ⟨qs, hqs, hlength⟩ := hstanding.sent (hx.wasAble hasks)
    exact ⟨qs, k, hqs, placed_of_length hlength
      (by simpa using hstanding.replies_eq hrs harrived hx) (by simpa using hx.length)⟩
  · rw [hok] at hlost
    cases hlost

theorem answered_in_order_prompt :
    ∃ asks replies,
      Exchanged asks replies (quiet.run prompt)
        ((Command.listDirectory "/b").call.state (quiet.run prompt)) ∧
      (asks ≠ [] → ∃ qs k, (quiet.run prompt).sent = quiet.sent ++ bytesOf qs ∧
        Placed [names 0 "one", names 1 "two"] qs
          (Ask.numbered (quiet.run prompt).nextNumber asks) replies k (quiet.owed prompt)) := by
  have hreply : ∀ p ∈ [names 0 "one", names 1 "two"], p.IsReply := by
    simp only [List.mem_cons, List.not_mem_nil, or_false, forall_eq_or_imp, forall_eq]
    exact ⟨Packet.isReply_make (by decide +kernel), Packet.isReply_make (by decide +kernel)⟩
  have hwhole : Unbroken quiet prompt :=
    ⟨fun h => absurd rfl (h _), fun _ => ⟨[names 0 "one"], by simpa using hreply _ (by simp), by cbv⟩,
      trivial⟩
  exact answered_in_order hreply ⟨[], by cbv⟩ hwhole (.listDirectory "/b") (by cbv)

/-- Behind a call that was given up, a call returns the names that its reply has, which comes
late: it is answered by a reply to another request. -/
theorem not_answered_by_own :
    (listDirectory "/b").result (quiet.run belated) = .ok ["late"] ∧
      ¬ ∃ asks replies,
        Exchanged asks replies (quiet.run belated)
          ((listDirectory "/b").state (quiet.run belated)) ∧
        numbers replies = numbers (Ask.numbered (quiet.run belated).nextNumber asks) := by
  refine ⟨by cbv, ?_⟩
  rintro ⟨asks, replies, hx, hnumbers⟩
  have htaken : bytesOf replies = bytesOf [names 0 "late"] := by
    refine List.append_cancel_right (hx.taken.symm.trans ?_)
    cbv
  have hlate : (names 0 "late").IsReply := Packet.isReply_make (by decide +kernel)
  obtain rfl := Packet.bytesOf_inj (fun p hp => (hx.isReply p hp).toFits)
    (by simpa using hlate.toFits) htaken
  obtain ⟨a, rfl⟩ := List.length_eq_one_iff.1 hx.length.symm
  have hnumber : (names 0 "late").header.number = (quiet.run belated).nextNumber := by
    simpa [numbers, Ask.numbered, Ask.packet, Packet.make] using hnumbers
  exact absurd hnumber (by cbv)

end Client

end Tether.Afc
