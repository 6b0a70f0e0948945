import Tether.Proofs.Xpc.Receiving

/-!
# Messages behind one that does not decode

A header tells where a message ends, whatever its body is. All the same a receiver does not get past
a message whose body does not decode: it reports the error and leaves the message where it is, so
the next call finds it there and reports the same again. The bodies of the messages in front of it
are returned, and those behind it never are.

* `objects`, `malformed?`: what of some messages can be returned, and the message in the way;
* `Client.play_of_blocked`: nothing a client does gets it past such a message;
* `Client.received_until_malformed`: what the calls of any run return.
-/

namespace Tether.Xpc

open Http2 (Parcel)

/-- The bodies of the messages in front of the first one that does not decode. -/
def objects : List Bytes → List Object
  | [] => []
  | b :: bs =>
    match Message.decode b with
    | .ok m => m.body.toList ++ objects bs
    | .error _ => []

/-- The first message that does not decode. -/
def malformed? (bs : List Bytes) : Option Bytes :=
  bs.find? fun b => !(Message.decode b).isOk

variable {b : Bytes} {bs rest : List Bytes} {m : Message} {o : Object} {e : DeviceError}

theorem objects_cons_of_ok (h : Message.decode b = .ok m) :
    objects (b :: bs) = m.body.toList ++ objects bs := by
  rw [objects, h]

theorem objects_cons_of_error (h : Message.decode b = .error e) : objects (b :: bs) = [] := by
  rw [objects, h]

theorem malformed?_cons_of_ok (h : Message.decode b = .ok m) :
    malformed? (b :: bs) = malformed? bs := by
  rw [malformed?, List.find?_cons_of_neg (by simp [h, Except.isOk, Except.toBool]), malformed?]

theorem malformed?_cons_of_error (h : Message.decode b = .error e) :
    malformed? (b :: bs) = some b :=
  List.find?_cons_of_pos (by simp [h, Except.isOk, Except.toBool])

theorem objects_cons_of_isBodiless (h : IsBodiless b) : objects (b :: bs) = objects bs := by
  obtain ⟨m, hdecode, hbody⟩ := h
  rw [objects_cons_of_ok hdecode, hbody]
  rfl

theorem malformed?_cons_of_isBodiless (h : IsBodiless b) :
    malformed? (b :: bs) = malformed? bs := by
  obtain ⟨m, hdecode, -⟩ := h
  exact malformed?_cons_of_ok hdecode

/-- What a receiver gets is the first body, and the others are left. -/
theorem objects_of_meets (h : Meets bs (.ok o) rest) :
    objects bs = o :: objects rest ∧ malformed? bs = malformed? rest := by
  generalize hr : (Except.ok o : Except DeviceError Object) = r at h
  induction h with
  | body hdecode hbody =>
    cases hr
    exact ⟨by rw [objects_cons_of_ok hdecode, hbody]; rfl, malformed?_cons_of_ok hdecode⟩
  | error hdecode => contradiction
  | skip hb h ih =>
    rw [objects_cons_of_isBodiless hb, malformed?_cons_of_isBodiless hb]
    exact ih hr

/-- Where a receiver gets an error, there is no body in front of the message in the way. -/
theorem objects_of_meets_error (h : Meets bs (.error e) rest) :
    objects bs = [] ∧ malformed? bs = rest.head? := by
  generalize hr : (Except.error e : Except DeviceError Object) = r at h
  induction h with
  | body hdecode hbody => contradiction
  | error hdecode => exact ⟨objects_cons_of_error hdecode, malformed?_cons_of_error hdecode⟩
  | skip hb h ih =>
    rw [objects_cons_of_isBodiless hb, malformed?_cons_of_isBodiless hb]
    exact ih hr

theorem objects_of_isBodiless (h : ∀ b ∈ bs, IsBodiless b) :
    objects bs = [] ∧ malformed? bs = none := by
  induction bs with
  | nil => exact ⟨rfl, rfl⟩
  | cons b bs ih =>
    have hb := h b List.mem_cons_self
    rw [objects_cons_of_isBodiless hb, malformed?_cons_of_isBodiless hb]
    exact ih fun k hk => h k (List.mem_cons_of_mem b hk)

namespace Client

variable {c d : Client} {ps : List Parcel}

/-! ### Behind a malformed message -/

/-- A complete message is the next one to be decoded, and does not decode. -/
structure Blocked (c : Client) (b : Bytes) (e : DeviceError) : Prop where
  framed : Message.Framed b
  starts : b <+: c.pending
  decode_eq : Message.decode b = .error e

theorem Blocked.receive_eq (h : c.Blocked b e) : receive c = .error (.failed e) c := by
  obtain ⟨behind, hpending⟩ := h.starts
  have hlong : 16 ≤ c.pending.length := by
    have hheader := Message.headerLength_le_span b
    rw [← h.framed.length_eq, Message.headerLength] at hheader
    exact le_trans (by omega) h.starts.length_le
  have hcomplete : completeLength? c.pending = some b.length := by
    rw [completeLength?, h.framed.frameLength?_of_prefix (t := behind) (hpending ▸ List.prefix_rfl)
      hlong, Option.filter_some, if_pos (decide_eq_true h.starts.length_le)]
  refine receive_of_error hcomplete ?_
  rw [← hpending, List.take_left, h.decode_eq]

theorem Same.blocked (h : Same c d) (hc : c.Blocked b e) : d.Blocked b e :=
  ⟨hc.framed, h.pending ▸ hc.starts, hc.decode_eq⟩

theorem play_receive (acts : List Act) (c : Client) :
    play (.receive :: acts) c =
      ((play acts (receive.state c)).1, receive.result c :: (play acts (receive.state c)).2) := by
  simp only [play, Call.result]
  cases receive c <;> rfl

/-- Nothing a client does gets it past such a message: each call reports it, and it stays. -/
theorem play_of_blocked (h : c.Blocked b e) (acts : List Act) :
    (play acts c).2 = List.replicate (calls acts) (.error (.failed e)) ∧
      (play acts c).1.Blocked b e := by
  induction acts generalizing c with
  | nil => exact ⟨rfl, h⟩
  | cons act acts ih =>
    cases act with
    | handshake => exact ih ((same_handshake.state c).blocked h)
    | send object expectReply => exact ih (((same_send object expectReply).state c).blocked h)
    | receive =>
      have hstate : receive.state c = c := by rw [Call.state, h.receive_eq]
      have hresult : receive.result c = .error (.failed e) := by rw [Call.result, h.receive_eq]
      rw [play_receive, hstate, hresult, calls, List.replicate_succ, (ih h).1]
      exact ⟨rfl, (ih h).2⟩

/-! ### Runs -/

theorem Same.expects (h : Same c d) (hc : c.Expects ps bs) : d.Expects ps bs :=
  ⟨h.http.holds hc.holds, hc.sound, (congrFun h.http.queues _).trans hc.queue, hc.framed,
    h.pending ▸ hc.bytes⟩

/-- A call gives the next body, or is blocked, or there is nothing left that it could give. -/
theorem receive_of_expects (h : c.Expects ps bs) :
    (∃ o rest left, Meets bs (.ok o) rest ∧ receive.result c = .ok o ∧
      (receive.state c).Expects left rest) ∨
    (∃ e b behind, Meets bs (.error e) (b :: behind) ∧ receive.result c = .error (.failed e) ∧
      (receive.state c).Blocked b e) ∨
    ∃ halt, (∀ b ∈ bs, IsBodiless b) ∧ receive.result c = .error halt ∧
      (receive.state c).Expects [] [] := by
  refine Call.Ends.of_result (P := fun r d =>
    (∃ o rest left, Meets bs (.ok o) rest ∧ r = .ok o ∧ d.Expects left rest) ∨
    (∃ e b behind, Meets bs (.error e) (b :: behind) ∧ r = .error (.failed e) ∧ d.Blocked b e) ∨
    ∃ halt, (∀ b ∈ bs, IsBodiless b) ∧ r = .error halt ∧ d.Expects [] [])
    ((ends_receive_meets h).mono ?_ ?_)
  · rintro o d ⟨rest, eaten, left, hmeets, -, hd⟩
    exact .inl ⟨o, rest, left, hmeets, rfl, hd⟩
  · rintro halt d (⟨e, rest, eaten, left, hmeets, rfl, -, hd, hstarts⟩ | ⟨hall, hd⟩)
    · obtain ⟨b, behind, rfl, hdecode⟩ := decode_of_meets_error hmeets
      exact .inr (.inl ⟨e, b, behind, hmeets, rfl, hd.framed b List.mem_cons_self, hstarts b rfl,
        hdecode⟩)
    · exact .inr (.inr ⟨halt, hall, rfl, hd⟩)

/-- From any point on, the calls return the bodies that are in front of a malformed message, and
then fail, because of it if there is one. -/
theorem play_of_expects (h : c.Expects ps bs) (acts : List Act) :
    ∃ halts, (play acts c).2 =
        ((objects bs).take (calls acts)).map .ok ++ halts.map .error ∧
      halts.length = calls acts - (objects bs).length ∧
      ∀ b ∈ malformed? bs, ∀ e, Message.decode b = .error e →
        (∀ halt ∈ halts, halt = .failed e) ∧ (halts ≠ [] → b <+: (play acts c).1.pending) := by
  induction acts generalizing c ps bs with
  | nil => exact ⟨[], by simp [play, calls], by simp [calls], by simp⟩
  | cons act acts ih =>
    cases act with
    | handshake => exact ih ((same_handshake.state c).expects h)
    | send object expectReply => exact ih (((same_send object expectReply).state c).expects h)
    | receive =>
      rw [play_receive, calls]
      rcases receive_of_expects h with ⟨o, rest, left, hmeets, hresult, hd⟩ |
        ⟨e, b, behind, hmeets, hresult, hd⟩ | ⟨halt, hall, hresult, hd⟩
      · -- The next body.
        obtain ⟨halts, hplay, hlength, hblocked⟩ := ih hd
        obtain ⟨hobjects, hmalformed⟩ := objects_of_meets hmeets
        rw [hobjects, hmalformed, hresult, hplay, List.take_succ_cons, List.map_cons,
          List.length_cons, Nat.add_sub_add_right]
        exact ⟨halts, rfl, hlength, hblocked⟩
      · -- A malformed message, from which there is no way on.
        obtain ⟨hplay, hblocked⟩ := play_of_blocked hd acts
        obtain ⟨hobjects, hmalformed⟩ := objects_of_meets_error hmeets
        refine ⟨List.replicate (calls acts + 1) (.failed e), ?_, ?_, ?_⟩
        · rw [hobjects, hresult, hplay, List.map_replicate, List.replicate_succ]
          rfl
        · rw [hobjects, List.length_replicate]
          rfl
        · rw [hmalformed]
          rintro b' hb' e' he'
          obtain rfl := Option.some.inj hb'
          obtain rfl : e = e' := Except.error.inj (hblocked.decode_eq.symm.trans he')
          exact ⟨fun halt hhalt => List.eq_of_mem_replicate hhalt, fun _ => hblocked.starts⟩
      · -- There is nothing left.
        obtain ⟨halts, hplay, hlength, -⟩ := ih hd
        obtain ⟨hobjects, hmalformed⟩ := objects_of_isBodiless hall
        refine ⟨halt :: halts, ?_, ?_, ?_⟩
        · rw [hobjects, hresult, hplay, objects, List.take_nil, List.take_nil]
          rfl
        · rw [hobjects, List.length_cons, hlength]
          rfl
        · rw [hmalformed]
          exact fun b hb => by contradiction

/-- Complete messages, whatever is in them, are cut into payloads of the root stream at any places,
and the frames that carry these lie between frames of other streams and of other kinds, none of
which is an error. Then the calls of any run return the bodies of the messages in front of the first
one that does not decode, in order, each once. All later calls fail. If there is a message that does
not decode, they fail because of it, and it is still what is pending, in front of all others. -/
theorem received_until_malformed {t : Transport} (hunread : t.unread = Parcel.bytesOf ps)
    (hallowance : t.allowance = none) (hsound : ∀ p ∈ ps, ∃ f, p.frame = .ok f)
    (hframed : ∀ b ∈ bs, Message.Framed b) (hcut : rootBytes ps = bs.flatten) (acts : List Act) :
    ∃ halts, (play acts (started t)).2 =
        ((objects bs).take (calls acts)).map .ok ++ halts.map .error ∧
      halts.length = calls acts - (objects bs).length ∧
      ∀ b ∈ malformed? bs, ∀ e, Message.decode b = .error e →
        (∀ halt ∈ halts, halt = .failed e) ∧
          (halts ≠ [] → b <+: (play acts (started t)).1.pending) := by
  have hsame : Same { http := { transport := t } } (started t) :=
    (same_onHttp (Http2.Client.same_write _)).state _
  exact play_of_expects (hsame.expects ⟨⟨hunread, hallowance⟩, hsound, rfl, hframed, hcut⟩) acts

/-- A message with a truth value. -/
def verdict (value : Bool) : Message :=
  ⟨Flags.alwaysSet ||| Flags.data, some (.bool value), 1⟩

/-- Two of them, and between them a message with a tag that nobody knows. -/
def puzzling : List Bytes :=
  [(verdict false).encode,
    heading 16 ++ Bytes.ofNatLE 4 objectMagic ++ Bytes.ofNatLE 4 objectVersion ++
      Bytes.ofNatLE 4 0x1234 ++ [1, 0, 0, 0],
    (verdict true).encode]

/-- A frame of the root stream with all of them. -/
def puzzle : Parcel :=
  ⟨0, 0, rootStream, puzzling.flatten, by decide⟩

theorem framed_puzzling : ∀ b ∈ puzzling, Message.Framed b := by
  intro b hb
  simp only [puzzling, List.mem_cons, List.not_mem_nil, or_false] at hb
  rcases hb with rfl | rfl | rfl <;> exact ⟨by decide, by decide⟩

/-- The first object is returned, and both later calls report the tag. -/
theorem received_puzzling :
    ((∀ b ∈ puzzling, Message.Framed b) ∧ rootBytes [puzzle] = puzzling.flatten) ∧
      objects puzzling = [.bool false] ∧
      (play [.receive, .send (.bool true) false, .receive, .receive]
          (started { unread := Parcel.bytesOf [puzzle] })).2 =
        [.ok (.bool false), .error (.failed (.unknownXpcType 0x1234)),
          .error (.failed (.unknownXpcType 0x1234))] := by
  have hcut : rootBytes [puzzle] = puzzling.flatten := by decide
  have hobjects : objects puzzling = [.bool false] := by cbv
  have hmalformed : malformed? puzzling = puzzling[1]? := by cbv
  have hdecode : Message.decode (puzzling.getD 1 []) = .error (.unknownXpcType 0x1234) := by cbv
  have hsound : ∀ p ∈ [puzzle], ∃ f, p.frame = .ok f := by
    intro p hp
    rw [List.mem_singleton.1 hp]
    exact ⟨_, rfl⟩
  obtain ⟨halts, hplay, hlength, hblocked⟩ :=
    received_until_malformed (t := { unread := Parcel.bytesOf [puzzle] }) rfl rfl hsound
      framed_puzzling hcut [.receive, .send (.bool true) false, .receive, .receive]
  -- Three calls receive, and one object is in front of the message in the way.
  have hfailed := List.eq_replicate_of_mem (hblocked _ hmalformed _ hdecode).1
  rw [hlength, hobjects] at hfailed
  rw [hobjects, hfailed] at hplay
  exact ⟨⟨framed_puzzling, hcut⟩, hobjects, hplay⟩

/-- So the message behind it, which has an object, is not received. -/
theorem not_received_puzzling :
    (∀ b ∈ puzzling, Message.Framed b ∧ Message.Begins b) ∧
      Message.decode (puzzling.getD 2 []) = .ok (verdict true) ∧
      (play [.receive, .receive, .receive] (started { unread := Parcel.bytesOf [puzzle] })).2 ≠
        [.ok (.bool false), .error (.failed (.unknownXpcType 0x1234)), .ok (.bool true)] := by
  have hresults :
      (play [.receive, .receive, .receive] (started { unread := Parcel.bytesOf [puzzle] })).2 =
        [.ok (.bool false), .error (.failed (.unknownXpcType 0x1234)),
          .error (.failed (.unknownXpcType 0x1234))] := by
    cbv
  have hbegins : ∀ b ∈ puzzling, Message.Begins b := by decide
  have hfits : (verdict true).Fits := by
    intro o ho
    obtain rfl := Option.some.inj ho
    exact ⟨.bool true, by decide⟩
  refine ⟨fun b hb => ⟨framed_puzzling b hb, hbegins b hb⟩, Message.decode_encode hfits, ?_⟩
  rw [hresults]
  intro h
  simp at h

end Client

end Tether.Xpc
