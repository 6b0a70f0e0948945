import Tether.Proofs.Afc.Requests

/-!
# Requests stay in step with their replies

A reply is *complete* when its header is accepted and there are as many bytes as the header says.
These are just the bytes of the packets that a client accepts, so a reply is cut off the stream
at the right place before anything in it is looked at. A request therefore takes its reply whole,
whether the reply is taken for an answer, for a failure or for nonsense.

* `Packet.complete_iff`: the complete replies;
* `Client.ends_request_of_unread`: a request takes the reply that has arrived, or is not sent;
* `Client.ends_ask`: so do requests one after the other, the `k`-th the `k`-th reply;
* `Client.synchronous`: these, and that packets are read back.
-/

namespace Tether

namespace Bytes

/-- Eight bytes are those of a word. -/
theorem word_toNatLE {bs : Bytes} (h : bs.length = 8) :
    ofNatLE 8 (UInt64.ofNat (toNatLE bs)).toNat = bs := by
  have hlt : toNatLE bs < 2 ^ 64 := by
    have := toNatLE_lt bs
    rw [h] at this
    omega
  rw [UInt64.toNat_ofNat', Nat.mod_eq_of_lt hlt, ← h, ofNatLE_toNatLE]

end Bytes

namespace Call

variable {ε ε' σ τ α : Type} {c : Call ε σ α}

theorem Prompt.zoom {view : τ → σ} {put : τ → σ → τ} {err : ε → ε'} (hc : Prompt c) :
    Prompt (Call.zoom view put err c) := by
  intro t
  rw [ends_zoom]
  refine (hc (view t)).mono (fun _ _ h => h) fun h _ hne => ?_
  cases h with
  | failed e => exact nofun
  | waiting => exact absurd rfl hne

end Call

namespace Afc

theorem Operation.code_of_ofCode? {n : UInt64} {operation : Operation}
    (h : ofCode? n = some operation) : operation.code = n := by
  simpa using List.find?_some h

namespace Header

variable {bs : Bytes} {h : Header}

/-- What is read of an accepted header. -/
theorem eq_of_ofBytes (ho : ofBytes bs = .ok h) :
    headerLength ≤ bs.length ∧ h.magic = fieldOf bs 0 ∧ h.entireLength = fieldOf bs 1 ∧
      h.leadLength = fieldOf bs 2 ∧ h.number = fieldOf bs 3 ∧ h.operation.code = fieldOf bs 4 ∧
      h.magic = Afc.magic ∧ h.hasLengths := by
  unfold ofBytes at ho
  split at ho
  · cases ho
  · split at ho
    · cases ho
    · next hlength hmagic =>
      split at ho
      · cases ho
      · next operation hcode =>
        dsimp only at ho
        split at ho
        · next hlengths =>
          obtain rfl := Except.ok.inj ho
          exact ⟨Nat.not_lt.1 hlength, rfl, rfl, rfl, rfl, Operation.code_of_ofCode? hcode,
            not_not.1 hmagic, hlengths⟩
        · cases ho

/-- The lengths in an accepted header can be taken from each other. -/
theorem lengths_of_ofBytes (ho : ofBytes bs = .ok h) :
    headerLength ≤ h.leadLength.toNat ∧ h.leadLength.toNat ≤ h.entireLength.toNat ∧
      h.entireLength.toNat ≤ maxLength := by
  have hlengths := (eq_of_ofBytes ho).2.2.2.2.2.2.2
  simp only [hasLengths, Bool.and_eq_true, decide_eq_true_eq, UInt64.le_iff_toNat_le] at hlengths
  exact ⟨hlengths.1.1, hlengths.1.2, hlengths.2⟩

theorem word_fieldOf {i : Nat} (hlength : 8 * i + 8 ≤ bs.length) :
    Bytes.ofNatLE 8 (fieldOf bs i).toNat = (bs.drop (8 * i)).take 8 :=
  Bytes.word_toNatLE (by simp only [List.length_take, List.length_drop]; omega)

/-- An accepted header has the bytes that it was read from. -/
theorem toBytes_of_ofBytes (ho : ofBytes bs = .ok h) : h.toBytes = bs.take headerLength := by
  obtain ⟨hlength, hmagic, hentire, hlead, hnumber, hcode, -, -⟩ := eq_of_ofBytes ho
  have hlength : 40 ≤ bs.length := hlength
  have htake (i n : Nat) : (bs.drop (8 * i)).take 8 ++ (bs.drop (8 * (i + 1))).take n =
      (bs.drop (8 * i)).take (8 + n) := by
    rw [List.take_add, List.drop_drop, Nat.mul_succ]
  calc h.toBytes
    _ = (bs.drop (8 * 0)).take 8 ++ ((bs.drop (8 * 1)).take 8 ++ ((bs.drop (8 * 2)).take 8 ++
          ((bs.drop (8 * 3)).take 8 ++ (bs.drop (8 * 4)).take 8))) := by
      rw [toBytes_eq, hmagic, hentire, hlead, hnumber, hcode]
      repeat rw [word_fieldOf (by omega)]
    _ = bs.take headerLength := by
      rw [htake 3, htake 2, htake 1, htake 0]
      rfl

end Header

namespace Packet

variable {bs : Bytes} {ps : List Packet} {replies : List Bytes}

/-- A header that is accepted and as many bytes as it says. -/
def Complete (bs : Bytes) : Prop :=
  ∃ h, Header.ofBytes bs = .ok h ∧ bs.length = h.entireLength.toNat

theorem complete_toBytes {p : Packet} (hp : p.IsReply) : Complete p.toBytes := by
  have hheader : Header.ofBytes p.toBytes = Header.ofBytes p.header.toBytes := by
    have hfield (i : Nat) (hi : 8 * i + 8 ≤ 40) :
        Header.fieldOf p.toBytes i = Header.fieldOf p.header.toBytes i := by
      have hlength : p.header.toBytes.length = 40 := p.header.length_toBytes
      rw [Header.fieldOf, Header.fieldOf, toBytes, List.append_assoc, List.drop_append_of_le_length
        (by omega), List.take_append_of_le_length (by rw [List.length_drop]; omega)]
    have hlong : ¬ p.toBytes.length < headerLength := by
      rw [length_toBytes]
      omega
    simp only [Header.ofBytes, hfield 0 (by omega), hfield 1 (by omega), hfield 2 (by omega),
      hfield 3 (by omega), hfield 4 (by omega), hlong, Header.length_toBytes, Nat.lt_irrefl,
      if_false]
  refine ⟨p.header, hheader.trans hp.ofBytes, ?_⟩
  rw [length_toBytes, hp.entire]

/-- The complete replies are the bytes of the packets that a client accepts. -/
theorem complete_iff : Complete bs ↔ ∃ p : Packet, p.IsReply ∧ p.toBytes = bs := by
  refine ⟨?_, fun ⟨p, hp, h⟩ => h ▸ complete_toBytes hp⟩
  rintro ⟨h, hheader, hlength⟩
  obtain ⟨hlead, hentire, hshort⟩ := Header.lengths_of_ofBytes hheader
  have hmagic := (Header.eq_of_ofBytes hheader).2.2.2.2.2.2.1
  have hover : headerLength + (h.leadLength.toNat - headerLength) = h.leadLength.toNat := by omega
  let p : Packet :=
    { header := h
      lead := (bs.drop headerLength).take (h.leadLength.toNat - headerLength)
      content := bs.drop h.leadLength.toNat }
  have hp : p.IsReply :=
    { magic := hmagic
      lead := by simp only [p, List.length_take, List.length_drop]; omega
      entire := by simp only [p, List.length_take, List.length_drop]; omega
      short := hshort }
  refine ⟨p, hp, ?_⟩
  rw [toBytes, Header.toBytes_of_ofBytes hheader, ← List.take_add, hover, List.take_append_drop]

theorem exists_toBytes (h : ∀ bs ∈ replies, Complete bs) :
    ∃ ps : List Packet, (∀ p ∈ ps, p.IsReply) ∧ ps.map toBytes = replies := by
  induction replies with
  | nil => exact ⟨[], by simp⟩
  | cons bs replies ih =>
    obtain ⟨p, hp, rfl⟩ := complete_iff.1 (h bs List.mem_cons_self)
    obtain ⟨ps, hps, rfl⟩ := ih fun bs hbs => h bs (List.mem_cons_of_mem _ hbs)
    exact ⟨p :: ps, by simpa using ⟨hp, hps⟩, rfl⟩

theorem flatten_map_toBytes (ps : List Packet) : (ps.map toBytes).flatten = bytesOf ps := by
  rw [bytesOf, List.flatMap_def]

end Packet

/-! ## Requests one after the other -/

namespace Client

variable {s t : Client} {p : Packet} {ps : List Packet} {rest : Bytes} {e : DeviceError}

/-- What a request makes of its reply. -/
def answer (p : Packet) : Except DeviceError Packet := do
  failureOf p
  return p

/-- A reply is the answer, or it reports a failure, or it is a status without a code. -/
theorem answer_cases (p : Packet) :
    answer p = .ok p ∨ (∃ status, status ≠ .success ∧ answer p = .error (.afc status)) ∨
      answer p = .error .unexpectedResponse := by
  unfold answer failureOf
  by_cases hstatus : p.header.operation = .status
  · rw [if_pos hstatus]
    cases hlead : p.leadNumber with
    | error e =>
      unfold Packet.leadNumber at hlead
      split at hlead
      · obtain rfl := Except.error.inj hlead
        exact .inr (.inr rfl)
      · cases hlead
    | ok n =>
      by_cases hsuccess : Status.ofCode n.toNat = .success
      · exact .inl (by simp [bind, Except.bind, pure, Except.pure, hsuccess])
      · exact .inr (.inl ⟨_, hsuccess,
          by simp [bind, Except.bind, throw, throwThe, MonadExceptOf.throw, hsuccess]⟩)
  · rw [if_neg hstatus]
    exact .inl rfl

/-- The answer is the reply itself. -/
theorem eq_of_answer {q : Packet} (h : answer p = .ok q) : q = p := by
  rcases answer_cases p with hp | ⟨_, -, hp⟩ | hp
  · exact (Except.ok.inj (hp.symm.trans h)).symm
  · cases hp.symm.trans h
  · cases hp.symm.trans h

/-- Makes requests one after the other, whatever becomes of each. -/
def ask : List Ask → Call DeviceError Client (List (Except DeviceError Packet))
  | [] => pure []
  | a :: asks => do
    let r ← Call.attempt (request a.operation a.lead a.content)
    return r :: (← ask asks)

/-- From `s` to `t` this was asked, and of what was there to read the `rest` is left. -/
structure Answered (a : Ask) (rest : Bytes) (s t : Client) : Prop where
  sent : t.sent = s.sent ++ (a.packet s.nextNumber).toBytes
  unread : t.unread = rest
  number : t.nextNumber = s.nextNumber + 1
  ready : s.Ready → t.Ready

/-- From `s` to `t` nothing could be asked, and nothing was taken. -/
structure Refused (s t : Client) : Prop where
  unread : t.unread = s.unread
  unable : ¬ t.CanSend
  wasUnable : ¬ s.Ready

/-- A packet is sent, or nothing can be sent any more, which is known at once. -/
theorem prompt_send (p : Packet) : Call.Prompt (send p) := by
  refine Call.Prompt.zoom (Call.Prompt.get.bind fun c => ?_)
  split
  · refine Call.Prompt.zoom (Call.Prompt.forM fun bs t => ?_)
    exact (ends_writeAll bs t).mono (fun _ _ _ => trivial) fun _ _ ⟨_, fault, h, _⟩ => h ▸ nofun
  · exact Call.Prompt.fail _

/-- A request takes the reply that has arrived, whatever is in it, or it cannot be sent and takes
nothing. -/
theorem ends_request_of_unread (a : Ask) (hp : p.IsReply) (hs : s.unread = p.toBytes ++ rest) :
    (request a.operation a.lead a.content).Ends s
      (fun q t => answer p = .ok q ∧ Answered a rest s t)
      (fun h t => ∃ e, h = .failed e ∧
        ((answer p = .error e ∧ Answered a rest s t) ∨ (Connection.isLost h ∧ Refused s t))) := by
  rw [request, Call.ends_bind, Call.ends_get, Call.ends_bind, Call.ends_modify, Call.ends_bind]
  refine ((ends_send _ { s with nextNumber := s.nextNumber + 1 }).and
    (prompt_send _ { s with nextNumber := s.nextNumber + 1 })).mono ?_ ?_
  · rintro _ t ⟨⟨hable, hsent, hstill⟩, -⟩
    have ho : t.connection.isOpen := by rw [hstill.isOpen]; exact hable.1
    have ht : t.unread = p.toBytes ++ rest := hstill.unread.trans hs
    have hanswered (reads : Nat) : Answered a rest s (t.left rest reads) :=
      { sent := hsent
        unread := rfl
        number := hstill.number
        ready := fun hready => ⟨ho, (hstill.ready ⟨hready.isOpen, hready.allowance⟩).allowance⟩ }
    obtain ⟨reads, hreceive⟩ := Packet.receive_of_eq hp ho ht
    rw [receive, Call.ends_bind, onConnection, Call.ends_zoom, Call.Ends, hreceive]
    change Call.Ends _ _ _ _
    -- The reply is off the stream before it is known what it reports.
    rw [Call.ends_bind]
    cases hf : failureOf p with
    | ok => exact ⟨by rw [answer, hf]; rfl, hanswered reads⟩
    | error e => exact ⟨e, rfl, .inl ⟨by rw [answer, hf]; rfl, hanswered reads⟩⟩
  · rintro halt t ⟨⟨hunable, hlost, hstill⟩, hprompt⟩
    cases halt with
    | waiting => exact absurd rfl hprompt
    | failed e =>
      exact ⟨e, rfl, .inr ⟨hlost, hstill.unread, hunable,
        fun hs => hunable (hstill.ready ⟨hs.isOpen, hs.allowance⟩).canSend⟩⟩

/-- What a request comes to, its error handed over. -/
theorem ends_attempt_request (a : Ask) (hp : p.IsReply) (hs : s.unread = p.toBytes ++ rest) :
    (Call.attempt (request a.operation a.lead a.content) :
        Call DeviceError Client (Except DeviceError Packet)).Ends s
      (fun r t => (r = answer p ∧ Answered a rest s t) ∨
        ∃ e, r = .error e ∧ Connection.isLost (.failed e) ∧ Refused s t)
      (fun _ _ => False) := by
  rw [Call.ends_attempt]
  refine (ends_request_of_unread a hp hs).mono ?_ ?_
  · rintro q t ⟨hq, h⟩
    exact .inl ⟨hq.symm, h⟩
  · rintro _ t ⟨e, rfl, ⟨he, h⟩ | ⟨hlost, h⟩⟩
    · exact .inl ⟨he.symm, h⟩
    · exact .inr ⟨e, rfl, hlost, h⟩

/-- What comes of requests for which these packets arrive, and then the `rest`: the first `n` are
answered, each by the packet in its place, and the others cannot be sent and take nothing. -/
structure InTurn (asks : List Ask) (ps : List Packet) (rest : Bytes) (s : Client) (n : Nat)
    (rs : List (Except DeviceError Packet)) (t : Client) : Prop where
  length : rs.length = asks.length
  le : n ≤ asks.length
  answers : rs.take n = (ps.take n).map answer
  lost : ∀ r ∈ rs.drop n, ∃ e, r = .error e ∧ Connection.isLost (.failed e)
  unread : t.unread = Packet.bytesOf (ps.drop n) ++ rest
  /-- All are answered on a connection that is there and takes what is written. -/
  ready : s.Ready → n = asks.length ∧ t.Ready ∧
    t.sent = s.sent ++ Packet.bytesOf (Ask.numbered s.nextNumber asks)

/-- One answer more in front. -/
theorem Answered.inTurn {asks : List Ask} {rs : List (Except DeviceError Packet)} {n : Nat}
    {u : Client} {a : Ask} (h : Answered a (Packet.bytesOf ps ++ rest) s t)
    (h' : InTurn asks ps rest t n rs u) :
    InTurn (a :: asks) (p :: ps) rest s (n + 1) (answer p :: rs) u where
  length := by simp [h'.length]
  le := by simpa using h'.le
  answers := by simp [h'.answers]
  lost := h'.lost
  unread := h'.unread
  ready hs := by
    obtain ⟨hn, hready, hsent⟩ := h'.ready (h.ready hs)
    refine ⟨by simp [hn], hready, ?_⟩
    rw [hsent, h.sent, h.number]
    simp [Ask.numbered]

/-- Where nothing can be sent, requests take nothing. -/
theorem ends_ask_of_not_canSend (asks : List Ask) (hs : ¬ s.CanSend) :
    (ask asks).Ends s
      (fun rs t => rs.length = asks.length ∧ t.unread = s.unread ∧
        ∀ r ∈ rs, ∃ e, r = .error e ∧ Connection.isLost (.failed e))
      (fun _ _ => False) := by
  induction asks generalizing s with
  | nil => exact ⟨rfl, rfl, by simp⟩
  | cons a asks ih =>
    rw [ask, Call.ends_bind, Call.ends_attempt, request, Call.ends_bind, Call.ends_get,
      Call.ends_bind, Call.ends_modify, Call.ends_bind]
    refine ((ends_send _ { s with nextNumber := s.nextNumber + 1 }).and
      (prompt_send _ { s with nextNumber := s.nextNumber + 1 })).mono ?_ ?_
    · rintro _ _ ⟨⟨hable, -⟩, -⟩
      exact absurd hable hs
    · rintro halt t ⟨⟨hunable, hlost, hstill⟩, hprompt⟩
      cases halt with
      | waiting => exact absurd rfl hprompt
      | failed e =>
        refine Call.ends_bind.2 ((ih hunable).mono ?_ fun _ _ h => h)
        rintro rs u ⟨hlength, hunread, hrs⟩
        exact ⟨by simp [hlength], hunread.trans hstill.unread,
          List.forall_mem_cons.2 ⟨⟨e, rfl, hlost⟩, hrs⟩⟩

/-- Requests are answered in turn. -/
theorem ends_ask (asks : List Ask) (hps : ∀ p ∈ ps, p.IsReply) (hlength : ps.length = asks.length)
    (hs : s.unread = Packet.bytesOf ps ++ rest) :
    (ask asks).Ends s (fun rs t => ∃ n, InTurn asks ps rest s n rs t) (fun _ _ => False) := by
  induction asks generalizing s ps with
  | nil =>
    obtain rfl := List.length_eq_zero_iff.1 hlength
    exact ⟨0, rfl, Nat.le_refl 0, rfl, by simp, hs, fun hready => ⟨rfl, hready, by simp [Ask.numbered]⟩⟩
  | cons a asks ih =>
    obtain ⟨p, ps, rfl⟩ := List.exists_cons_of_length_eq_add_one hlength
    obtain ⟨hp, hps⟩ := List.forall_mem_cons.1 hps
    rw [Packet.bytesOf_cons, List.append_assoc] at hs
    rw [ask, Call.ends_bind]
    refine (ends_attempt_request a hp hs).mono ?_ fun _ _ h => h
    rintro r t (⟨rfl, h⟩ | ⟨e, rfl, hlost, h⟩)
    · refine Call.ends_bind.2 ((ih hps (by simpa using hlength) h.unread).mono ?_ fun _ _ h => h)
      rintro rs u ⟨n, h'⟩
      exact ⟨n + 1, h.inTurn h'⟩
    · refine Call.ends_bind.2 ((ends_ask_of_not_canSend asks h.unable).mono ?_ fun _ _ h => h)
      rintro rs u ⟨hlen, hunread, hrs⟩
      refine ⟨0, by simp [hlen], Nat.zero_le _, rfl, ?_, ?_, fun hs => absurd hs h.wasUnable⟩
      · exact List.forall_mem_cons.2 ⟨⟨e, rfl, hlost⟩, hrs⟩
      · rw [hunread, h.unread, hs]
        simp

/-- A packet that was made is received as it is, whatever follows it and however it arrives; the
lengths in an accepted header can be taken from each other; and of complete replies each request
takes one, whatever it reports, so that the reply in a place is the answer to the request in that
place. -/
theorem synchronous :
    (∀ (operation : Operation) (number : UInt64) (lead content rest : Bytes) (c : Connection),
      headerLength + lead.length + content.length ≤ maxLength → c.isOpen →
      c.transport.unread = (Packet.make operation number lead content).toBytes ++ rest →
        ∃ reads, Packet.receive c =
          .ok (Packet.make operation number lead content) (c.left rest reads)) ∧
    (∀ (bs : Bytes) (h : Header), Header.ofBytes bs = .ok h →
      headerLength ≤ h.leadLength.toNat ∧ h.leadLength.toNat ≤ h.entireLength.toNat) ∧
    (∀ (asks : List Ask) (replies : List Bytes) (rest : Bytes) (s : Client),
      (∀ bs ∈ replies, Packet.Complete bs) → replies.length = asks.length →
      s.unread = replies.flatten ++ rest →
        ∃ ps, ps.map Packet.toBytes = replies ∧
          (ask asks).Ends s (fun rs t => ∃ n, InTurn asks ps rest s n rs t) (fun _ _ => False)) ∧
    (∀ p : Packet, answer p = .ok p ∨
      (∃ status, status ≠ .success ∧ answer p = .error (.afc status)) ∨
        answer p = .error .unexpectedResponse) := by
  refine ⟨fun operation number lead content rest c hlength ho hunread => ?_, fun bs h ho => ?_,
    fun asks replies rest s hreplies hlength hunread => ?_, answer_cases⟩
  · exact Packet.receive_of_eq (Packet.isReply_make hlength) ho hunread
  · obtain ⟨hlead, hentire, -⟩ := Header.lengths_of_ofBytes ho
    exact ⟨hlead, hentire⟩
  · obtain ⟨ps, hps, rfl⟩ := Packet.exists_toBytes hreplies
    rw [Packet.flatten_map_toBytes] at hunread
    exact ⟨ps, rfl, ends_ask asks hps (by simpa using hlength) hunread⟩

/-- An answer, a failure, a status that lacks its code, and another answer. -/
def mixed : List Packet :=
  [.make .data 0 [] (Bytes.ofString "one"), .make .status 1 (Bytes.ofNatLE 8 10) [],
    .make .status 2 [1] [], .make .data 3 [] (Bytes.ofString "two")]

/-- Four directories to list. -/
def listings : List Ask :=
  ["/a", "/b", "/c", "/d"].map fun path => ⟨.readDir, Bytes.ofString path, []⟩

theorem synchronous_mixed :
    (∃ reads, Packet.receive (quiet.hear (mixed.map Packet.toBytes).flatten).connection =
      .ok (.make .data 0 [] (Bytes.ofString "one"))
        ((quiet.hear (mixed.map Packet.toBytes).flatten).connection.left
          ((mixed.tail.map Packet.toBytes).flatten) reads)) ∧
    (headerLength ≤ (Packet.make .status 2 [1] []).header.leadLength.toNat ∧
      (Packet.make .status 2 [1] []).header.leadLength.toNat ≤
        (Packet.make .status 2 [1] []).header.entireLength.toNat) ∧
    (∃ ps, ps.map Packet.toBytes = mixed.map Packet.toBytes ∧
      (ask listings).Ends (quiet.hear (mixed.map Packet.toBytes).flatten)
        (fun rs t => ∃ n, InTurn listings ps []
          (quiet.hear (mixed.map Packet.toBytes).flatten) n rs t) (fun _ _ => False)) ∧
    (mixed.map answer).map Except.isOk = [true, false, false, true] := by
  obtain ⟨hreceive, hlengths, hask, -⟩ := synchronous
  refine ⟨?_, ?_, ?_, by cbv⟩
  · exact hreceive .data 0 [] (Bytes.ofString "one") _ _ (by decide +kernel) rfl rfl
  · exact hlengths _ _ (Packet.isReply_make (by decide +kernel)).ofBytes
  · refine hask listings (mixed.map Packet.toBytes) [] _ (fun bs hbs => ?_) rfl
      (List.append_nil _).symm
    obtain ⟨p, hp, rfl⟩ := List.mem_map.1 hbs
    refine Packet.complete_toBytes ?_
    simp only [mixed, List.mem_cons, List.not_mem_nil, or_false] at hp
    obtain rfl | rfl | rfl | rfl := hp <;> exact Packet.isReply_make (by decide +kernel)

end Client

end Afc

end Tether
