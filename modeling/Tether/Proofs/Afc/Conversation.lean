import Tether.Proofs.Afc.Requests

/-!
# Conversations with a device

A device answers each packet with one packet, and goes on in another state. What it says to a
client depends on what the client says, and the other way round: the bytes that the client hears
in a call are the device's answers to what the call sends on hearing them (`Device.Answers`).
A call that sends its `n`-th request once it has the replies before determines these bytes, so
there is one conversation and it can be followed request by request.

* `Says`: the requests that a call makes when it gets certain replies, computed along the call;
* `Device.Runs`: the same where the replies are those of a device;
* `Device.Runs.leads`: there is one conversation, and how it ends.
-/

namespace Tether

namespace Transport

/-- From `t` to `u` there was reading only. -/
structure Consumes (t u : Transport) : Prop where
  written : u.written = t.written
  unread : u.unread.length ≤ t.unread.length

instance isPreorder_consumes : IsPreorder Transport Consumes where
  refl _ := ⟨rfl, Nat.le_refl _⟩
  trans _ _ _ h h' := ⟨h'.written.trans h.written, h'.unread.trans h.unread⟩

theorem consumes_readMore (fuel n : Nat) (seen : Bytes) :
    Call.Respects Consumes (readMore fuel n seen) := by
  refine (reads_readMore fuel n seen).mono ?_
  rintro t _ ⟨rest, reads, hle, rfl⟩
  exact ⟨rfl, hle⟩

end Transport

namespace Afc

open Packet (bytesOf)

variable {α β : Type}

/-- From `s` to `t` there was reading only. -/
def Consumes (s t : Connection) : Prop :=
  s.transport.Consumes t.transport

instance isPreorder_consumes : IsPreorder Connection Consumes where
  refl s := refl_of Transport.Consumes s.transport
  trans _ _ _ h h' := trans_of Transport.Consumes h h'

theorem consumes_readRaw (n : Nat) : Call.Respects Consumes (Connection.readRaw n) := by
  intro s
  rw [Connection.readRaw, Connection.onTransport, Call.ends_bind, Call.ends_get]
  split
  · rw [Call.ends_zoom]
    refine (Transport.consumes_readMore n n [] s.transport).mono (fun _ _ h => h) fun h _ ht => ?_
    cases h <;> exact ht
  · exact refl_of Consumes s

theorem Packet.consumes_receive : Call.Respects Consumes Packet.receive :=
  (consumes_readRaw _).bind fun _ => (Call.Respects.ofExcept _).bind fun _ =>
    (consumes_readRaw _).bind fun _ => (consumes_readRaw _).bind fun _ => .pure _

/-- What is received is a header at least. -/
theorem Packet.ends_receive_length (s : Connection) :
    Packet.receive.Ends s
      (fun _ t => t.transport.unread.length + headerLength ≤ s.transport.unread.length)
      (fun _ _ => True) := by
  rw [Packet.receive, Call.ends_bind]
  by_cases ho : s.isOpen
  · by_cases hlength : headerLength ≤ s.transport.unread.length
    · obtain ⟨reads, hr⟩ := Connection.readRaw_of_le ho hlength
      rw [Call.Ends, hr]
      refine Call.Ends.mono (s := s.left (s.transport.unread.drop headerLength) reads)
        (((Call.Respects.ofExcept _).bind fun _ => (consumes_readRaw _).bind fun _ =>
          (consumes_readRaw _).bind fun _ => .pure _ : Call.Respects Consumes _) _)
        (fun _ t (h : Consumes _ t) => ?_) fun _ _ _ => trivial
      have hle := h.unread
      simp only [Connection.unread_left, List.length_drop] at hle
      omega
    · obtain ⟨halt, reads, -, hr⟩ := Connection.readRaw_of_lt ho (Nat.lt_of_not_le hlength)
      rw [Call.Ends, hr]
      trivial
  · rw [Connection.readRaw, Call.Ends, Connection.onTransport_lost _ (by simpa using ho)]
    trivial

namespace Client

variable {s t : Client} {c : Call DeviceError Client α}

theorem extends_of_consumes (h : Consumes s.connection t.connection) : Extends s t := by
  rw [Extends, sent, sent, Transport.sent, Transport.sent, h.written]

theorem extends_receive : Call.Respects Extends receive :=
  (Call.Respects.zoom Packet.consumes_receive fun _ _ h => extends_of_consumes h).bind fun _ =>
    (Call.Respects.ofExcept _).bind fun _ => .pure _

theorem extends_send (p : Packet) : Call.Respects Extends (send p) :=
  fun s => (ends_send p s).mono (fun _ _ h => h.2.2.sent) fun _ _ h => h.2.2.sent

theorem extends_request (operation : Operation) (lead content : Bytes) :
    Call.Respects Extends (request operation lead content) := by
  refine Call.Respects.get.bind fun _ => Call.Respects.bind (.modify fun s => ?_) fun _ =>
    (extends_send _).bind fun _ => extends_receive
  exact List.prefix_refl s.sent

/-- A reply that is received is a header at least. -/
theorem ends_request_length (operation : Operation) (lead content : Bytes) (s : Client) :
    (request operation lead content).Ends s
      (fun _ t => t.unread.length + headerLength ≤ s.unread.length) (fun _ _ => True) := by
  rw [request, Call.ends_bind, Call.ends_get, Call.ends_bind, Call.ends_modify, Call.ends_bind]
  refine (ends_send _ { s with nextNumber := s.nextNumber + 1 }).mono
    (fun _ t ht => ?_) fun _ _ _ => trivial
  obtain ⟨-, -, hstill⟩ := ht
  rw [receive, Call.ends_bind, onConnection, Call.ends_zoom]
  refine (Packet.ends_receive_length t.connection).mono (fun p c h => ?_) fun h _ _ => ?_
  · have hunread : t.unread = s.unread := hstill.unread
    rw [Call.ends_bind]
    cases failureOf p with
    | ok => exact hunread ▸ h
    | error e => trivial
  · cases h <;> trivial

end Client

/-- What follows a call goes on from the state that it leaves. -/
theorem respects_state_bind {σ ε : Type} {R : σ → σ → Prop} [IsPreorder σ R] {c : Call ε σ α}
    {f : α → Call ε σ β} (hf : ∀ a, Call.Respects R (f a)) (s : σ) :
    R (c.state s) ((c >>= f).state s) := by
  simp only [Call.state, bind, EStateM.bind]
  cases hc : c s with
  | ok a t => exact (hf a).state t
  | error h t => exact refl_of R t

/-! ### What a call says -/

/-- Made by a client that is ready, with this number for the first request, the call makes these
requests, each as soon as it has the replies before, takes these replies and returns `a`. -/
structure Says (first : UInt64) (c : Call DeviceError Client α) (asks : List Ask)
    (replies : List Packet) (a : α) : Prop where
  heard : ∀ (s : Client) (rest : Bytes), s.Ready → s.nextNumber = first →
    s.unread = bytesOf replies ++ rest →
      c.Ends s (fun b t => b = a ∧ Exchanged asks replies s t ∧ t.Ready) (fun _ _ => False)
  said : ∀ (s : Client) (j : ℕ), s.Ready → s.nextNumber = first → j < asks.length →
    bytesOf (replies.take j) <+: s.unread →
      s.sent ++ bytesOf (Ask.numbered first (asks.take (j + 1))) <+: (c.state s).sent

namespace Says

variable {first : UInt64} {c : Call DeviceError Client α} {asks asks' : List Ask}
  {replies replies' : List Packet} {a : α} {b : β} {r : Except DeviceError α}

theorem pure (a : α) : Says first (Pure.pure a) [] [] a where
  heard _ _ hs _ _ := ⟨rfl, .nil rfl rfl rfl id, hs⟩
  said _ _ _ _ h := absurd h (Nat.not_lt_zero _)

/-- A call behind another one: what the first one says comes first. -/
theorem bind {f : α → Call DeviceError Client β} (h : Says first c asks replies a)
    (hlength : replies.length = asks.length)
    (h' : Says (first + UInt64.ofNat asks.length) (f a) asks' replies' b)
    (hf : ∀ a, Call.Respects Client.Extends (f a)) :
    Says first (c >>= f) (asks ++ asks') (replies ++ replies') b where
  heard s rest hs hfirst hunread := by
    rw [Packet.bytesOf_append, List.append_assoc] at hunread
    rw [Call.ends_bind]
    refine (h.heard s _ hs hfirst hunread).mono ?_ fun _ _ h => h
    rintro _ t ⟨rfl, hx, ht⟩
    have hunread' : t.unread = bytesOf replies' ++ rest :=
      List.append_cancel_left (hx.taken.symm.trans hunread)
    refine (h'.heard t rest ht (by rw [hx.next, hfirst]) hunread').mono ?_ fun _ _ h => h
    rintro _ u ⟨rfl, hx', hu⟩
    exact ⟨rfl, hx.trans hx', hu⟩
  said s j hs hfirst hj hunread := by
    by_cases hlt : j < asks.length
    · -- The first call is still under way.
      rw [List.take_append_of_le_length (by omega)] at hunread ⊢
      exact (h.said s j hs hfirst hlt hunread).trans (respects_state_bind hf s)
    · obtain ⟨i, rfl⟩ := Nat.exists_eq_add_of_le (Nat.le_of_not_lt hlt)
      rw [List.length_append] at hj
      have htake : (replies ++ replies').take (asks.length + i) = replies ++ replies'.take i := by
        rw [← hlength, List.take_length_add_append]
      rw [htake, Packet.bytesOf_append] at hunread
      obtain ⟨rest, hrest⟩ := hunread
      rw [List.append_assoc] at hrest
      have hends := h.heard s _ hs hfirst hrest.symm
      unfold Call.Ends at hends
      split at hends
      · next b t hc =>
        obtain ⟨rfl, hx, ht⟩ := hends
        have hunread' : t.unread = bytesOf (replies'.take i) ++ rest :=
          List.append_cancel_left (hx.taken.symm.trans hrest.symm)
        have hsaid := h'.said t i ht (by rw [hx.next, hfirst]) (by omega)
          ⟨rest, hunread'.symm⟩
        have hstate : (c >>= f).state s = (f b).state t := by
          simp only [Call.state, Bind.bind, EStateM.bind, hc]
        rw [hstate, Nat.add_assoc, List.take_length_add_append, Ask.numbered_append,
          Packet.bytesOf_append, ← List.append_assoc]
        rw [hx.sent, hfirst] at hsaid
        exact hsaid
      · exact hends.elim

theorem map (g : α → β) (h : Says first c asks replies a) :
    Says first (c >>= fun a => Pure.pure (g a)) asks replies (g a) where
  heard s rest hs hfirst hunread := by
    rw [Call.ends_bind]
    refine (h.heard s rest hs hfirst hunread).mono ?_ fun _ _ h => h
    rintro _ t ⟨rfl, hx⟩
    exact ⟨rfl, hx⟩
  said s j hs hfirst hj hunread :=
    (h.said s j hs hfirst hj hunread).trans
      (respects_state_bind (fun _ => (Call.Respects.pure _ : Call.Respects Client.Extends _)) s)

/-- To keep track of open files says nothing. -/
theorem modify (f : Client → List UInt64) :
    Says first (modifyThe Client fun client => { client with openFiles := f client }) [] []
      ⟨⟩ where
  heard _ _ hs _ _ := ⟨rfl, .nil rfl rfl rfl id, hs.isOpen, hs.allowance⟩
  said _ _ _ _ h := absurd h (Nat.not_lt_zero _)

theorem ofExcept (h : r = .ok a) : Says first (Call.ofExcept r) [] [] a := by
  rw [h]
  exact pure a

/-- A request says what it asks, and returns the reply unless that reports a failure. -/
theorem request {operation : Operation} {lead content : Bytes} {p : Packet} (hp : p.IsReply)
    (hf : Client.failureOf p = .ok ()) :
    Says first (Client.request operation lead content) [⟨operation, lead, content⟩] [p] p where
  heard s rest hs _ hunread := by
    rw [Packet.bytesOf_cons, Packet.bytesOf_nil, List.append_nil] at hunread
    -- The packet that is taken is the one that has arrived.
    have heq (q : Packet) (t : Client)
        (hx : Exchanged [⟨operation, lead, content⟩] [q] s t) : q = p := by
      have htaken := hx.taken.symm.trans hunread
      rw [Packet.bytesOf_cons, Packet.bytesOf_nil, List.append_nil] at htaken
      exact (Packet.toBytes_append_inj (hx.isReply q List.mem_cons_self).toFits hp.toFits htaken).1
    refine (Client.ends_request operation lead content (.inl ⟨p, rest, hp, hunread⟩)).mono ?_ ?_
    · rintro q t ⟨-, hx, ht⟩
      obtain rfl := heq q t hx
      exact ⟨rfl, hx, ht hs⟩
    · rintro halt t (⟨q, e, hfail, rfl, hx⟩ | ⟨-, -, hcut⟩)
      · rw [heq q t hx, hf] at hfail
        cases hfail
      · exact Packet.not_cut_toBytes hp (hunread ▸ hcut hs)
  said s j hs hfirst hj _ := by
    obtain rfl : j = 0 := by simpa using hj
    refine Call.Ends.state (P := fun t : Client => s.sent ++ bytesOf _ <+: t.sent) ?_
    rw [Client.request, Call.ends_bind, Call.ends_get, Call.ends_bind, Call.ends_modify,
      Call.ends_bind]
    refine (Client.ends_send _ { s with nextNumber := s.nextNumber + 1 }).mono
      (fun _ t ht => ?_) fun _ t ht => ?_
    · obtain ⟨-, hsent, -⟩ := ht
      have hprefix : s.sent ++ bytesOf (Ask.numbered first [⟨operation, lead, content⟩]) <+:
          t.sent := by
        rw [hsent, ← hfirst]
        simp [Ask.numbered, Ask.packet, Client.sent]
      exact (Client.extends_receive t).mono (fun _ _ h => hprefix.trans h)
        fun _ _ h => hprefix.trans h
    · obtain ⟨hunable, -, hstill⟩ := ht
      exact absurd (hstill.ready ⟨hs.isOpen, hs.allowance⟩).canSend hunable

/-- To have an error handed over does not matter where there is none. -/
theorem attempt (h : Says first c asks replies a) :
    Says first (Call.attempt c : Call DeviceError Client (Except DeviceError α)) asks replies
      (.ok a) where
  heard s rest hs hfirst hunread := by
    rw [Call.ends_attempt]
    refine (h.heard s rest hs hfirst hunread).mono ?_ fun _ _ h => h.elim
    rintro _ t ⟨rfl, hx⟩
    exact ⟨rfl, hx⟩
  said s j hs hfirst hj hunread := by
    have hstate : (Call.attempt c : Call DeviceError Client (Except DeviceError α)).state s =
        c.state s := by
      simp only [Call.state, Call.attempt]
      rcases c s with _ | ⟨_ | _, _⟩ <;> rfl
    rw [hstate]
    exact h.said s j hs hfirst hj hunread

/-- What a call says depends on what it does in each state. -/
theorem congr (h : ∀ s, ∃ c', c s = c' s ∧ Says first c' asks replies a) :
    Says first c asks replies a where
  heard s rest hs hfirst hunread := by
    obtain ⟨c', hc, h⟩ := h s
    rw [Call.Ends, hc]
    exact h.heard s rest hs hfirst hunread
  said s j hs hfirst hj hunread := by
    obtain ⟨c', hc, h⟩ := h s
    rw [Call.state, hc]
    exact h.said s j hs hfirst hj hunread

end Says

/-! ### Devices -/

/-- A device answers each packet with one packet. -/
structure Device where
  State : Type
  answer : State → Packet → Packet × State
  isReply : ∀ w q, (answer w q).1.IsReply

namespace Device

/-- The answers to packets, one after the other. -/
def replies (d : Device) : d.State → List Packet → List Packet
  | _, [] => []
  | w, q :: qs => (d.answer w q).1 :: replies d (d.answer w q).2 qs

/-- The state behind them. -/
def after (d : Device) : d.State → List Packet → d.State
  | w, [] => w
  | w, q :: qs => after d (d.answer w q).2 qs

variable {d : Device} {w w' w'' : d.State} {qs qs' : List Packet}

@[simp] theorem length_replies (d : Device) (w : d.State) (qs : List Packet) :
    (d.replies w qs).length = qs.length := by
  induction qs generalizing w with
  | nil => rfl
  | cons q qs ih => simp [replies, ih]

theorem replies_append (w : d.State) (qs qs' : List Packet) :
    d.replies w (qs ++ qs') = d.replies w qs ++ d.replies (d.after w qs) qs' := by
  induction qs generalizing w with
  | nil => rfl
  | cons q qs ih => simp [replies, after, ih]

theorem after_append (w : d.State) (qs qs' : List Packet) :
    d.after w (qs ++ qs') = d.after (d.after w qs) qs' := by
  induction qs generalizing w with
  | nil => rfl
  | cons q qs ih => simp [after, ih]

/-- In a state `w` of the device a client hears `bs` in a call: these are the answers to what the
call sends on hearing them. -/
def Answers (d : Device) (w : d.State) (c : Call DeviceError Client α) (s : Client)
    (bs : Bytes) : Prop :=
  ∃ qs : List Packet, (∀ q ∈ qs, q.Fits) ∧ (c.state (s.hear bs)).sent = s.sent ++ bytesOf qs ∧
    bs = bytesOf (d.replies w qs)

/-- There is one conversation of the call with the device. The call returns some `a`, it makes
some requests, the device is left in some state, and these are as in `Q`. -/
def Leads (d : Device) (w : d.State) (c : Call DeviceError Client α) (s : Client)
    (Q : α → List Packet → d.State → Prop) : Prop :=
  ∃ (bs : Bytes) (a : α) (qs : List Packet), (∀ bs', d.Answers w c s bs' ↔ bs' = bs) ∧
    (∀ q ∈ qs, q.Fits) ∧ (c.state (s.hear bs)).sent = s.sent ++ bytesOf qs ∧
    c.result (s.hear bs) = .ok a ∧ Q a qs (d.after w qs)

/-- Made by a client that is ready, with this number for the first request, in a state `w` of the
device, the call makes these requests and returns `a`, and it leaves the device in `w'`. -/
structure Runs (d : Device) (w : d.State) (first : UInt64) (c : Call DeviceError Client α)
    (asks : List Ask) (a : α) (w' : d.State) : Prop where
  dialogue : Says first c asks (d.replies w (Ask.numbered first asks)) a
  fits : ∀ ask ∈ asks, ask.Fits
  after : d.after w (Ask.numbered first asks) = w'

namespace Runs

variable {first : UInt64} {c : Call DeviceError Client α} {asks asks' : List Ask} {a : α} {b : β}
  {r : Except DeviceError α} {s : Client}

theorem pure (a : α) : d.Runs w first (Pure.pure a) [] a w :=
  ⟨.pure a, by simp, rfl⟩

theorem bind {f : α → Call DeviceError Client β} (h : d.Runs w first c asks a w')
    (h' : d.Runs w' (first + UInt64.ofNat asks.length) (f a) asks' b w'')
    (hf : ∀ a, Call.Respects Client.Extends (f a)) :
    d.Runs w first (c >>= f) (asks ++ asks') b w'' where
  dialogue := by
    rw [Ask.numbered_append, replies_append, h.after]
    exact h.dialogue.bind (by simp) h'.dialogue hf
  fits := by
    simp only [List.mem_append]
    exact fun ask hask => hask.elim (h.fits ask) (h'.fits ask)
  after := by rw [Ask.numbered_append, after_append, h.after, h'.after]

/-- What is done with the value of a call. -/
theorem map (g : α → β) (h : d.Runs w first c asks a w') :
    d.Runs w first (c >>= fun a => Pure.pure (g a)) asks (g a) w' :=
  ⟨h.dialogue.map g, h.fits, h.after⟩

theorem modify (f : Client → List UInt64) :
    d.Runs w first (modifyThe Client fun client => { client with openFiles := f client }) [] ⟨⟩ w :=
  ⟨.modify f, by simp, rfl⟩

theorem ofExcept (h : r = .ok a) : d.Runs w first (Call.ofExcept r) [] a w :=
  ⟨.ofExcept h, by simp, rfl⟩

theorem attempt (h : d.Runs w first c asks a w') :
    d.Runs w first (Call.attempt c : Call DeviceError Client (Except DeviceError α)) asks (.ok a)
      w' :=
  ⟨h.dialogue.attempt, h.fits, h.after⟩

/-- A request that the device does not fail. -/
theorem request {operation : Operation} {lead content : Bytes}
    (hfits : headerLength + lead.length + content.length < 2 ^ 64)
    (hf : Client.failureOf (d.answer w (.make operation first lead content)).1 = .ok ()) :
    d.Runs w first (Client.request operation lead content) [⟨operation, lead, content⟩]
      (d.answer w (.make operation first lead content)).1
      (d.answer w (.make operation first lead content)).2 :=
  ⟨.request (d.isReply _ _) hf, by simpa [Ask.Fits] using hfits, rfl⟩

/-- What a call hears in a conversation starts with the replies to what it says. -/
theorem replies_prefix (h : d.Runs w s.nextNumber c asks a w') (hs : s.Ready)
    (hunread : s.unread = []) {bs : Bytes} (hbs : d.Answers w c s bs) (j : ℕ)
    (hj : j ≤ asks.length) :
    bytesOf (d.replies w (Ask.numbered s.nextNumber (asks.take j))) <+: bs := by
  obtain ⟨qs, hqs, hsent, rfl⟩ := hbs
  induction j with
  | zero => exact List.nil_prefix
  | succ j ih =>
    -- With the replies before, the next request was sent, and so it was answered.
    have htake : (d.replies w (Ask.numbered s.nextNumber asks)).take j =
        d.replies w (Ask.numbered s.nextNumber (asks.take j)) := by
      rw [← List.take_append_drop j asks, Ask.numbered_append, replies_append]
      rw [List.take_append_of_le_length (by simp; omega), List.take_of_length_le (by simp)]
      simp
    have hheard : bytesOf ((d.replies w (Ask.numbered s.nextNumber asks)).take j) <+:
        (s.hear (bytesOf (d.replies w qs))).unread := by
      rw [htake, Client.unread_hear, hunread, List.nil_append]
      exact ih (by omega)
    have hsaid := h.dialogue.said _ j (hs.hear _) rfl (by omega) hheard
    rw [hsent, Client.sent_hear] at hsaid
    obtain ⟨more, rfl⟩ := Packet.prefix_of_bytesOf_prefix
      (Ask.fits_numbered fun ask hask => h.fits ask (List.mem_of_mem_take hask)) hqs
      ((List.prefix_append_right_inj _).1 hsaid)
    rw [replies_append, Packet.bytesOf_append]
    exact List.prefix_append _ _

/-- What the client has sent and the value of the call, where more than the replies may arrive. -/
theorem result_of_eq (h : d.Runs w s.nextNumber c asks a w') (hs : s.Ready)
    (hunread : s.unread = []) {bs rest : Bytes}
    (hbs : bs = bytesOf (d.replies w (Ask.numbered s.nextNumber asks)) ++ rest) :
    c.result (s.hear bs) = .ok a ∧
      (c.state (s.hear bs)).sent = s.sent ++ bytesOf (Ask.numbered s.nextNumber asks) := by
  have hends := h.dialogue.heard (s.hear bs) rest (hs.hear _) rfl (by simp [hunread, hbs])
  refine Call.Ends.of_result (P := fun r t => r = .ok a ∧
    t.sent = s.sent ++ bytesOf (Ask.numbered s.nextNumber asks)) (hends.mono ?_ fun _ _ h => h.elim)
  rintro _ t ⟨rfl, hx, -⟩
  exact ⟨rfl, hx.sent⟩

/-- There is one conversation: what the call hears is what the device says to its requests. -/
theorem leads (h : d.Runs w s.nextNumber c asks a w') (hs : s.Ready) (hunread : s.unread = [])
    {Q : α → List Packet → d.State → Prop} (hQ : Q a (Ask.numbered s.nextNumber asks) w') :
    d.Leads w c s Q := by
  have hfits : ∀ q ∈ Ask.numbered s.nextNumber asks, q.Fits := Ask.fits_numbered h.fits
  obtain ⟨hresult, hsent⟩ := h.result_of_eq hs hunread (List.append_nil _).symm
  refine ⟨_, a, _, fun bs => ⟨fun hbs => ?_, ?_⟩, hfits, hsent, hresult, h.after.symm ▸ hQ⟩
  · have hprefix := h.replies_prefix hs hunread hbs asks.length (Nat.le_refl _)
    rw [List.take_length] at hprefix
    obtain ⟨rest, hrest⟩ := hprefix
    obtain ⟨qs, hqs, hsent', rfl⟩ := hbs
    rw [(h.result_of_eq hs hunread hrest.symm).2] at hsent'
    rw [Packet.bytesOf_inj hqs hfits (List.append_cancel_left hsent').symm]
  · rintro rfl
    exact ⟨_, hfits, hsent, rfl⟩

end Runs

end Device

end Afc

end Tether
