import Tether.Proofs.Service.Lost
import Tether.Provider

/-!
# No service without a secured connection

The usual way to a service asks lockdown for the version of the device and for a session, and goes
on only once the connection to lockdown is secured. If the device does not offer that, or it does
not succeed, the way ends there: with an error, with nothing else asked for and no other port
dialled. What the device sends in between does not matter.

* `Transport.Says`, `Connection.Says`: a call says some bytes, or as many of them as can be written;
* `Lockdown.ends_negotiate`: what lockdown was asked for in such a case;
* `Journey.connect_of_not_secures`: what came of the provider.
-/

namespace Tether

/-! ## What a call says -/

namespace Transport

variable {t u v : Transport} {bs bs' : Bytes} {α β : Type}

/-- Writes fail at once. -/
def IsMute (t : Transport) : Prop :=
  ∃ fault, t.allowance = some (0, fault)

/-- From `t` to `u` these bytes were written, or as many of them as writing went well for. -/
structure Said (bs : Bytes) (t u : Transport) : Prop where
  ending : u.ending = t.ending
  sent : ∃ said, said <+: bs ∧ u.sent = t.sent ++ said ∧ (said = bs ∨ u.IsMute)
  mute : t.IsMute → u.sent = t.sent ∧ u.IsMute

theorem Said.of_eq (hending : u.ending = t.ending) (hsent : u.sent = t.sent)
    (hallowance : u.allowance = t.allowance) : Said [] t u where
  ending := hending
  sent := ⟨[], List.prefix_refl _, by simp [hsent], .inl rfl⟩
  mute h := ⟨hsent, by simpa [IsMute, hallowance] using h⟩

theorem Said.trans (h : Said bs t u) (h' : Said bs' u v) : Said (bs ++ bs') t v where
  ending := h'.ending.trans h.ending
  sent := by
    obtain ⟨said, hfront, hsent, hwhole⟩ := h.sent
    obtain ⟨said', hfront', hsent', hwhole'⟩ := h'.sent
    rcases hwhole with rfl | hmute
    · refine ⟨said ++ said', (List.prefix_append_right_inj _).2 hfront', ?_, ?_⟩
      · rw [hsent', hsent, List.append_assoc]
      · exact hwhole'.imp (fun h => by rw [h]) id
    · -- Nothing was written behind what could not be written whole.
      obtain ⟨hnone, hmute'⟩ := h'.mute hmute
      exact ⟨said, hfront.trans (List.prefix_append _ _), hnone.trans hsent, .inr hmute'⟩
  mute ht := by
    obtain ⟨hsent, hmute⟩ := h.mute ht
    obtain ⟨hsent', hmute'⟩ := h'.mute hmute
    exact ⟨hsent'.trans hsent, hmute'⟩

/-- The call says these bytes, and waits only where the peer is silent. -/
def Says (bs : Bytes) (c : Call Fault Transport α) : Prop :=
  ∀ t, c.Ends t (fun _ u => Said bs t u)
    (fun h u => Said bs t u ∧ (h = .waiting → t.ending = .silent))

namespace Says

theorem pure (a : α) : Says [] (Pure.pure a : Call Fault Transport α) :=
  fun _ => .of_eq rfl rfl rfl

theorem fail (e : Fault) : Says [] (Call.fail e : Call Fault Transport α) :=
  fun _ => ⟨.of_eq rfl rfl rfl, nofun⟩

/-- Behind what was said nothing more is said. -/
theorem bind {c : Call Fault Transport α} {f : α → Call Fault Transport β} (hc : Says bs c)
    (hf : ∀ a, Says [] (f a)) : Says bs (c >>= f) := by
  intro t
  rw [Call.ends_bind]
  refine (hc t).mono (fun a u hu => ?_) fun _ _ h => h
  refine (hf a u).mono (fun _ v hv => ?_) fun h v hv => ?_
  · simpa using hu.trans hv
  · exact ⟨by simpa using hu.trans hv.1, fun hw => hu.ending ▸ hv.2 hw⟩

end Says

theorem says_read (most : Nat) : Says [] (read most) := by
  intro t
  unfold Call.Ends read
  by_cases hm : most = 0
  · simpa [hm] using Said.of_eq rfl rfl rfl
  · by_cases hu : t.unread.isEmpty
    · cases he : t.ending with
      | closed => simpa [hm, hu] using Said.of_eq rfl rfl rfl
      | silent => simpa [hm, hu, he] using Said.of_eq rfl rfl rfl
      | broken fault => simpa [hm, hu] using Said.of_eq rfl rfl rfl
    · simp only [hm, hu, if_false, Bool.false_eq_true]
      exact .of_eq rfl rfl rfl

theorem says_readMore (fuel n : Nat) (seen : Bytes) : Says [] (readMore fuel n seen) := by
  induction fuel generalizing n seen with
  | zero => exact .pure _
  | succ fuel ih =>
    unfold readMore
    split
    · exact .pure _
    · refine (says_read n).bind fun bs => ?_
      split
      · exact .fail _
      · exact ih _ _

/-- A write says its bytes. If it fails, nothing can be written behind it. -/
theorem ends_writeAll_said (bs : Bytes) (t : Transport) :
    (writeAll bs).Ends t (fun _ u => Said bs t u)
      (fun h u => Said bs t u ∧ u.IsMute ∧ h ≠ .waiting) := by
  unfold Call.Ends writeAll
  by_cases hbs : bs.isEmpty
  · rw [if_pos hbs]
    obtain rfl := List.isEmpty_iff.1 hbs
    exact .of_eq rfl rfl rfl
  · rw [if_neg hbs]
    have hpos : 0 < bs.length := List.length_pos_iff.2 (by simpa using hbs)
    cases ha : t.allowance with
    | none =>
      refine ⟨rfl, ⟨bs, List.prefix_refl _, by simp [Transport.sent], .inl rfl⟩, ?_⟩
      rintro ⟨fault, h⟩
      rw [ha] at h
      cases h
    | some allowance =>
      obtain ⟨left, fault⟩ := allowance
      by_cases hle : bs.length ≤ left
      · simp only [hle, if_true]
        refine ⟨rfl, ⟨bs, List.prefix_refl _, by simp [Transport.sent], .inl rfl⟩, ?_⟩
        rintro ⟨fault', h⟩
        rw [ha] at h
        simp only [Option.some.injEq, Prod.mk.injEq] at h
        omega
      · simp only [hle, if_false]
        refine ⟨⟨rfl, ⟨bs.take left, List.take_prefix _ _, ?_, .inr ⟨fault, rfl⟩⟩, ?_⟩,
          ⟨fault, rfl⟩, Halt.failed_ne_waiting _⟩
        · by_cases hleft : left = 0 <;> simp [hleft, Transport.sent]
        · rintro ⟨fault', h⟩
          rw [ha] at h
          simp only [Option.some.injEq, Prod.mk.injEq] at h
          exact ⟨by simp [h.1, Transport.sent], fault, rfl⟩

theorem says_writeAll₂ (bs bs' : Bytes) : Says (bs ++ bs') (do writeAll bs; writeAll bs') := by
  intro t
  rw [Call.ends_bind]
  refine (ends_writeAll_said bs t).mono (fun _ u hu => ?_) ?_
  · refine (ends_writeAll_said bs' u).mono (fun _ v hv => hu.trans hv) ?_
    rintro h v ⟨hv, -, hw⟩
    exact ⟨hu.trans hv, fun h => absurd h hw⟩
  · rintro h u ⟨hu, hmute, hw⟩
    have hrest : Said bs' u u :=
      ⟨rfl, ⟨[], List.nil_prefix, by simp, .inr hmute⟩, fun _ => ⟨rfl, hmute⟩⟩
    exact ⟨hu.trans hrest, fun h => absurd h hw⟩

end Transport

namespace Connection

variable {s t u : Connection} {bs bs' : Bytes} {α β : Type}

/-- The bytes of a dictionary on its way. -/
def framed (d : Plist.Dictionary) : Bytes :=
  let body := Bytes.ofString (Plist.Xml.document (.dictionary d))
  Bytes.ofNatBE 4 body.length ++ body

/-- From `s` to `t` these bytes were written, or as many of them as writing went well for. -/
structure Said (bs : Bytes) (s t : Connection) : Prop where
  label : t.label = s.label
  isOpen : t.isOpen = s.isOpen
  opened : s.isOpen → s.transport.Said bs t.transport
  lost : s.isOpen = false → t.transport = s.transport

theorem Said.refl (s : Connection) : Said [] s s :=
  ⟨rfl, rfl, fun _ => .of_eq rfl rfl rfl, fun _ => rfl⟩

theorem Said.trans (h : Said bs s t) (h' : Said bs' t u) : Said (bs ++ bs') s u where
  label := h'.label.trans h.label
  isOpen := h'.isOpen.trans h.isOpen
  opened hs := (h.opened hs).trans (h'.opened (h.isOpen.trans hs))
  lost hs := (h'.lost (h.isOpen.trans hs)).trans (h.lost hs)

theorem Said.sent (h : Said bs s t) :
    ∃ said, said <+: bs ∧ t.transport.sent = s.transport.sent ++ said := by
  cases hs : s.isOpen with
  | true =>
    obtain ⟨said, hfront, hsent, -⟩ := (h.opened hs).sent
    exact ⟨said, hfront, hsent⟩
  | false => exact ⟨[], List.nil_prefix, by simp [h.lost hs]⟩

theorem Said.ending (h : Said bs s t) : t.transport.ending = s.transport.ending := by
  cases hs : s.isOpen with
  | true => exact (h.opened hs).ending
  | false => rw [h.lost hs]

/-- From `s` the call says these bytes, and waits only where the device is silent. -/
def SaysFrom (s : Connection) (bs : Bytes) (c : Call DeviceError Connection α) : Prop :=
  c.Ends s (fun _ t => Said bs s t)
    (fun h t => Said bs s t ∧ (h = .waiting → s.transport.ending = .silent))

/-- The call says these bytes, from any state. -/
def Says (bs : Bytes) (c : Call DeviceError Connection α) : Prop :=
  ∀ s, SaysFrom s bs c

theorem SaysFrom.bind {c : Call DeviceError Connection α} {f : α → Call DeviceError Connection β}
    (hc : SaysFrom s bs c) (hf : ∀ a, Says [] (f a)) : SaysFrom s bs (c >>= f) := by
  rw [SaysFrom, Call.ends_bind]
  refine Call.Ends.mono hc (fun a t ht => ?_) fun _ _ h => h
  refine (hf a t).mono (fun _ u hu => ?_) fun h u hu => ?_
  · simpa using ht.trans hu
  · exact ⟨by simpa using ht.trans hu.1, fun hw => ht.ending ▸ hu.2 hw⟩

namespace Says

theorem pure (a : α) : Says [] (Pure.pure a : Call DeviceError Connection α) :=
  fun s => .refl s

theorem fail (e : DeviceError) : Says [] (Call.fail e : Call DeviceError Connection α) :=
  fun s => ⟨.refl s, nofun⟩

theorem ofOption (e : DeviceError) (o : Option α) :
    Says [] (Call.ofOption e o : Call DeviceError Connection α) := by
  cases o with
  | none => exact fail e
  | some a => exact pure a

theorem bind {c : Call DeviceError Connection α} {f : α → Call DeviceError Connection β}
    (hc : Says bs c) (hf : ∀ a, Says [] (f a)) : Says bs (c >>= f) :=
  fun s => (hc s).bind hf

theorem onTransport {c : Call Fault Transport α} (hc : Transport.Says bs c) :
    Says bs (Connection.onTransport c) := by
  intro s
  cases hs : s.isOpen with
  | true =>
    rw [SaysFrom, Call.Ends, onTransport_open c hs, ← Call.Ends, Call.ends_zoom]
    have hsaid {u : Transport} (hu : s.transport.Said bs u) : Said bs s { s with transport := u } :=
      ⟨rfl, rfl, fun _ => hu, fun h => absurd h (by simp [hs])⟩
    refine (hc s.transport).mono (fun _ u hu => hsaid hu) fun h u hu => ?_
    cases h with
    | waiting => exact ⟨hsaid hu.1, fun _ => hu.2 rfl⟩
    | failed e => exact ⟨hsaid hu.1, (Halt.failed_ne_waiting _).elim⟩
  | false =>
    rw [SaysFrom, Call.Ends, onTransport_lost c hs]
    exact ⟨⟨rfl, rfl, fun h => absurd h (by simp [hs]), fun _ => rfl⟩,
      (Halt.failed_ne_waiting _).elim⟩

end Says

/-- What is read behind the length of a message. -/
theorem says_body (length : Nat) :
    Says [] (do
      let body ← readRaw length
      let d ← Call.ofOption .badPlist (Plist.dictionaryOfBytes? body)
      match reportedError? d with
      | some e => Call.fail e
      | none => return d) := by
  refine (Says.onTransport (Transport.says_readMore _ _ _)).bind fun body =>
    (Says.ofOption _ _).bind fun d => ?_
  cases reportedError? d with
  | some e => exact .fail e
  | none => exact .pure d

theorem says_receive : Says [] receive := by
  refine (Says.onTransport (Transport.says_readMore _ _ _)).bind fun bs => ?_
  dsimp only
  split
  · exact (Says.fail _).bind fun _ => says_body _
  · exact says_body _

theorem says_exchange {d : Plist.Dictionary} (hd : Plist.hasUidEntries d = false) :
    Says (framed d) (exchange d) := by
  have hwrite : Plist.Xml.write? (.dictionary d) =
      some (Bytes.ofString (Plist.Xml.document (.dictionary d))) := by
    simp [Plist.Xml.write?, Plist.hasUid, hd]
  refine Says.bind ?_ fun _ => says_receive
  intro s
  rw [send, hwrite]
  exact Says.onTransport (Transport.says_writeAll₂ _ _) s

end Connection

/-! ## Asking lockdown -/

namespace Lockdown

open Connection (framed Said SaysFrom Says)

variable {s t u : Connection}

theorem saysFrom_ask (name : String) {fields : Plist.Dictionary}
    (h : Plist.hasUidEntries fields = false) :
    SaysFrom s (framed (request s.label name fields)) (ask name fields) := by
  have hrequest : Plist.hasUidEntries (request s.label name fields) = false := h
  rw [ask, SaysFrom, Call.ends_bind, Call.ends_get]
  exact Connection.says_exchange hrequest s

/-- The question for the version of the device. -/
def versionRequest (label : String) : Plist.Dictionary :=
  request label "GetValue" [("Key", .string "ProductVersion")]

/-- The question for a session. -/
def sessionRequest (label : String) (record : PairingRecord) : Plist.Dictionary :=
  request label "StartSession" (identity record)

/-- Whatever the answer is, nothing is said about it. -/
theorem ends_version_said {answer : Except DeviceError Plist} {bs : Bytes} {t : Connection}
    (ht : Said bs s t) :
    (match answer with
      | .ok (.string version) => pure (isLegacyVersion version)
      | _ => pure false : Call DeviceError Connection Bool).Ends t (fun _ u => Said bs s u)
      (fun h u => Said bs s u ∧ (h = .waiting → s.transport.ending = .silent)) := by
  split <;> exact ht

/-- To find out whether a device is old, it is asked for its version. It does not matter what
becomes of that. -/
theorem saysFrom_isLegacy : SaysFrom s (framed (versionRequest s.label)) isLegacy := by
  have hvalue : SaysFrom s (framed (versionRequest s.label))
      (getValue (some "ProductVersion") none) := by
    have hfields : optionalText "Key" (some "ProductVersion") ++ optionalText "Domain" none =
        [("Key", .string "ProductVersion")] := rfl
    rw [getValue, hfields]
    exact (saysFrom_ask "GetValue" rfl).bind fun _ => .ofOption _ _
  rw [isLegacy, SaysFrom, Call.ends_bind, Call.ends_attempt]
  refine Call.Ends.mono hvalue (fun v t ht => ends_version_said ht) fun h t ht => ?_
  cases h with
  | failed e =>
    dsimp only
    exact ht.1
  | waiting => exact ht

/-- The device offers to secure the connection, and that succeeds. -/
def Secures (engine : Tls.Engine) (record : PairingRecord) (s : Connection) : Prop :=
  ∃ legacy s' answer t u, isLegacy s = .ok legacy s' ∧
    ask "StartSession" (identity record) s' = .ok answer t ∧ isOffered answer ∧
      Connection.secure engine record legacy t = .ok () u

/-- Set up with this record, the engine may go on for ever, although the peer does not fall silent. -/
def Stalls (engine : Tls.Engine) (record : PairingRecord) : Prop :=
  ∃ legacy config t, engine.configure record legacy = .ok config ∧ t.ending ≠ .silent ∧
    (engine.secure config).result t = .error .waiting

/-- From `s` to `t` the device was asked for its version and for a session, as far as that could be
written. Then nothing was said any more, or the connection went to the engine and is lost. -/
inductive Asked (engine : Tls.Engine) (record : PairingRecord) (s t : Connection) : Prop where
  | left (said : Bytes)
      (hfront : said <+: framed (versionRequest s.label) ++ framed (sessionRequest s.label record))
      (hsent : t.transport.sent = s.transport.sent ++ said)
  | lost (u : Connection) (legacy : Bool) (said : Bytes)
      (hfront : said <+: framed (versionRequest s.label) ++ framed (sessionRequest s.label record))
      (hsent : u.transport.sent = s.transport.sent ++ said)
      (ht : t = (Connection.secure engine record legacy).state u) (hlost : t.isOpen = false)

variable {engine : Tls.Engine} {record : PairingRecord} {legacy : Bool}

/-- Securing waits only where the peer falls silent, or where the engine goes on by itself. -/
theorem ends_secure_stalls (engine : Tls.Engine) (record : PairingRecord) (legacy : Bool)
    (s : Connection) :
    (Connection.secure engine record legacy).Ends s (fun _ _ => True)
      (fun h _ => h = .waiting → s.transport.ending = .silent ∨ Stalls engine record) := by
  rw [Connection.secure, Call.ends_bind, Call.ends_get]
  cases s.isOpen with
  | false => exact Call.ends_bind.2 (Halt.failed_ne_waiting _).elim
  | true =>
    refine Call.ends_bind.2 ?_
    rw [Call.ends_modify, Call.ends_bind]
    cases hconfig : engine.configure record legacy with
    | error e => exact (Halt.failed_ne_waiting _).elim
    | ok config =>
      rw [Call.ends_ofExcept_ok, Call.ends_bind, Call.ends_zoom]
      refine (Call.ends_self _ _).mono (fun _ _ _ => trivial) fun h t heq => ?_
      cases h with
      | failed e => exact fun h => absurd h (Halt.failed_ne_waiting _)
      | waiting =>
        intro _
        by_cases hsilent : s.transport.ending = .silent
        · exact .inl hsilent
        · exact .inr ⟨legacy, config, s.transport, hconfig, hsilent, by rw [Call.result, heq]⟩

theorem Asked.of_said (h : Said (framed (versionRequest s.label)) s t)
    (h' : Said (framed (sessionRequest t.label record)) t u) : Asked engine record s u := by
  rw [h.label] at h'
  obtain ⟨said, hfront, hsent⟩ := (h.trans h').sent
  exact .left said hfront hsent

/-- If the connection is not secured, lockdown is not asked for a service. -/
theorem ends_negotiate (service : String) (hsecures : ¬ Secures engine record s) :
    (Journey.negotiate engine record service).Ends s (fun _ _ => False)
      (fun halt t => Asked engine record s t ∧
        (halt = .waiting → s.transport.ending = .silent ∨ Stalls engine record)) := by
  rw [Journey.negotiate, Call.ends_bind]
  refine (Call.Ends.and saysFrom_isLegacy (Call.ends_self isLegacy s)).mono ?_ ?_
  · rintro legacy s' ⟨hs', hversion⟩
    rw [Call.ends_bind, startSession_eq, Call.ends_bind, Call.ends_get]
    cases ho : s'.isOpen with
    | false =>
      obtain ⟨said, hfront, hsent⟩ := hs'.sent
      exact Call.ends_bind.2 ⟨.left said (hfront.trans (List.prefix_append _ _)) hsent, nofun⟩
    | true =>
      refine Call.ends_bind.2 ?_
      have hasks : SaysFrom s' (framed (sessionRequest s'.label record))
          (ask "StartSession" (identity record)) :=
        saysFrom_ask "StartSession" rfl
      refine (hasks.and (Call.ends_self _ s')).mono ?_ ?_
      · rintro answer t ⟨ht, hanswer⟩
        by_cases hoffer : isOffered answer
        · -- The connection goes to the engine, and does not come back.
          rw [if_pos hoffer]
          refine (((Connection.ends_secure engine record legacy t).and
            (ends_secure_stalls engine record legacy t)).and
              ((Call.ends_state _ t).and (Call.ends_self _ t))).mono ?_ ?_
          · rintro _ u ⟨-, -, hsecure⟩
            exact absurd ⟨legacy, s', answer, t, u, hversion, hanswer, hoffer, hsecure⟩ hsecures
          · rintro halt u ⟨⟨hlost, hstalls⟩, hu, -⟩
            have hlabel : s'.label = s.label := hs'.label
            obtain ⟨said, hfront, hsent⟩ := (hs'.trans ht).sent
            rw [hlabel] at hfront
            refine ⟨.lost t legacy said hfront hsent hu hlost, fun h => ?_⟩
            rw [← (hs'.trans ht).ending]
            exact hstalls h
        · rw [if_neg hoffer]
          exact ⟨.of_said hs' ht, nofun⟩
      · rintro halt t ⟨⟨ht, hwaits⟩, -⟩
        exact ⟨.of_said hs' ht, fun h => .inl (hs'.ending ▸ hwaits h)⟩
  · rintro halt t ⟨⟨ht, hwaits⟩, -⟩
    obtain ⟨said, hfront, hsent⟩ := ht.sent
    exact ⟨.left said (hfront.trans (List.prefix_append _ _)) hsent, fun h => .inl (hwaits h)⟩

end Lockdown

/-! ## The way to a service -/

namespace Journey

variable {α : Type} {j : Journey} {engine : Tls.Engine}

theorem ends_talk {c : Connection} {call : Call DeviceError Connection α}
    {Q : α × Connection → Journey → Prop} {E : Halt DeviceError → Journey → Prop} :
    (talk c call).Ends j Q E ↔
      call.Ends c (fun a t => Q (a, t) { j with connections := j.connections ++ [t] })
        (fun h t => E h { j with connections := j.connections ++ [t] }) := by
  unfold Call.Ends talk
  cases call c <;> rfl

/-- The connection to lockdown that would be opened over a transport. -/
def lockdownOver (j : Journey) (t : Transport) : Connection :=
  { transport := t, label := j.provider.label }

/-- What came of a provider whose lockdown could not be asked over a secured connection. Only the
port of lockdown was dialled, if any, and only once. -/
inductive Abandoned (engine : Tls.Engine) (j j' : Journey) : Prop where
  | unasked (hprovider : j'.provider = j.provider)
      (hports : j'.ports = j.ports ∨ j'.ports = j.ports ++ [Lockdown.port])
      (hconnections : j'.connections = j.connections)
  | asked (record : PairingRecord) (t : Transport) (c : Connection)
      (hprovider : j'.provider = j.provider)
      (hrecord : j.provider.record = .ok record)
      (hports : j'.ports = j.ports ++ [Lockdown.port])
      (hdial : j.provider.dial j.ports.length Lockdown.port = .ok t)
      (hconnections : j'.connections = j.connections ++ [c])
      (hasked : Lockdown.Asked engine record (j.lockdownOver t) c)

/-- Without a secured connection to lockdown there is no way to a service: it ends with an error,
unless the device falls silent or the engine goes on by itself for ever, and nothing but the first
two questions was sent. -/
theorem connect_of_not_secures (service : String) (welcome : Call DeviceError Connection α)
    (hsecures : ∀ record t, j.provider.record = .ok record →
      j.provider.dial j.ports.length Lockdown.port = .ok t →
        ¬ Lockdown.Secures engine record (j.lockdownOver t)) :
    (connect engine service welcome).Ends j (fun _ _ => False)
      (fun halt j' => Abandoned engine j j' ∧
        (halt = .waiting →
          (∃ record, j.provider.record = .ok record ∧ Lockdown.Stalls engine record) ∨
            ∃ t, j.provider.dial j.ports.length Lockdown.port = .ok t ∧ t.ending = .silent)) := by
  rw [connect, Call.ends_bind, Call.ends_get, Call.ends_bind]
  cases hrecord : j.provider.record with
  | error e => exact ⟨.unasked rfl (.inl rfl) rfl, nofun⟩
  | ok record =>
    rw [Call.ends_ofExcept_ok, Call.ends_bind, dial, Call.ends_bind, Call.ends_get, Call.ends_bind,
      Call.ends_set, Call.ends_bind]
    cases hdial : j.provider.dial j.ports.length Lockdown.port with
    | error e => exact ⟨.unasked rfl (.inr rfl) rfl, nofun⟩
    | ok t =>
      rw [Call.ends_ofExcept_ok, Call.ends_pure, Call.ends_bind, ends_talk]
      refine (Lockdown.ends_negotiate service (hsecures record t hrecord hdial)).mono
        (fun _ _ => False.elim) ?_
      rintro halt c ⟨hasked, hwaits⟩
      refine ⟨.asked record t c rfl hrecord rfl hdial rfl hasked, fun h => ?_⟩
      exact (hwaits h).symm.imp (fun hstalls => ⟨record, rfl, hstalls⟩) fun hsilent =>
        ⟨t, rfl, hsilent⟩

/-- A device that answers the first question with a byte that means nothing and declines to secure
the connection. -/
def declining : Transport :=
  let answer := Plist.Binary.write (.dictionary [("EnableSessionSSL", .bool false)])
  { unread := Bytes.ofNatBE 4 1 ++ [0] ++ (Bytes.ofNatBE 4 answer.length ++ answer) }

/-- The use of a provider for this device. -/
def toDeclining : Journey :=
  { provider := .ofStreams "" (.ok Connection.keyless) [declining] }

/-- There is nothing to set an engine up with in a record without a key. -/
theorem not_stalls_keyless (hello : Bytes) :
    ¬ Lockdown.Stalls (.refused hello) Connection.keyless := by
  rintro ⟨legacy, config, t, hconfig, -, -⟩
  cases hconfig

set_option maxRecDepth 20000 in
theorem connect_of_not_secures_declining :
    (connect (.refused []) "com.apple.afc" (pure ())).Ends toDeclining (fun _ _ => False)
      (fun halt j => Abandoned (.refused []) toDeclining j ∧ halt ≠ .waiting) := by
  have hopened : toDeclining.provider.dial toDeclining.ports.length Lockdown.port = .ok declining :=
    rfl
  have hdeclines : ∀ record t, toDeclining.provider.record = .ok record →
      toDeclining.provider.dial toDeclining.ports.length Lockdown.port = .ok t →
        ¬ Lockdown.Secures (.refused []) record (toDeclining.lockdownOver t) := by
    rintro record t hrecord hdial ⟨legacy, s, answer, u, v, hversion, hanswer, hoffer, -⟩
    obtain rfl : Connection.keyless = record := Except.ok.inj hrecord
    obtain rfl : declining = t := Except.ok.inj (hopened.symm.trans hdial)
    have hs : s = Lockdown.isLegacy.state (toDeclining.lockdownOver declining) := by
      rw [Call.state, hversion]
    have hdeclined : (Lockdown.ask "StartSession" (Lockdown.identity Connection.keyless)).result
        (Lockdown.isLegacy.state (toDeclining.lockdownOver declining)) =
          .ok [("EnableSessionSSL", .bool false)] := by
      cbv
    rw [← hs, Call.result, hanswer] at hdeclined
    obtain rfl : answer = [("EnableSessionSSL", .bool false)] := by simpa using hdeclined
    exact absurd hoffer (by decide)
  -- The device is kept apart from here on, so that nothing is run on it.
  generalize hj : toDeclining = j at hdeclines hopened ⊢
  refine (connect_of_not_secures "com.apple.afc" (pure ()) hdeclines).mono (fun _ _ => id) ?_
  rintro halt j' ⟨habandoned, hwaits⟩
  refine ⟨habandoned, fun h => ?_⟩
  obtain ⟨record, hrecord, hstalls⟩ | ⟨t, hdial, hsilent⟩ := hwaits h
  · subst hj
    obtain rfl : Connection.keyless = record := Except.ok.inj hrecord
    exact not_stalls_keyless [] hstalls
  · obtain rfl : declining = t := Except.ok.inj (hopened.symm.trans hdial)
    cases hsilent

end Journey

end Tether
