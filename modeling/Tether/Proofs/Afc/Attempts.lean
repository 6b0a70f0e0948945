import Tether.Proofs.Afc.Calls
import Tether.Proofs.Afc.Closing
import Tether.Proofs.Afc.Conversation

/-!
# Accounts of what a client does

The account of a client is a list of events: the requests it tried and what became of each, and
the files it opened. Numbers and open files can be read off it. The `n`-th request that was tried
has the number `n`, also where only a part of it or nothing could be written; a file is open if no
attempt to close it came to an end since it was last opened.

A call of the service *follows a plan*: it tries the requests of the plan in turn. Whatever the
device sends and whatever the transport does, a call that returns has tried all of them, and one
that halts did so at the last one that it tried.

* `onWire`, `IsOpen`: what an account says about the bytes on the wire and about open files;
* `Accounts.trans`: accounts one behind the other;
* `Follows.bind`, `follows_request`: how calls follow plans;
* `Command.ends_accounts`: the plans of all calls of the service.
-/

namespace Tether

namespace Transport

/-- Where a write fails, the first of the bytes are written. -/
theorem ends_writeAll_forM_cut (bss : List Bytes) (t : Transport) :
    (bss.forM writeAll).Ends t (fun _ u => u.sent = t.sent ++ bss.flatten)
      (fun _ u => ∃ n, n < bss.flatten.length ∧ u.sent = t.sent ++ bss.flatten.take n) := by
  induction bss generalizing t with
  | nil => exact (List.append_nil _).symm
  | cons bs bss ih =>
    have hwrite : (writeAll bs).Ends t (fun _ u => u.sent = t.sent ++ bs)
        (fun _ u => ∃ n, n < bs.length ∧ u.sent = t.sent ++ bs.take n) := by
      unfold Call.Ends writeAll
      by_cases hbs : bs.isEmpty
      · rw [if_pos hbs]
        simp [List.isEmpty_iff.1 hbs]
      · rw [if_neg hbs]
        cases t.allowance with
        | none => simp [sent]
        | some allowed =>
          obtain ⟨left, fault⟩ := allowed
          by_cases hle : bs.length ≤ left
          · simp [hle, sent]
          · simp only [hle, if_false]
            refine ⟨left, by omega, ?_⟩
            by_cases hleft : left = 0 <;> simp [hleft, sent]
    rw [List.forM, Call.ends_bind, List.flatten_cons]
    refine hwrite.mono (fun _ u hu => ?_) ?_
    · refine (ih u).mono (fun _ v hv => by rw [hv, hu, List.append_assoc]) ?_
      rintro _ v ⟨n, hn, hv⟩
      refine ⟨bs.length + n, by rw [List.length_append]; omega, ?_⟩
      rw [hv, hu, List.take_length_add_append, List.append_assoc]
    · rintro _ u ⟨n, hn, hu⟩
      refine ⟨n, by rw [List.length_append]; omega, ?_⟩
      rw [hu, List.take_append_of_le_length hn.le]

end Transport

namespace Afc

/-! ## Accounts -/

/-- What became of a request that was tried. -/
inductive Fate where
  /-- It was written, and there was a reply or receiving one failed. -/
  | ended
  /-- Writing it failed behind so many bytes. -/
  | cut (written : ℕ)
  /-- It was written and then given up, while its reply was waited for. -/
  | abandoned
  deriving DecidableEq, Repr

/-- A request that was tried. -/
structure Attempt where
  ask : Ask
  fate : Fate
  deriving DecidableEq, Repr

namespace Attempt

/-- What there is of the request on the wire, if it has this number. -/
def bytes (a : Attempt) (number : UInt64) : Bytes :=
  match a.fate with
  | .cut written => (a.ask.packet number).toBytes.take written
  | _ => (a.ask.packet number).toBytes

theorem bytes_of_ne_cut {ask : Ask} {fate : Fate} (h : ∀ n, fate ≠ .cut n) (number : UInt64) :
    bytes ⟨ask, fate⟩ number = (ask.packet number).toBytes := by
  cases fate with
  | cut n => exact absurd rfl (h n)
  | ended => rfl
  | abandoned => rfl

/-- What can have become of the request where a call halted at it. -/
def HaltsWith (a : Attempt) (h : Halt DeviceError) : Prop :=
  match a.fate with
  | .ended => h ≠ .waiting
  | .cut written => written < headerLength + a.ask.lead.length + a.ask.content.length ∧
      Connection.isLost h ∧ h ≠ .waiting
  | .abandoned => h = .waiting

/-- It was tried to close this file, and not given up. -/
def Closes (a : Attempt) (descriptor : UInt64) : Prop :=
  a.ask = .closing descriptor ∧ a.fate ≠ .abandoned

end Attempt

/-- What is kept account of. -/
inductive Event where
  | tried (a : Attempt)
  /-- An open came back with this descriptor. -/
  | opened (descriptor : UInt64)
  /-- Bytes of a packet that was sent by hand. -/
  | posted (bs : Bytes)
  deriving DecidableEq, Repr

namespace Event

/-- Whether a request was tried. -/
def isTried : Event → Bool
  | tried _ => true
  | _ => false

/-- A request that came to an end. -/
def ended (a : Ask) : Event :=
  tried ⟨a, .ended⟩

end Event

/-- What an account puts on the wire, if the first request has this number. -/
def onWire : UInt64 → List Event → Bytes
  | _, [] => []
  | number, .tried a :: log => a.bytes number ++ onWire (number + 1) log
  | number, .opened _ :: log => onWire number log
  | number, .posted bs :: log => bs ++ onWire number log

/-- No attempt to close this file came to an end. -/
def Spares (log : List Event) (descriptor : UInt64) : Prop :=
  ∀ a, Event.tried a ∈ log → ¬ a.Closes descriptor

/-- The file was opened, and no attempt to close it came to an end since. -/
def IsOpen (log : List Event) (descriptor : UInt64) : Prop :=
  ∃ before after, log = before ++ .opened descriptor :: after ∧ Spares after descriptor

variable {log log' : List Event} {descriptor number : UInt64} {s t u : Client} {a : Attempt}

theorem onWire_append (number : UInt64) (log log' : List Event) :
    onWire number (log ++ log') = onWire number log ++
      onWire (number + UInt64.ofNat (log.countP Event.isTried)) log' := by
  induction log generalizing number with
  | nil => simp [onWire]
  | cons e log ih =>
    cases e with
    | tried a =>
      rw [List.cons_append, onWire, onWire, ih, List.append_assoc,
        List.countP_cons_of_pos rfl, Ask.ofNat_succ, UInt64.add_assoc]
    | opened d => rw [List.cons_append, onWire, onWire, ih, List.countP_cons_of_neg (by simp [Event.isTried])]
    | posted bs =>
      rw [List.cons_append, onWire, onWire, ih, List.append_assoc,
        List.countP_cons_of_neg (by simp [Event.isTried])]

theorem spares_append :
    Spares (log ++ log') descriptor ↔ Spares log descriptor ∧ Spares log' descriptor := by
  simp only [Spares, List.mem_append, or_imp, forall_and]

/-- A file is open if it was opened in the end, or before and not closed since. -/
theorem isOpen_append :
    IsOpen (log ++ log') descriptor ↔
      IsOpen log' descriptor ∨ IsOpen log descriptor ∧ Spares log' descriptor := by
  constructor
  · rintro ⟨before, after, hlog, hspares⟩
    rcases List.append_eq_append_iff.1 hlog with ⟨mid, rfl, rfl⟩ | ⟨mid, rfl, hmid⟩
    · exact .inl ⟨mid, after, rfl, hspares⟩
    · cases mid with
      | nil => exact .inl ⟨[], after, hmid.symm, hspares⟩
      | cons e mid =>
        obtain ⟨rfl, rfl⟩ := List.cons.inj hmid
        obtain ⟨hmid, hlog'⟩ := spares_append.1 hspares
        exact .inr ⟨⟨before, mid, rfl, hmid⟩, hlog'⟩
  · rintro (⟨before, after, rfl, hspares⟩ | ⟨⟨before, after, rfl, hspares⟩, hspares'⟩)
    · exact ⟨log ++ before, after, (List.append_assoc _ _ _).symm, hspares⟩
    · exact ⟨before, after ++ log', by simp, spares_append.2 ⟨hspares, hspares'⟩⟩

theorem IsOpen.mem (h : IsOpen log descriptor) : .opened descriptor ∈ log := by
  obtain ⟨before, after, rfl, -⟩ := h
  simp

theorem not_isOpen_tried : ¬ IsOpen [.tried a] descriptor :=
  fun h => by simpa using h.mem

/-- The account of a client from `s` to `t`. -/
structure Accounts (log : List Event) (s t : Client) : Prop where
  sent : t.sent = s.sent ++ onWire s.nextNumber log
  number : t.nextNumber = s.nextNumber + UInt64.ofNat (log.countP Event.isTried)
  nodup : s.openFiles.Nodup → t.openFiles.Nodup
  isOpen : s.openFiles.Nodup → ∀ descriptor, descriptor ∈ t.openFiles ↔
    IsOpen log descriptor ∨ descriptor ∈ s.openFiles ∧ Spares log descriptor

namespace Accounts

/-- There is nothing to say where nothing changes that matters. -/
theorem nil (hsent : t.sent = s.sent) (hnumber : t.nextNumber = s.nextNumber)
    (hfiles : t.openFiles.Perm s.openFiles) : Accounts [] s t where
  sent := by simp [hsent, onWire]
  number := by simp [hnumber]
  nodup := hfiles.nodup_iff.2
  isOpen _ d := by simp [hfiles.mem_iff, IsOpen, Spares]

theorem refl (s : Client) : Accounts [] s s :=
  .nil rfl rfl (.refl _)

theorem trans (h : Accounts log s t) (h' : Accounts log' t u) : Accounts (log ++ log') s u where
  sent := by rw [h'.sent, h.sent, h.number, onWire_append, List.append_assoc]
  number := by
    rw [h'.number, h.number, List.countP_append, UInt64.ofNat_add, UInt64.add_assoc]
  nodup := h'.nodup ∘ h.nodup
  isOpen hs d := by
    rw [h'.isOpen (h.nodup hs), h.isOpen hs, isOpen_append, spares_append]
    tauto

/-- Bytes were sent by hand. -/
theorem posted {bs : Bytes} (hsent : t.sent = s.sent ++ bs)
    (hnumber : t.nextNumber = s.nextNumber) (hfiles : t.openFiles = s.openFiles) :
    Accounts [.posted bs] s t where
  sent := by simp [hsent, onWire]
  number := by simp [hnumber, Event.isTried]
  nodup hs := hfiles ▸ hs
  isOpen _ d := by
    have hnot : ¬ IsOpen [.posted bs] d := fun h => by simpa using h.mem
    simp [hfiles, hnot, Spares]

/-- A file was opened. -/
theorem opened (s : Client) (d : UInt64) :
    Accounts [.opened d] s { s with openFiles := s.openFiles.insert d } where
  sent := (List.append_nil _).symm
  number := by simp [Event.isTried]
  nodup := List.Nodup.insert
  isOpen _ d' := by
    have hopen : IsOpen [.opened d] d' ↔ d' = d :=
      ⟨fun h => by simpa using h.mem, fun h => ⟨[], [], by rw [h]; rfl, by simp [Spares]⟩⟩
    simp [hopen, Spares]

end Accounts

/-! ## Plans -/

/-- What a call tried that was to try these requests and halted so. It halted at the last request
that it tried, if it was to try any. -/
inductive Stopped (plan : List Ask) (h : Halt DeviceError) : List Event → Prop where
  | unasked (hplan : plan = []) (hh : h ≠ .waiting) : Stopped plan h []
  | during {asks : List Ask} {a : Attempt} (hplan : asks ++ [a.ask] <+: plan)
      (ha : a.HaltsWith h) : Stopped plan h (asks.map Event.ended ++ [.tried a])

/-- The call tries these requests in turn. -/
def Follows {α : Type} (plan : List Ask) (c : Call DeviceError Client α) : Prop :=
  ∀ s, c.Ends s (fun _ t => Accounts (plan.map Event.ended) s t)
    (fun h t => ∃ log, Stopped plan h log ∧ Accounts log s t)

variable {plan plan' : List Ask} {h : Halt DeviceError} {α β : Type}

/-- A call that fails has tried all it was to try, if it did not fail at a request. -/
theorem stopped_all (hh : h ≠ .waiting) : Stopped plan h (plan.map Event.ended) := by
  rcases plan.eq_nil_or_concat with rfl | ⟨asks, ask, rfl⟩
  · exact .unasked rfl hh
  · have ha : Attempt.HaltsWith ⟨ask, .ended⟩ h := hh
    simpa [Event.ended] using Stopped.during (List.prefix_refl _) ha

/-- A call that makes one request halts with it. -/
theorem stopped_single (ha : a.HaltsWith h) : Stopped [a.ask] h [.tried a] := by
  have hplan : [] ++ [a.ask] <+: [a.ask] := List.prefix_refl _
  exact .during hplan ha

theorem Stopped.append_right (h' : Stopped plan h log) (hplan : plan ≠ [] ∨ plan' = []) :
    Stopped (plan ++ plan') h log := by
  cases h' with
  | unasked hnil hh =>
    obtain rfl := hplan.resolve_left (not_not.2 hnil)
    exact .unasked (by simp [hnil]) hh
  | during hasks ha => exact .during (hasks.trans (List.prefix_append _ _)) ha

theorem Stopped.append_left (plan : List Ask) (h' : Stopped plan' h log) :
    Stopped (plan ++ plan') h (plan.map Event.ended ++ log) := by
  cases h' with
  | unasked hnil hh =>
    rw [hnil, List.append_nil, List.append_nil]
    exact stopped_all hh
  | @during asks a hasks ha =>
    have hplan : plan ++ asks ++ [a.ask] <+: plan ++ plan' := by
      rw [List.append_assoc]
      exact (List.prefix_append_right_inj _).2 hasks
    simpa using Stopped.during hplan ha

namespace Follows

theorem pure (a : α) : Follows [] (Pure.pure a : Call DeviceError Client α) :=
  fun s => .refl s

theorem ofExcept (r : Except DeviceError α) :
    Follows [] (Call.ofExcept r : Call DeviceError Client α) := by
  intro s
  cases r with
  | ok a => exact .refl s
  | error e => exact ⟨[], .unasked rfl (Halt.failed_ne_waiting e), .refl s⟩

/-- Plans one behind the other. The first call must fail at a request, if there are more behind. -/
theorem bind {c : Call DeviceError Client α} {f : α → Call DeviceError Client β}
    (hc : Follows plan c) (hf : ∀ a, Follows plan' (f a)) (hplan : plan ≠ [] ∨ plan' = []) :
    Follows (plan ++ plan') (c >>= f) := by
  intro s
  rw [Call.ends_bind]
  refine (hc s).mono (fun a t ht => ?_) ?_
  · refine (hf a t).mono (fun _ u hu => ?_) ?_
    · rw [List.map_append]
      exact ht.trans hu
    · rintro h u ⟨log, hstopped, hu⟩
      exact ⟨_, hstopped.append_left _, ht.trans hu⟩
  · rintro h t ⟨log, hstopped, ht⟩
    exact ⟨log, hstopped.append_right hplan, ht⟩

/-- Behind the requests there may be more to do. -/
theorem bind_done {c : Call DeviceError Client α} {f : α → Call DeviceError Client β}
    (hc : Follows plan c) (hf : ∀ a, Follows [] (f a)) : Follows plan (c >>= f) :=
  plan.append_nil ▸ hc.bind hf (.inr rfl)

theorem forM {ι : Type} {l : List ι} {f : ι → Call DeviceError Client PUnit} {ask : ι → Ask}
    (hf : ∀ i, Follows [ask i] (f i)) : Follows (l.map ask) (l.forM f) := by
  induction l with
  | nil => exact .pure _
  | cons i l ih => exact (hf i).bind (fun _ => ih) (.inl (List.cons_ne_nil _ _))

end Follows

/-! ## Requests -/

namespace Client

/-- From `s` to `t` a request was tried, with the next number. -/
structure Tried (a : Attempt) (s t : Client) : Prop where
  sent : t.sent = s.sent ++ a.bytes s.nextNumber
  number : t.nextNumber = s.nextNumber + 1
  openFiles : t.openFiles = s.openFiles

/-- Sending a packet puts its bytes on the wire, or where that fails the first of them. -/
theorem ends_send_cut (p : Packet) (s : Client) :
    (send p).Ends s (fun _ t => t.sent = s.sent ++ p.toBytes)
      (fun h t => h ≠ .waiting ∧ Connection.isLost h ∧
        ∃ n, n < p.toBytes.length ∧ t.sent = s.sent ++ p.toBytes.take n) := by
  by_cases ho : s.connection.isOpen
  · have hsent := Transport.ends_writeAll_forM_cut (pieces Connection.pieceSize p.toBytes)
      s.connection.transport
    rw [flatten_pieces] at hsent
    have hhalt := (ends_writeAll_forM (pieces Connection.pieceSize p.toBytes)
      s.connection.transport)
    rw [send, onConnection, Call.ends_zoom, Connection.sendRaw, Call.Ends,
      Connection.onTransport_open _ ho, ← Call.Ends, Call.ends_zoom]
    refine (hsent.and hhalt).mono (fun _ u hu => hu.1) ?_
    rintro _ u ⟨hu, -, fault, rfl, -⟩
    exact ⟨Halt.failed_ne_waiting _, rfl, hu⟩
  · rw [send, onConnection, Call.ends_zoom, Connection.sendRaw, Call.Ends,
      Connection.onTransport_lost _ (by simpa using ho)]
    exact ⟨Halt.failed_ne_waiting _, rfl, 0, List.length_pos_of_ne_nil p.toBytes_ne_nil, by simp⟩

/-- From `s` to `t` nothing was sent, and nothing was opened or closed. -/
structure Quiet (s t : Client) : Prop where
  sent : t.sent = s.sent
  number : t.nextNumber = s.nextNumber
  openFiles : t.openFiles = s.openFiles

instance isPreorder_quiet : IsPreorder Client Quiet where
  refl _ := ⟨rfl, rfl, rfl⟩
  trans _ _ _ h h' := ⟨h'.sent.trans h.sent, h'.number.trans h.number,
    h'.openFiles.trans h.openFiles⟩

theorem Quiet.accounts (h : Quiet s t) : Accounts [] s t :=
  .nil h.sent h.number (h.openFiles ▸ .refl _)

theorem quiet_receive : Call.Respects Quiet receive := by
  refine (Call.Respects.zoom Packet.consumes_receive fun s _ h => ?_).bind fun _ =>
    (Call.Respects.ofExcept _).bind fun _ => .pure _
  exact ⟨congrArg List.flatten h.written, rfl, rfl⟩

/-- A request is tried. If the call halts, it does so with what became of the request. -/
theorem ends_request_tried (ask : Ask) (s : Client) :
    (request ask.operation ask.lead ask.content).Ends s (fun _ t => Tried ⟨ask, .ended⟩ s t)
      (fun h t => ∃ fate, Attempt.HaltsWith ⟨ask, fate⟩ h ∧ Tried ⟨ask, fate⟩ s t) := by
  rw [request, Call.ends_bind, Call.ends_get, Call.ends_bind, Call.ends_modify, Call.ends_bind]
  let next : Client := { s with nextNumber := s.nextNumber + 1 }
  have hkeeps : Call.Respects (fun s t : Client => t.nextNumber = s.nextNumber ∧
      t.openFiles = s.openFiles) (send (ask.packet s.nextNumber)) :=
    (Call.Respects.top _).zoom fun _ _ _ => ⟨rfl, rfl⟩
  refine ((ends_send_cut (ask.packet s.nextNumber) next).and (hkeeps next)).mono ?_ ?_
  · rintro _ t ⟨hsent, hnumber, hfiles⟩
    have htried {fate : Fate} (hfate : ∀ n, fate ≠ .cut n) {u : Client} (hu : Quiet t u) :
        Tried ⟨ask, fate⟩ s u :=
      ⟨(hu.sent.trans hsent).trans (congrArg _ (Attempt.bytes_of_ne_cut hfate _).symm),
        hu.number.trans hnumber, hu.openFiles.trans hfiles⟩
    refine (quiet_receive t).mono (fun _ u hu => htried (by simp) hu) fun h u hu => ?_
    cases h with
    | failed e => exact ⟨.ended, Halt.failed_ne_waiting e, htried (by simp) hu⟩
    | waiting => exact ⟨.abandoned, rfl, htried (by simp) hu⟩
  · rintro h t ⟨⟨hh, hlost, n, hn, hsent⟩, hnumber, hfiles⟩
    refine ⟨.cut n, ⟨?_, hlost, hh⟩, hsent, hnumber, hfiles⟩
    rwa [Packet.length_toBytes] at hn

theorem Tried.accounts (h : Tried a s t) (ha : ∀ d, ¬ a.Closes d) :
    Accounts [.tried a] s t where
  sent := by simp [h.sent, onWire]
  number := h.number
  nodup hs := h.openFiles ▸ hs
  isOpen _ d := by simp [h.openFiles, not_isOpen_tried, Spares, ha d]

/-- A file that it was tried to close is forgotten. -/
theorem Tried.accounts_closing {d : UInt64} (h : Tried a s t) (ha : a.Closes d) :
    Accounts [.tried a] s { t with openFiles := t.openFiles.erase d } where
  sent := h.sent.trans (by simp [onWire])
  number := h.number
  nodup hs := (h.openFiles ▸ hs).erase d
  isOpen hs d' := by
    have hcloses : a.Closes d' ↔ d' = d := by
      refine ⟨fun h' => ?_, fun h => h ▸ ha⟩
      have heq := congrArg Ask.lead (h'.1.symm.trans ha.1)
      exact Bytes.word_inj heq
    rw [h.openFiles, hs.mem_erase_iff]
    simp [not_isOpen_tried, Spares, hcloses, and_comm]

theorem follows_request (operation : Operation) (lead content : Bytes)
    (ho : operation ≠ .fileClose) :
    Follows [⟨operation, lead, content⟩] (request operation lead content) := by
  intro s
  have hnot (fate : Fate) (d : UInt64) : ¬ Attempt.Closes ⟨⟨operation, lead, content⟩, fate⟩ d :=
    fun h => ho (congrArg Ask.operation h.1)
  refine (ends_request_tried ⟨operation, lead, content⟩ s).mono
    (fun _ t ht => ht.accounts (hnot _)) ?_
  rintro h t ⟨fate, hfate, ht⟩
  exact ⟨[.tried ⟨_, fate⟩], stopped_single hfate, ht.accounts (hnot _)⟩

theorem follows_order (operation : Operation) (lead : Bytes) (ho : operation ≠ .fileClose) :
    Follows [⟨operation, lead, []⟩] (order operation lead) :=
  (follows_request operation lead [] ho).bind_done fun _ => .pure _

/-- A file is forgotten with the attempt to close it, unless that is given up. -/
theorem follows_closeDescriptor (d : UInt64) : Follows [.closing d] (closeDescriptor d) := by
  intro s
  rw [closeDescriptor, Call.ends_bind, Call.ends_attempt]
  refine (ends_request_tried (.closing d) s).mono (fun p t ht => ?_) ?_
  · exact ht.accounts_closing ⟨rfl, by simp⟩
  · rintro h t ⟨fate, hfate, ht⟩
    have hstopped : Stopped [.closing d] h [.tried ⟨.closing d, fate⟩] :=
      stopped_single hfate
    cases h with
    | waiting =>
      refine ⟨_, hstopped, ht.accounts fun d' hd => hd.2 ?_⟩
      cases fate with
      | ended => exact absurd rfl hfate
      | cut n => exact absurd rfl hfate.2.2
      | abandoned => rfl
    | failed e =>
      refine ⟨_, hstopped, ht.accounts_closing ⟨rfl, ?_⟩⟩
      rintro rfl
      exact Halt.failed_ne_waiting e hfate

/-- Closing the connection sends nothing. -/
theorem follows_onConnection_close : Follows [] (onConnection Connection.close) := by
  intro s
  rw [onConnection, Call.ends_zoom]
  by_cases ho : s.connection.isOpen
  · refine (Connection.ends_close_open ho).mono ?_ ?_
    · rintro _ _ ⟨-, rfl⟩
      exact .nil rfl rfl (.refl _)
    · rintro _ _ ⟨fault, -, rfl, rfl⟩
      exact ⟨[], .unasked rfl (Halt.failed_ne_waiting _), .nil rfl rfl (.refl _)⟩
  · rw [Connection.close, Call.ends_bind, Call.ends_get, if_neg ho]
    exact .refl s

/-- Closing a client tries to close each file that is open. -/
theorem ends_close_accounts (s : Client) :
    close.Ends s (fun _ t => Accounts ((s.openFiles.map Ask.closing).map Event.ended) s t)
      (fun h t => ∃ log, Stopped (s.openFiles.map Ask.closing) h log ∧ Accounts log s t) := by
  rw [close, Call.ends_bind, Call.ends_get]
  exact (Follows.forM follows_closeDescriptor).bind_done
    (fun _ => follows_onConnection_close.bind_done fun _ => .pure _) s

end Client

end Afc

end Tether
