import Tether.Proofs.Afc.Requests

/-!
# Calls of the service

Whatever the device sends, a call of the service is made of requests, each of which takes the
packet that comes next. A call that ends with a value or with an error that a reply stands for
has taken a packet for each request. One that waits, or whose transport fails, is *lost*: its
last request was given up, and what had arrived of the reply is gone.

* `Talks`: what becomes of a call in this respect, computed along the call;
* `Command.talks`: it holds of every call of the service.
-/

namespace Tether.Afc

open Packet (bytesOf)

variable {α β : Type} {s t : Client} {ps : List Packet} {e : DeviceError}

/-- From `s` the call is made of requests, each of which takes the packet that comes next. If the
call is lost, its last request was given up. -/
def TalksFrom (s : Client) (c : Call DeviceError Client α) : Prop :=
  ∀ ps : List Packet, (∀ p ∈ ps, p.IsReply) → s.unread <+: bytesOf ps →
    c.Ends s (fun _ t => ∃ asks replies, Exchanged asks replies s t)
      (fun h t => (Connection.isLost h = false ∧ ∃ asks replies, Exchanged asks replies s t) ∨
        (Connection.isLost h ∧ ∃ replies, GivenUp replies s t))

/-- The call is made of requests, from any state. -/
def Talks (c : Call DeviceError Client α) : Prop :=
  ∀ s, TalksFrom s c

/-- Whether a call was lost. -/
def lost : Except (Halt DeviceError) α → Bool
  | .ok _ => false
  | .error h => Connection.isLost h

/-- What became of a call: it took a packet for each request, or its last request was given up. -/
inductive Outcome (r : Except (Halt DeviceError) α) (s t : Client) : Prop where
  | exchanged {asks : List Ask} {replies : List Packet} (hr : lost r = false)
      (h : Exchanged asks replies s t)
  | givenUp {replies : List Packet} (hr : lost r) (h : GivenUp replies s t)

theorem TalksFrom.outcome {c : Call DeviceError Client α} (hc : TalksFrom s c)
    (hps : ∀ p ∈ ps, p.IsReply) (hs : s.unread <+: bytesOf ps) :
    Outcome (c.result s) s (c.state s) := by
  refine Call.Ends.of_result (P := fun r t => Outcome r s t) ((hc ps hps hs).mono ?_ ?_)
  · rintro a t ⟨asks, replies, h⟩
    exact .exchanged rfl h
  · rintro halt t (⟨hlost, asks, replies, h⟩ | ⟨hlost, replies, h⟩)
    · exact .exchanged hlost h
    · exact .givenUp hlost h

/-- What a reply is taken for does not look like a lost call. -/
def Settled (r : Except DeviceError α) : Prop :=
  ∀ e, r = .error e → Connection.isLost (.failed e) = false

theorem Settled.ok (a : α) : Settled (.ok a) :=
  nofun

theorem Settled.error (h : Connection.isLost (.failed e) = false) :
    Settled (.error e : Except DeviceError α) := by
  rintro _ ⟨⟩
  exact h

theorem Settled.bind {r : Except DeviceError α} {f : α → Except DeviceError β} (hr : Settled r)
    (hf : ∀ a, Settled (f a)) : Settled (r >>= f) := by
  cases r with
  | ok a => exact hf a
  | error e => exact .error (hr e rfl)

/-- Nothing is exchanged where only the open files change. -/
theorem Exchanged.of_connection (hconnection : t.connection = s.connection)
    (hnumber : t.nextNumber = s.nextNumber) : Exchanged [] [] s t :=
  .nil (by simp [Client.sent, hconnection]) (by simp [Client.unread, hconnection]) hnumber
    (by simp [Client.CanSend, hconnection])

namespace Talks

variable {c : Call DeviceError Client α}

theorem pure (a : α) : Talks (Pure.pure a : Call DeviceError Client α) :=
  fun _ _ _ _ => ⟨[], [], .of_connection rfl rfl⟩

theorem get : Talks (MonadState.get : Call DeviceError Client Client) :=
  fun _ _ _ _ => ⟨[], [], .of_connection rfl rfl⟩

/-- To keep track of open files is no exchange. -/
theorem modify (f : Client → List UInt64) :
    Talks (modifyThe Client fun client => { client with openFiles := f client }) :=
  fun _ _ _ _ => ⟨[], [], .of_connection rfl rfl⟩

theorem ofExcept {r : Except DeviceError α} (h : Settled r) :
    Talks (Call.ofExcept r : Call DeviceError Client α) := by
  intro s ps _ _
  cases r with
  | ok a => exact ⟨[], [], .of_connection rfl rfl⟩
  | error e => exact .inl ⟨h e rfl, [], [], .of_connection rfl rfl⟩

theorem ofOption {o : Option α} (h : Connection.isLost (.failed e) = false) :
    Talks (Call.ofOption e o : Call DeviceError Client α) := by
  intro s ps _ _
  cases o with
  | some a => exact ⟨[], [], .of_connection rfl rfl⟩
  | none => exact .inl ⟨h, [], [], .of_connection rfl rfl⟩

theorem bind {f : α → Call DeviceError Client β} (hc : Talks c) (hf : ∀ a, Talks (f a)) :
    Talks (c >>= f) := by
  intro s ps hps hs
  rw [Call.ends_bind]
  refine (hc s ps hps hs).mono (fun a t ⟨asks, replies, h⟩ => ?_) fun _ _ h => h
  obtain ⟨ps', rfl, ht⟩ := h.eq_append hps hs
  refine (hf a t ps' (fun p hp => hps p (List.mem_append_right _ hp)) ht).mono ?_ ?_
  · rintro _ u ⟨asks', replies', h'⟩
    exact ⟨_, _, h.trans h'⟩
  · rintro halt u (⟨hlost, asks', replies', h'⟩ | ⟨hlost, replies', h'⟩)
    · exact .inl ⟨hlost, _, _, h.trans h'⟩
    · exact .inr ⟨hlost, _, h.trans_givenUp h'⟩

theorem forM {ι : Type} {l : List ι} {f : ι → Call DeviceError Client PUnit}
    (hf : ∀ i, Talks (f i)) : Talks (l.forM f) := by
  induction l with
  | nil => exact Talks.pure _
  | cons i l ih => exact (hf i).bind fun _ => ih

end Talks

/-! ### The calls of the service -/

namespace Client

theorem settled_leadNumber (p : Packet) : Settled p.leadNumber := by
  unfold Packet.leadNumber
  split
  · exact .error rfl
  · exact .ok _

theorem settled_failureOf (p : Packet) : Settled (failureOf p) := by
  unfold failureOf
  split
  · refine (settled_leadNumber p).bind fun n => ?_
    dsimp only
    split
    · exact .error rfl
    · exact .ok _
  · exact .ok _

theorem settled_need {α : Type} (attrs : Entries String) (read : String → Option α)
    (key : String) : Settled (need attrs read key) := by
  unfold need
  cases (attrs.get? key).bind read with
  | none => exact .error rfl
  | some a => exact .ok a

theorem settled_fileInfo (attrs : Entries String) : Settled (FileInfo.ofAttributes attrs) :=
  (settled_need _ _ _).bind fun _ => (settled_need _ _ _).bind fun _ =>
    (settled_need _ _ _).bind fun _ => (settled_need _ _ _).bind fun _ =>
      (settled_need _ _ _).bind fun _ => (settled_need _ _ _).bind fun _ => .ok _

theorem settled_deviceInfo (attrs : Entries String) : Settled (DeviceInfo.ofAttributes attrs) :=
  (settled_need _ _ _).bind fun _ => (settled_need _ _ _).bind fun _ =>
    (settled_need _ _ _).bind fun _ => (settled_need _ _ _).bind fun _ => .ok _

theorem talks_request (operation : Operation) (lead content : Bytes) :
    Talks (request operation lead content) := by
  intro s ps hps hs
  refine (ends_request operation lead content (Packet.arriving_of_prefix hps hs)).mono ?_ ?_
  · rintro p t ⟨-, h, -⟩
    exact ⟨_, _, h⟩
  · rintro halt t (⟨p, e, hf, rfl, h⟩ | ⟨hlost, h, -⟩)
    · exact .inl ⟨settled_failureOf p _ hf, _, _, h⟩
    · exact .inr ⟨hlost, _, h⟩

theorem talks_order (operation : Operation) (lead : Bytes) : Talks (order operation lead) :=
  (talks_request operation lead []).bind fun _ => .pure _

theorem talks_listDirectory (path : String) : Talks (listDirectory path) :=
  (talks_request _ _ _).bind fun _ => .pure _

theorem talks_fileInfo (path : String) : Talks (fileInfo path) :=
  (talks_request _ _ _).bind fun _ => .ofExcept (settled_fileInfo _)

theorem talks_deviceInfo : Talks deviceInfo :=
  (talks_request _ _ _).bind fun _ => .ofExcept (settled_deviceInfo _)

theorem talks_closeDescriptor (descriptor : UInt64) : Talks (closeDescriptor descriptor) := by
  intro s ps hps hs
  rw [closeDescriptor, Call.ends_bind, Call.ends_attempt]
  -- The descriptor is forgotten behind the request, whatever the reply is.
  have hforget (t : Client) : Exchanged [] []
      t { t with openFiles := t.openFiles.erase descriptor } := .of_connection rfl rfl
  refine (ends_request .fileClose (File.word descriptor) [] (Packet.arriving_of_prefix hps hs)).mono ?_ ?_
  · rintro p t ⟨-, h, -⟩
    exact ⟨_, _, h.trans (hforget t)⟩
  · rintro halt t (⟨p, e, hf, rfl, h⟩ | ⟨hlost, h, -⟩)
    · exact .inl ⟨settled_failureOf p _ hf, _, _, h.trans (hforget t)⟩
    · cases halt with
      | waiting => exact .inr ⟨hlost, _, h⟩
      | failed e =>
        exact .inr ⟨hlost, [], h.isReply, h.taken, h.sent, h.canSend⟩

/-- Closing the connection is no exchange. If it fails, nothing can be sent any more. -/
theorem talks_onConnection_close : Talks (onConnection Connection.close) := by
  intro s ps _ _
  rw [onConnection, Call.ends_zoom]
  by_cases ho : s.connection.isOpen
  · refine (Connection.ends_close_open ho).mono ?_ ?_
    · rintro _ _ ⟨-, rfl⟩
      exact ⟨[], [], .nil rfl rfl rfl fun h => absurd h.1 (by simp)⟩
    · rintro _ _ ⟨fault, -, rfl, rfl⟩
      exact .inr ⟨rfl, [], by simp, ⟨[], Packet.cut_nil, rfl⟩, fun h => absurd h.1 (by simp),
        fun h => absurd h.1 (by simp)⟩
  · rw [Connection.close, Call.ends_bind, Call.ends_get, if_neg ho]
    exact ⟨[], [], .of_connection rfl rfl⟩

theorem talks_close : Talks close :=
  Talks.get.bind fun _ => (Talks.forM talks_closeDescriptor).bind fun _ =>
    talks_onConnection_close.bind fun _ => .pure _

end Client

namespace File

variable (f : File)

theorem talks_openAt (path : String) (mode : OpenMode) : Talks (openAt path mode) :=
  (Client.talks_request _ _ _).bind fun _ =>
    (Talks.ofExcept (Client.settled_leadNumber _)).bind fun _ =>
      (Talks.modify _).bind fun _ => .pure _

theorem talks_read (most : Nat) : Talks (f.read most) :=
  (Client.talks_request _ _ _).bind fun _ => .pure _

/-- Each piece is a packet, so there are no more pieces than the bytes that have arrived have
room for. -/
theorem talksFrom_readPieces {fuel : Nat} (h : s.unread.length < headerLength * fuel) :
    TalksFrom s (f.readPieces fuel) := by
  induction fuel generalizing s with
  | zero => exact absurd h (Nat.not_lt_zero _)
  | succ fuel ih =>
    intro ps hps hs
    rw [readPieces, read, Call.ends_bind, Call.ends_bind]
    refine (Client.ends_request .read _ [] (Packet.arriving_of_prefix hps hs)).mono ?_ ?_
    · rintro p t ⟨-, hp, -⟩
      rw [Call.ends_pure]
      split
      · exact ⟨_, _, hp⟩
      · obtain ⟨ps', rfl, ht⟩ := hp.eq_append hps hs
        have hlength := congrArg List.length hp.taken
        simp only [Packet.bytesOf_cons, Packet.bytesOf_nil, List.append_nil, List.length_append,
          Packet.length_toBytes] at hlength
        rw [Call.ends_bind]
        refine (ih (by rw [Nat.mul_succ] at h; omega) ps'
          (fun p hp => hps p (List.mem_append_right _ hp)) ht).mono ?_ ?_
        · rintro _ u ⟨asks, replies, h'⟩
          exact ⟨_, _, hp.trans h'⟩
        · rintro halt u (⟨hlost, asks', replies', h'⟩ | ⟨hlost, replies', h'⟩)
          · exact .inl ⟨hlost, _, _, hp.trans h'⟩
          · exact .inr ⟨hlost, _, hp.trans_givenUp h'⟩
    · rintro halt t (⟨p, e, hf, rfl, h⟩ | ⟨hlost, h, -⟩)
      · exact .inl ⟨Client.settled_failureOf p _ hf, _, _, h⟩
      · exact .inr ⟨hlost, _, h⟩

theorem talks_readToEnd : Talks f.readToEnd := by
  intro s
  have hfuel : s.unread.length < headerLength * (s.unread.length / headerLength + 1) := by
    simp only [headerLength]
    omega
  exact f.talksFrom_readPieces hfuel

theorem talks_write (bs : Bytes) : Talks (f.write bs) :=
  Talks.forM fun _ => (Client.talks_request _ _ _).bind fun _ => .pure _

theorem talks_tell : Talks f.tell :=
  (Client.talks_request _ _ _).bind fun _ => .ofExcept (Client.settled_leadNumber _)

theorem talks_seek (origin : Origin) : Talks (f.seek origin) :=
  (Talks.ofOption rfl).bind fun _ => (Client.talks_order _ _).bind fun _ => f.talks_tell

end File

/-! ### All of them -/

/-- A call of the service. -/
inductive Command where
  | listDirectory (path : String)
  | makeDirectory (path : String)
  | remove (path : String)
  | removeAll (path : String)
  | rename (source target : String)
  | link (target source : String) (kind : LinkKind)
  | fileInfo (path : String)
  | deviceInfo
  | openAt (path : String) (mode : OpenMode)
  | read (f : File) (most : Nat)
  | readToEnd (f : File)
  | write (f : File) (bs : Bytes)
  | tell (f : File)
  | seek (f : File) (origin : Origin)
  | closeFile (f : File)
  | close

/-- The call, without what it returns. -/
def Command.call : Command → Call DeviceError Client Unit
  | listDirectory path => do let _ ← Client.listDirectory path
  | makeDirectory path => Client.makeDirectory path
  | remove path => Client.remove path
  | removeAll path => Client.removeAll path
  | rename source target => Client.rename source target
  | link target source kind => Client.link target source kind
  | fileInfo path => do let _ ← Client.fileInfo path
  | deviceInfo => do let _ ← Client.deviceInfo
  | openAt path mode => do let _ ← File.openAt path mode
  | read f most => do let _ ← f.read most
  | readToEnd f => do let _ ← f.readToEnd
  | write f bs => f.write bs
  | tell f => do let _ ← f.tell
  | seek f origin => do let _ ← f.seek origin
  | closeFile f => f.close
  | close => do let _ ← Client.close

theorem Command.talks (c : Command) : Talks c.call := by
  cases c with
  | listDirectory path => exact (Client.talks_listDirectory path).bind fun _ => .pure _
  | makeDirectory path => exact Client.talks_order _ _
  | remove path => exact Client.talks_order _ _
  | removeAll path => exact Client.talks_order _ _
  | rename source target => exact Client.talks_order _ _
  | link target source kind => exact Client.talks_order _ _
  | fileInfo path => exact (Client.talks_fileInfo path).bind fun _ => .pure _
  | deviceInfo => exact Client.talks_deviceInfo.bind fun _ => .pure _
  | openAt path mode => exact (File.talks_openAt path mode).bind fun _ => .pure _
  | read f most => exact (f.talks_read most).bind fun _ => .pure _
  | readToEnd f => exact f.talks_readToEnd.bind fun _ => .pure _
  | write f bs => exact f.talks_write bs
  | tell f => exact f.talks_tell.bind fun _ => .pure _
  | seek f origin => exact (f.talks_seek origin).bind fun _ => .pure _
  | closeFile f => exact Client.talks_closeDescriptor _
  | close => exact Client.talks_close.bind fun _ => .pure _

end Tether.Afc
