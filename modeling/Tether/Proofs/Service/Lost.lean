import Tether.Proofs.Afc.Calls
import Tether.Service.Apps
import Tether.Service.Lockdown
import Tether.Service.Profiles
import Tether.Tls.Refusing

/-!
# Connections that have lost their transport

A connection is without its transport once it was closed, also if shutting the transport down
failed, and once securing it failed, at whatever stage. It does not come back. Each call that
needs the transport *refuses* then: it fails at once and leaves the connection alone, so that the
old transport is not read or written any more.

* `Connection.Refuses`: the calls that do so, and how they are put together;
* `Afc.Command.ends_lost`: the calls of the file service, some of which may not need it;
* `Connection.run_lost`: whatever is called on such a connection, in any order.
-/

namespace Tether

/-! ## What can be written -/

namespace Plist

theorem hasUidEntries_append (es es' : List (String × Plist)) :
    hasUidEntries (es ++ es') = (hasUidEntries es || hasUidEntries es') := by
  induction es with
  | nil => rfl
  | cons e es ih => simp [hasUidEntries, ih, Bool.or_assoc]

theorem hasUidItems_strings (texts : List String) :
    hasUidItems (texts.map Plist.string) = false := by
  induction texts with
  | nil => rfl
  | cons text texts ih => simpa [hasUidItems, hasUid] using ih

end Plist

namespace Lockdown

theorem hasUidEntries_optionalText (key : String) (text : Option String) :
    Plist.hasUidEntries (optionalText key text) = false := by
  cases text <;> rfl

/-- Whether an answer offers to secure the connection. -/
def isOffered (answer : Plist.Dictionary) : Bool :=
  (answer.get? "EnableSessionSSL").bind Plist.asBool? = some true

/-- What a host introduces itself with when it starts a session. -/
def identity (record : PairingRecord) : Plist.Dictionary :=
  [("HostID", .string record.hostId), ("SystemBUID", .string record.systemBuid)]

/-- The answer offers to secure the connection, or it does not. -/
theorem ite_isOffered (answer : Plist.Dictionary) (c d : Call DeviceError Connection Unit) :
    (if isOffered answer then c else d) =
      match (answer.get? "EnableSessionSSL").bind Plist.asBool? with
      | some true => c
      | _ => d := by
  unfold isOffered
  cases (answer.get? "EnableSessionSSL").bind Plist.asBool? with
  | none => rfl
  | some offer => cases offer <;> rfl

/-- What a session starts with, once the answer is there. -/
theorem startSession_eq (engine : Tls.Engine) (record : PairingRecord) (legacy : Bool) :
    startSession engine record legacy = (do
      if !(← get).isOpen then Call.fail .noEstablishedConnection
      let answer ← ask "StartSession" (identity record)
      if isOffered answer then Connection.secure engine record legacy
      else Call.fail .unexpectedResponse) := by
  simp only [ite_isOffered]
  rfl

end Lockdown

/-! ## Calls that refuse -/

namespace Connection

variable {α β : Type} {c : Call DeviceError Connection α} {s : Connection}

/-- Without a transport the call fails at once and leaves the connection as it is. -/
def Refuses (c : Call DeviceError Connection α) : Prop :=
  ∀ s : Connection, s.isOpen = false → c s = .error (.failed .noEstablishedConnection) s

namespace Refuses

theorem onTransport (c : Call Fault Transport α) : Refuses (Connection.onTransport c) :=
  fun _ hs => onTransport_lost c hs

theorem bind {f : α → Call DeviceError Connection β} (hc : Refuses c) : Refuses (c >>= f) := by
  intro s hs
  simp only [Bind.bind, EStateM.bind, hc s hs]

theorem get_bind {f : Connection → Call DeviceError Connection β} (hf : ∀ s, Refuses (f s)) :
    Refuses (get >>= f) :=
  fun s hs => hf s s hs

theorem sendFramed (body : Bytes) : Refuses (Connection.sendFramed body) :=
  .onTransport _

theorem send {v : Plist} (hv : v.hasUid = false) : Refuses (Connection.send v) := by
  have hwrite : Plist.Xml.write? v = some (Bytes.ofString (Plist.Xml.document v)) := by
    simp [Plist.Xml.write?, hv]
  intro s hs
  rw [Connection.send, hwrite]
  exact sendFramed _ s hs

theorem receive : Refuses Connection.receive :=
  bind (.onTransport _)

theorem exchange {request : Plist.Dictionary} (h : Plist.hasUidEntries request = false) :
    Refuses (Connection.exchange request) :=
  bind (send h)

theorem getType : Refuses Connection.getType :=
  .get_bind fun _ => bind (exchange rfl)

theorem checkIn : Refuses Connection.checkIn :=
  .get_bind fun _ => bind (send rfl)

theorem secure (engine : Tls.Engine) (record : PairingRecord) (legacy : Bool) :
    Refuses (Connection.secure engine record legacy) := by
  rintro ⟨transport, isOpen, label⟩ hs
  obtain rfl : isOpen = false := hs
  rfl

/-! ### The services -/

theorem ask {name : String} {fields : Plist.Dictionary} (h : Plist.hasUidEntries fields = false) :
    Refuses (Lockdown.ask name fields) :=
  .get_bind fun _ => exchange h

theorem getValue (key domain : Option String) : Refuses (Lockdown.getValue key domain) := by
  refine bind (ask ?_)
  simp [Plist.hasUidEntries_append, Lockdown.hasUidEntries_optionalText]

theorem setValue {key : String} {value : Plist} {domain : Option String}
    (hv : value.hasUid = false) : Refuses (Lockdown.setValue key value domain) := by
  refine bind (ask ?_)
  simp [Plist.hasUidEntries, Plist.hasUid, hv, Lockdown.hasUidEntries_optionalText]

theorem startSession (engine : Tls.Engine) (record : PairingRecord) (legacy : Bool) :
    Refuses (Lockdown.startSession engine record legacy) := by
  rintro ⟨transport, isOpen, label⟩ hs
  obtain rfl : isOpen = false := hs
  rfl

theorem startService (service : String) : Refuses (Lockdown.startService service) :=
  bind (ask rfl)

theorem command {name : String} {options : Option Plist} (h : ∀ v ∈ options, v.hasUid = false) :
    Plist.hasUidEntries (Apps.command name options) = false := by
  cases options with
  | none => rfl
  | some v => simp [Apps.command, Plist.hasUidEntries, Plist.hasUid, h v rfl]

theorem lookup (type : Option String) (ids : Option (List String)) :
    Refuses (Apps.lookup type ids) := by
  refine bind (exchange (command ?_))
  rintro v ⟨⟩
  rw [Plist.hasUid, Plist.hasUidEntries_append]
  cases ids with
  | none => rfl
  | some ids => simp [Plist.hasUidEntries, Plist.hasUid, Plist.hasUidItems_strings]

theorem browse {options : Option Plist} (h : ∀ v ∈ options, v.hasUid = false) :
    Refuses (Apps.browse options) :=
  bind (send (command h))

/-- The first event of a command is asked for behind the command itself. -/
theorem ends_next {task : Apps.Task} {subject : String} {options : Option Plist}
    (h : ∀ v ∈ options, v.hasUid = false) (hs : s.isOpen = false) :
    Apps.Progress.next.Ends { connection := s, progress := .start task subject options }
      (fun _ _ => False)
      (fun halt t => halt = .failed .noEstablishedConnection ∧ t.connection = s) := by
  have hsend : Refuses (Connection.send (.dictionary
      (Apps.command task.name options ++ [(task.subjectKey, .string subject)]))) := by
    refine send ?_
    rw [Plist.hasUid, Plist.hasUidEntries_append, command h]
    rfl
  have hcall := hsend s hs
  refine Call.ends_bind.2 (Call.ends_bind.2 ?_)
  unfold Call.Ends Apps.Progress.onConnection
  dsimp only
  rw [hcall]
  exact ⟨rfl, rfl⟩

theorem withProgress {c : Call DeviceError Apps.Progress.Session α} {task : Apps.Task}
    {subject : String} {options : Option Plist}
    (h : ∀ s : Connection, s.isOpen = false →
      c.Ends { connection := s, progress := .start task subject options } (fun _ _ => False)
        (fun halt t => halt = .failed .noEstablishedConnection ∧ t.connection = s)) :
    Refuses (Apps.withProgress task subject options c) := by
  intro s hs
  have h := h s hs
  unfold Call.Ends at h
  unfold Apps.withProgress
  split at h
  · exact h.elim
  · next heq =>
    rw [heq]
    obtain ⟨rfl, rfl⟩ := h
    rfl

theorem next {task : Apps.Task} {subject : String} {options : Option Plist}
    (h : ∀ v ∈ options, v.hasUid = false) :
    Refuses (Apps.withProgress task subject options Apps.Progress.next) :=
  withProgress fun _ hs => ends_next h hs

theorem perform {task : Apps.Task} {subject : String} {options : Option Plist}
    (h : ∀ v ∈ options, v.hasUid = false) : Refuses (Apps.perform task subject options) :=
  withProgress fun _ hs => Call.ends_bind.2 (Call.ends_bind.2
    ((ends_next h hs).mono (fun _ _ => False.elim) fun _ _ h => h))

theorem profiles {type : String} {fields : Plist.Dictionary}
    (h : Plist.hasUidEntries fields = false) : Refuses (Profiles.ask type fields) :=
  bind (exchange h)

theorem copy (all : Bool) : Refuses (Profiles.copy all) :=
  bind (profiles rfl)

end Refuses

theorem close_lost (hs : s.isOpen = false) : close s = .ok () s := by
  obtain ⟨transport, isOpen, label⟩ := s
  obtain rfl : isOpen = false := hs
  rfl

/-- Closing leaves no transport, also if shutting it down fails. -/
theorem ends_close (s : Connection) :
    close.Ends s (fun _ t => t.isOpen = false) (fun _ t => t.isOpen = false) := by
  cases hs : s.isOpen with
  | false =>
    rw [Call.Ends, close_lost hs]
    exact hs
  | true =>
    refine (ends_close_open hs).mono ?_ ?_
    · rintro _ _ ⟨-, rfl⟩
      rfl
    · rintro _ _ ⟨_, -, -, rfl⟩
      rfl

/-- Securing leaves a transport, or it fails and leaves none, whatever it was that failed: setting
the engine up, or the engine in the middle of its work. -/
theorem ends_secure (engine : Tls.Engine) (record : PairingRecord) (legacy : Bool)
    (s : Connection) :
    (secure engine record legacy).Ends s (fun _ t => t.isOpen) (fun _ t => t.isOpen = false) := by
  rw [secure, Call.ends_bind, Call.ends_get]
  cases hs : s.isOpen with
  | false =>
    refine Call.ends_bind.2 ?_
    exact hs
  | true =>
    refine Call.ends_bind.2 ?_
    rw [Call.ends_modify, Call.ends_bind]
    cases engine.configure record legacy with
    | error e => exact rfl
    | ok config =>
      rw [Call.ends_ofExcept_ok, Call.ends_bind, Call.ends_zoom]
      exact (Call.Respects.top _ _).mono (fun _ _ _ => rfl) fun h _ _ => by cases h <;> rfl

/-- Once the device has offered to secure the connection, that either happens or leaves no
transport. -/
theorem ends_startSession_offered {engine : Tls.Engine} {record : PairingRecord} {legacy : Bool}
    {answer : Plist.Dictionary}
    (hask : (Lockdown.ask "StartSession" (Lockdown.identity record)).result s = .ok answer)
    (hoffer : Lockdown.isOffered answer) :
    (Lockdown.startSession engine record legacy).Ends s (fun _ t => t.isOpen)
      (fun _ t => t.isOpen = false) := by
  rw [Lockdown.startSession_eq, Call.ends_bind, Call.ends_get]
  cases hs : s.isOpen with
  | false => exact Call.ends_bind.2 hs
  | true =>
    refine Call.ends_bind.2 ((Call.ends_self _ s).mono ?_ ?_)
    · intro a t heq
      rw [Call.result, heq] at hask
      obtain rfl : a = answer := by simpa using hask
      rw [if_pos hoffer]
      exact ends_secure engine record legacy t
    · intro h t heq
      rw [Call.result, heq] at hask
      cases hask

end Connection

/-! ## The file service -/

namespace Afc

namespace Client

variable {α β : Type} {c : Call DeviceError Client α} {s : Client}

/-- Without a transport the call fails at once and leaves the connection as it is. -/
def Refuses (c : Call DeviceError Client α) : Prop :=
  ∀ s : Client, s.connection.isOpen = false → c.Ends s (fun _ _ => False)
    (fun h t => h = .failed .noEstablishedConnection ∧ t.connection = s.connection)

namespace Refuses

theorem onConnection {c : Call DeviceError Connection α} (hc : Connection.Refuses c) :
    Refuses (Client.onConnection c) := by
  intro s hs
  rw [Client.onConnection, Call.ends_zoom, Call.Ends, hc s.connection hs]
  exact ⟨rfl, rfl⟩

theorem bind {f : α → Call DeviceError Client β} (hc : Refuses c) : Refuses (c >>= f) := by
  intro s hs
  rw [Call.ends_bind]
  exact (hc s hs).mono (fun _ _ => False.elim) fun _ _ h => h

theorem send (p : Packet) : Refuses (Client.send p) :=
  onConnection (.onTransport _)

theorem receive : Refuses Client.receive :=
  bind (onConnection (Connection.Refuses.bind (.onTransport _)))

theorem request (operation : Operation) (lead content : Bytes) :
    Refuses (Client.request operation lead content) := by
  intro s hs
  refine Call.ends_bind.2 (Call.ends_bind.2 ?_)
  exact bind (send _) { s with nextNumber := s.nextNumber + 1 } hs

theorem order (operation : Operation) (lead : Bytes) : Refuses (Client.order operation lead) :=
  bind (request operation lead [])

theorem closeDescriptor (descriptor : UInt64) : Refuses (Client.closeDescriptor descriptor) := by
  intro s hs
  refine Call.ends_bind.2 (Call.ends_attempt.2 ?_)
  refine (request .fileClose (File.word descriptor) [] s hs).mono (fun _ _ => False.elim) ?_
  rintro _ t ⟨rfl, ht⟩
  exact ⟨rfl, ht⟩

theorem read (f : File) (most : Nat) : Refuses (f.read most) :=
  bind (request _ _ _)

theorem readToEnd (f : File) : Refuses f.readToEnd := by
  intro s hs
  exact bind (read f _) s hs

theorem tell (f : File) : Refuses f.tell :=
  bind (request _ _ _)

end Refuses

end Client

/-- What a call says on a connection without a transport, when these files are open: it fails,
unless it makes no request. -/
def Command.refusal (files : List UInt64) : Command → Except (Halt DeviceError) Unit
  | write _ [] => .ok ()
  | seek _ origin =>
    .error (.failed (if origin.codes?.isSome then .noEstablishedConnection else .invalidArgument))
  | close => if files.isEmpty then .ok () else .error (.failed .noEstablishedConnection)
  | _ => .error (.failed .noEstablishedConnection)

/-- The calls of the service leave a connection without a transport as it is. -/
theorem Command.ends_lost (c : Command) {s : Client} (hs : s.connection.isOpen = false) :
    c.call.Ends s (fun _ t => c.refusal s.openFiles = .ok () ∧ t.connection = s.connection)
      (fun h t => c.refusal s.openFiles = .error h ∧ t.connection = s.connection) := by
  have hrefuses {α : Type} {d : Call DeviceError Client α} (hd : Client.Refuses d)
      (hc : c.refusal s.openFiles = .error (.failed .noEstablishedConnection)) {Q : α → Client → Prop} :
      d.Ends s Q (fun h t => c.refusal s.openFiles = .error h ∧ t.connection = s.connection) := by
    refine (hd s hs).mono (fun _ _ => False.elim) ?_
    rintro _ t ⟨rfl, ht⟩
    exact ⟨hc, ht⟩
  cases c with
  | listDirectory path => exact hrefuses (.bind (.bind (.request _ _ _))) rfl
  | makeDirectory path => exact hrefuses (.order _ _) rfl
  | remove path => exact hrefuses (.order _ _) rfl
  | removeAll path => exact hrefuses (.order _ _) rfl
  | rename source target => exact hrefuses (.order _ _) rfl
  | link target source kind => exact hrefuses (.order _ _) rfl
  | fileInfo path => exact hrefuses (.bind (.bind (.request _ _ _))) rfl
  | deviceInfo => exact hrefuses (.bind (.bind (.request _ _ _))) rfl
  | openAt path mode => exact hrefuses (.bind (.bind (.request _ _ _))) rfl
  | read f most => exact hrefuses (.bind (.read f most)) rfl
  | readToEnd f => exact hrefuses (.bind (.readToEnd f)) rfl
  | tell f => exact hrefuses (.bind (.tell f)) rfl
  | closeFile f => exact hrefuses (.closeDescriptor _) rfl
  | write f bs =>
    -- Nothing is to be written, or the first piece is refused.
    cases bs with
    | nil =>
      rw [call, File.write, pieces]
      exact ⟨rfl, rfl⟩
    | cons b bs =>
      refine hrefuses ?_ rfl
      rw [call, File.write, pieces]
      exact .bind (.bind (.request _ _ _))
  | seek f origin =>
    cases hcodes : origin.codes? with
    | none =>
      rw [call, Call.ends_bind, File.seek, hcodes]
      exact ⟨by simp [refusal, hcodes], rfl⟩
    | some codes =>
      rw [call, Call.ends_bind, File.seek, hcodes]
      exact hrefuses (.bind (.order _ _)) (by simp [refusal, hcodes])
  | close =>
    rw [call, Call.ends_bind, Client.close, Call.ends_bind, Call.ends_get]
    cases hfiles : s.openFiles with
    | nil =>
      refine Call.ends_bind.2 (Call.ends_bind.2 (Call.ends_zoom.2 ?_))
      rw [Call.Ends, Connection.close_lost hs]
      exact ⟨by simp [refusal], rfl⟩
    | cons d files =>
      rw [← hfiles]
      refine hrefuses (.bind ?_) (by simp [refusal, hfiles])
      rw [hfiles]
      exact .bind (.closeDescriptor d)

end Afc

/-! ## Whatever is called -/

namespace Connection

/-- What can be called on a connection, directly or by way of a service. A client of the file
service is there with a number for its next request and with files that are open. -/
inductive Act where
  | getType
  | checkIn
  | send (v : Plist)
  | sendBinary (v : Plist)
  | sendRaw (bs : Bytes)
  | readRaw (length : Nat)
  | readAny (most : Nat)
  | receive
  | secure (engine : Tls.Engine) (record : PairingRecord) (legacy : Bool)
  | close
  | getValue (key domain : Option String)
  | setValue (key : String) (value : Plist) (domain : Option String)
  | isLegacy
  | startSession (engine : Tls.Engine) (record : PairingRecord) (legacy : Bool)
  | startService (service : String)
  | lookup (type : Option String) (ids : Option (List String))
  | browse (options : Option Plist)
  | perform (task : Apps.Task) (subject : String) (options : Option Plist)
  /-- A command is begun and its first event is asked for. -/
  | follow (task : Apps.Task) (subject : String) (options : Option Plist)
  | install (profile : Bytes)
  | remove (id : String)
  | copy (all : Bool)
  | sendPacket (p : Afc.Packet) (number : UInt64) (files : List UInt64)
  | receivePacket (number : UInt64) (files : List UInt64)
  | afc (c : Afc.Command) (number : UInt64) (files : List UInt64)

/-- What a call returns, as far as a call does so without a transport. -/
inductive Reply where
  | done
  | isOld (answer : Bool)
  deriving DecidableEq, Repr

/-- A call without its value. -/
def drop {α : Type} (c : Call DeviceError Connection α) : Call DeviceError Connection Reply := do
  let _ ← c
  return .done

/-- Runs a call of the file service. -/
def asClient {α : Type} (number : UInt64) (files : List UInt64)
    (c : Call DeviceError Afc.Client α) : Call DeviceError Connection α :=
  Call.zoom (fun connection => { connection, nextNumber := number, openFiles := files })
    (fun _ client => client.connection) id c

namespace Act

/-- The call. -/
def call : Act → Call DeviceError Connection Reply
  | getType => drop Connection.getType
  | checkIn => drop Connection.checkIn
  | send v => drop (Connection.send v)
  | sendBinary v => drop (Connection.sendBinary v)
  | sendRaw bs => drop (Connection.sendRaw bs)
  | readRaw length => drop (Connection.readRaw length)
  | readAny most => drop (Connection.readAny most)
  | receive => drop Connection.receive
  | secure engine record legacy => drop (Connection.secure engine record legacy)
  | close => drop Connection.close
  | getValue key domain => drop (Lockdown.getValue key domain)
  | setValue key value domain => drop (Lockdown.setValue key value domain)
  | isLegacy => do return .isOld (← Lockdown.isLegacy)
  | startSession engine record legacy => drop (Lockdown.startSession engine record legacy)
  | startService service => drop (Lockdown.startService service)
  | lookup type ids => drop (Apps.lookup type ids)
  | browse options => drop (Apps.browse options)
  | perform task subject options => drop (Apps.perform task subject options)
  | follow task subject options =>
    drop (Apps.withProgress task subject options Apps.Progress.next)
  | install profile => drop (Profiles.install profile)
  | remove id => drop (Profiles.remove id)
  | copy all => drop (Profiles.copy all)
  | sendPacket p number files => drop (asClient number files (Afc.Client.send p))
  | receivePacket number files => drop (asClient number files Afc.Client.receive)
  | afc c number files => drop (asClient number files c.call)

/-- What is given to the call can be written. -/
def IsSerializable : Act → Prop
  | send v => v.hasUid = false
  | setValue _ value _ => value.hasUid = false
  | browse options => ∀ v ∈ options, v.hasUid = false
  | perform _ _ options => ∀ v ∈ options, v.hasUid = false
  | follow _ _ options => ∀ v ∈ options, v.hasUid = false
  | _ => True

/-- What the call comes to without a transport. -/
def refusal : Act → Except (Halt DeviceError) Reply
  | close => .ok .done
  | isLegacy => .ok (.isOld false)
  | afc c _ files => (c.refusal files).map fun _ => .done
  | _ => .error (.failed .noEstablishedConnection)

end Act

/-- Calls one after the other, whatever becomes of each: what they come to, and how they leave
the connection. -/
def run : List Act → Connection → List (Except (Halt DeviceError) Reply) × Connection
  | [], s => ([], s)
  | a :: acts, s =>
    (a.call.result s :: (run acts (a.call.state s)).1, (run acts (a.call.state s)).2)

variable {α : Type} {s : Connection}

theorem Refuses.drop {c : Call DeviceError Connection α} (hc : Refuses c) (hs : s.isOpen = false) :
    (Connection.drop c).result s = .error (.failed .noEstablishedConnection) ∧
      (Connection.drop c).state s = s := by
  simp [Call.result, Call.state, Connection.drop, hc.bind s hs]

theorem Refuses.asClient {c : Call DeviceError Afc.Client α} (hc : Afc.Client.Refuses c)
    (number : UInt64) (files : List UInt64) : Refuses (Connection.asClient number files c) := by
  intro s hs
  have h := hc { connection := s, nextNumber := number, openFiles := files } hs
  unfold Call.Ends at h
  unfold Connection.asClient Call.zoom
  split at h
  · exact h.elim
  · next heq =>
    obtain ⟨rfl, ht⟩ := h
    simp only [heq, ht, id_eq]

/-- A device that cannot be asked counts as new. -/
theorem isLegacy_lost (hs : s.isOpen = false) : Lockdown.isLegacy s = .ok false s := by
  simp only [Lockdown.isLegacy, Bind.bind, EStateM.bind, Call.attempt,
    Refuses.getValue (some "ProductVersion") none s hs]
  rfl

/-- Any call on a connection without a transport is refused, unless it does not need one, and
leaves the connection as it is. -/
theorem Act.tells (a : Act) (ha : a.IsSerializable) (hs : s.isOpen = false) :
    a.call.result s = a.refusal ∧ a.call.state s = s := by
  cases a with
  | getType => exact Refuses.getType.drop hs
  | checkIn => exact Refuses.checkIn.drop hs
  | send v => exact (Refuses.send ha).drop hs
  | sendBinary v => exact (Refuses.sendFramed _).drop hs
  | sendRaw bs => exact (Refuses.onTransport _).drop hs
  | readRaw length => exact (Refuses.onTransport _).drop hs
  | readAny most => exact (Refuses.onTransport _).drop hs
  | receive => exact Refuses.receive.drop hs
  | secure engine record legacy => exact (Refuses.secure engine record legacy).drop hs
  | getValue key domain => exact (Refuses.getValue key domain).drop hs
  | setValue key value domain => exact (Refuses.setValue ha).drop hs
  | startSession engine record legacy => exact (Refuses.startSession engine record legacy).drop hs
  | startService service => exact (Refuses.startService service).drop hs
  | lookup type ids => exact (Refuses.lookup type ids).drop hs
  | browse options => exact (Refuses.browse ha).drop hs
  | perform task subject options => exact (Refuses.perform ha).drop hs
  | follow task subject options => exact (Refuses.next ha).drop hs
  | install profile => exact (Refuses.profiles rfl).bind.drop hs
  | remove id => exact (Refuses.profiles rfl).bind.drop hs
  | copy all => exact (Refuses.copy all).drop hs
  | sendPacket p number files => exact (Refuses.asClient (.send p) number files).drop hs
  | receivePacket number files => exact (Refuses.asClient .receive number files).drop hs
  | close =>
    simp only [Call.result, Call.state, call, drop, Bind.bind, EStateM.bind, close_lost hs]
    exact ⟨rfl, rfl⟩
  | isLegacy =>
    simp only [Call.result, Call.state, call, Bind.bind, EStateM.bind, isLegacy_lost hs]
    exact ⟨rfl, rfl⟩
  | afc c number files =>
    have hends : (asClient number files c.call).Ends s
        (fun _ t => c.refusal files = .ok () ∧ t = s) (fun h t => c.refusal files = .error h ∧ t = s) := by
      rw [asClient, Call.ends_zoom]
      refine (c.ends_lost (s := ⟨s, number, files⟩) hs).mono (fun _ _ h => h) fun h _ hc => ?_
      cases h <;> exact hc
    refine Call.Ends.of_result (P := fun r t => r = (Act.afc c number files).refusal ∧ t = s) ?_
    rw [call, drop, Call.ends_bind]
    refine hends.mono ?_ ?_
    · rintro _ t ⟨hc, rfl⟩
      exact ⟨by rw [refusal, hc]; rfl, rfl⟩
    · rintro h t ⟨hc, rfl⟩
      exact ⟨by rw [refusal, hc]; rfl, rfl⟩

/-- So are calls one after the other. -/
theorem run_lost (acts : List Act) (hacts : ∀ a ∈ acts, a.IsSerializable) (hs : s.isOpen = false) :
    run acts s = (acts.map Act.refusal, s) := by
  induction acts with
  | nil => rfl
  | cons a acts ih =>
    obtain ⟨hresult, hstate⟩ := a.tells (hacts a List.mem_cons_self) hs
    rw [run, hresult, hstate, ih fun b hb => hacts b (List.mem_cons_of_mem _ hb)]
    rfl

/-- A connection is without its transport once it was closed or securing it failed, and then it
stays so, whatever is called on it, with the old transport left alone. -/
theorem lost_for_good :
    (∀ s : Connection, (close.state s).isOpen = false) ∧
    (∀ (engine : Tls.Engine) (record : PairingRecord) (legacy : Bool) (s : Connection),
      (secure engine record legacy).Ends s (fun _ t => t.isOpen) (fun _ t => t.isOpen = false)) ∧
    (∀ (engine : Tls.Engine) (record : PairingRecord) (legacy : Bool) (answer : Plist.Dictionary)
      (s : Connection),
      (Lockdown.ask "StartSession" (Lockdown.identity record)).result s = .ok answer →
      Lockdown.isOffered answer →
        (Lockdown.startSession engine record legacy).Ends s (fun _ t => t.isOpen)
          (fun _ t => t.isOpen = false)) ∧
    (∀ (s : Connection) (acts : List Act), s.isOpen = false → (∀ a ∈ acts, a.IsSerializable) →
      run acts s = (acts.map Act.refusal, s)) :=
  ⟨fun s => (ends_close s).state, ends_secure,
    fun _ _ _ _ _ hask hoffer => ends_startSession_offered hask hoffer,
    fun _ acts hs hacts => run_lost acts hacts hs⟩

/-- A record with no key in it. -/
def keyless : PairingRecord :=
  { deviceCertificate := [], hostPrivateKey := [], hostCertificate := [], rootPrivateKey := []
    rootCertificate := [], systemBuid := "", hostId := "" }

/-- The offer to secure a connection. -/
def offer : Bytes :=
  Plist.Binary.write (.dictionary [("EnableSessionSSL", .bool true)])

/-- A connection on which the device offers to secure it. Its transport cannot be shut down. -/
def offering : Connection :=
  { transport :=
      { unread := Bytes.ofNatBE 4 offer.length ++ offer
        shutFault := some .brokenPipe }
    label := "" }

/-- Some calls, of which the last two make no request. -/
def attempts : List Act :=
  [.getValue (some "ProductVersion") none, .send (.bool true), .isLegacy, .afc .deviceInfo 0 [],
    .perform .install "/a.ipa" none, .close, .afc (.write ⟨1, "/a"⟩ []) 0 []]

set_option maxRecDepth 20000 in
theorem lost_for_good_offering :
    (close.state offering).isOpen = false ∧
    (Lockdown.startSession (.refused []) keyless false).Ends offering (fun _ t => t.isOpen)
      (fun _ t => t.isOpen = false) ∧
    run attempts (close.state offering) =
      ([.error (.failed .noEstablishedConnection), .error (.failed .noEstablishedConnection),
        .ok (.isOld false), .error (.failed .noEstablishedConnection),
        .error (.failed .noEstablishedConnection), .ok .done, .ok .done], close.state offering) := by
  obtain ⟨hclose, -, hoffered, hrun⟩ := lost_for_good
  refine ⟨hclose offering, ?_, ?_⟩
  · exact hoffered (.refused []) keyless false [("EnableSessionSSL", .bool true)] offering (by cbv) rfl
  · refine hrun _ attempts (hclose offering) ?_
    simp [attempts, Act.IsSerializable, Plist.hasUid]

end Connection

end Tether
