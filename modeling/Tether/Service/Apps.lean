import Tether.Connection

/-!
# Apps on a device

The service that looks up, lists, installs, upgrades and removes apps. The long ones among
these commands report their progress in several messages; `Progress` is such a command
whose events are asked for one by one. Nothing is sent before the first one is.
-/

namespace Tether.Apps

/-- The name of the service. -/
def name : String := "com.apple.mobile.installation_proxy"

/-- A command with its options. -/
def command (name : String) (options : Option Plist) : Plist.Dictionary :=
  [("Command", .string name), ("ClientOptions", options.getD (.dictionary []))]

/-- Looks apps up by type and identifier. -/
def lookup (type : Option String) (ids : Option (List String)) :
    Call DeviceError Connection Plist.Dictionary := do
  let options : Plist.Dictionary :=
    [("ApplicationType", .string (type.getD "Any"))] ++
      (ids.map fun ids => ("BundleIDs", Plist.array (ids.map Plist.string))).toList
  let answer ← Connection.exchange (command "Lookup" (some (.dictionary options)))
  match answer.get? "LookupResult" with
  | some (.dictionary apps) => return apps
  | _ => Call.fail .unexpectedResponse

/-- The failure that a message describes. -/
def describedFailure? (message : Plist.Dictionary) : Option DeviceError :=
  (Connection.textAt? message "ErrorDescription").map .installationFailed

/-- Whether a message is the last one. -/
def isComplete (message : Plist.Dictionary) : Bool :=
  Connection.textAt? message "Status" = some "Complete"

/-- Collects the lists of the messages up to the last one. A message without a list ends
them too. Each message takes up four bytes at least, so `fuel` for the unread bytes is
enough. -/
def collect : Nat → List Plist → Call DeviceError Connection (List Plist)
  | 0, _ => throw .waiting
  | fuel + 1, apps => do
    let message ← Connection.receive
    if let some e := describedFailure? message then Call.fail e
    match (message.get? "CurrentList").bind Plist.asArray? with
    | none => return apps
    | some more =>
      if isComplete message then return apps ++ more
      else collect fuel (apps ++ more)

/-- Lists apps. -/
def browse (options : Option Plist) : Call DeviceError Connection (List Plist) := do
  Connection.send (.dictionary (command "Browse" options))
  collect ((← get).transport.unread.length + 1) []

/-! ## Commands with progress -/

/-- A step of a command. -/
inductive Event where
  | percent (value : Nat)
  | complete
  deriving DecidableEq, Repr

/-- A command under way. -/
structure Progress where
  /-- The command, as long as it was not sent. -/
  request : Option Plist.Dictionary
  /-- Events of the last message that were not handed out. -/
  queued : List Event := []
  /-- Whether no message is expected any more. -/
  isOver : Bool := false

/-- What a command is about. -/
inductive Task where
  | install
  | upgrade
  | uninstall
  deriving DecidableEq, Repr

/-- The name of a command. -/
def Task.name : Task → String
  | install => "Install"
  | upgrade => "Upgrade"
  | uninstall => "Uninstall"

/-- The key that says what a command is applied to: a package or an app. -/
def Task.subjectKey : Task → String
  | install | upgrade => "PackagePath"
  | uninstall => "ApplicationIdentifier"

/-- A command that was not sent yet. -/
def Progress.start (task : Task) (subject : String) (options : Option Plist) : Progress :=
  { request := some (command task.name options ++ [(task.subjectKey, .string subject)]) }

namespace Progress

/-- A connection and a command under way on it. -/
structure Session where
  connection : Connection
  progress : Progress

/-- Runs a call on the connection. An error ends the command. -/
def onConnection {α : Type} (c : Call DeviceError Connection α) : Call DeviceError Session α :=
  fun s =>
    match c s.connection with
    | .ok a connection => .ok a { s with connection }
    | .error (.failed e) connection =>
      .error (.failed e) { connection, progress := { s.progress with request := none, isOver := true } }
    | .error .waiting connection => .error .waiting { s with connection }

/-- The events of a message. -/
def eventsOf (message : Plist.Dictionary) : List Event :=
  (((message.get? "PercentComplete").bind Plist.asUnsigned?).map Event.percent).toList ++
    (if isComplete message then [.complete] else [])

/-- Receives messages until one has an event. -/
def receiveEvent : Nat → Call DeviceError Session Event
  | 0 => throw .waiting
  | fuel + 1 => do
    let message ← onConnection do
      let message ← Connection.receive
      if let some e := describedFailure? message then Call.fail e
      return message
    match eventsOf message with
    | [] => receiveEvent fuel
    | event :: queued =>
      modify fun s => { s with progress := { s.progress with queued, isOver := isComplete message } }
      return event

/-- The next event, or nothing when there are no more. -/
def next : Call DeviceError Session (Option Event) := do
  let p := (← get).progress
  match p.queued with
  | event :: queued =>
    modify fun s => { s with progress := { p with queued } }
    return some event
  | [] =>
    if p.isOver then return none
    if let some request := p.request then
      onConnection (Connection.send (.dictionary request))
      modify fun s => { s with progress := { p with request := none } }
    some <$> receiveEvent ((← get).connection.transport.unread.length + 1)

/-- Takes events until there are no more. -/
def drain : Nat → Call DeviceError Session Unit
  | 0 => pure ()
  | fuel + 1 => do
    if (← next).isSome then drain fuel

/-- Asks for events so many times, but not beyond the end. -/
def poll : Nat → Call DeviceError Session (List (Except DeviceError (Option Event)))
  | 0 => return []
  | fuel + 1 => do
    let item : Except DeviceError (Option Event) ← Call.attempt next
    match item with
    | .ok none => return [item]
    | _ => return item :: (← poll fuel)

end Progress

/-- Starts a command on a connection and runs a call on both. -/
def withProgress {α : Type} (task : Task) (subject : String) (options : Option Plist)
    (c : Call DeviceError Progress.Session α) : Call DeviceError Connection α := fun connection =>
  match c { connection, progress := .start task subject options } with
  | .ok a s => .ok a s.connection
  | .error e s => .error e s.connection

/-- Carries a command out. A message has two events at most. -/
def perform (task : Task) (subject : String) (options : Option Plist) :
    Call DeviceError Connection Unit :=
  withProgress task subject options do
    Progress.drain (2 * (← get).connection.transport.unread.length + 3)

end Tether.Apps
