import Tether.Tunnel.Stack

/-!
# Sharing a stack

A *switchboard* owns a stack and serves any number of users. A user posts a request and
gets a ticket, under which the outcome is found later. What arrives for a connection goes
to the inbox of the stream that was opened with it, in pieces; a piece without bytes is
the end.

The switchboard takes turns. In one it serves the oldest request, in another it reads from
the tunnel, and after either it passes on what has arrived. It stops on request, when the
tunnel fails, or when nobody is left to serve: then it closes every connection and the
tunnel, and requests that it has not served are dropped.

Turns and the steps of users may come in any order. `settle` takes turns in one order until
there is nothing to do.
-/

namespace Tether.Tunnel

/-- The user's end of a connection. -/
structure Stream where
  /-- The host port of the connection. -/
  port : UInt16
  /-- What has arrived and was not read, oldest piece first. -/
  inbox : List (Except TunnelError Bytes) := []
  /-- Whether more may arrive. -/
  isFed : Bool := true
  /-- Whether the user still has the stream. -/
  isHeld : Bool := true
  /-- What is left of a piece that was longer than a read. -/
  rest : Bytes := []
  /-- Whether the end was read. -/
  hasEnded : Bool := false
  /-- The tickets of writes whose outcome was not asked for. -/
  writes : List Nat := []

/-- What users ask for. -/
inductive Request where
  /-- A connection to a port of the device, see `Stack.connect`. -/
  | connect (peerPort : UInt16) (draws : List Draw) (first : UInt32)
  | send (port : UInt16) (bytes : Bytes)
  | close (port : UInt16)
  /-- A capture, in a file that was opened or not. -/
  | capture (file : Except TunnelError Unit)
  /-- The end of the switchboard. -/
  | shutdown

/-- A stack and those who use it. -/
structure Switchboard where
  stack : Stack
  /-- The host ports of open connections, with the number of the stream of each. -/
  routes : List (UInt16 × Nat) := []
  /-- Each stream that was ever opened. -/
  streams : List Stream := []
  /-- The requests that were not served, oldest first. -/
  requests : List (Nat × Request) := []
  /-- Outcomes by ticket: for a connection, the number of its stream. -/
  outcomes : List (Nat × Except TunnelError Nat) := []
  /-- The tickets that nobody waits for any more. -/
  abandoned : List Nat := []
  nextTicket : Nat := 0
  /-- Whether somebody may still ask for connections. -/
  isHeld : Bool := true
  isRunning : Bool := true

namespace Switchboard

/-- How many seconds a user waits for a connection: longer than the stack tries. -/
def connectTimeout : Nat := Stack.connectTimeout + 2

/-- What users of a switchboard that has stopped are told. -/
def closed : TunnelError := ⟨.brokenPipe, "adapter closed"⟩

/-- Runs a call on the stack. -/
@[inline] def onStack {α : Type} (c : Call TunnelError Stack α) :
    Call TunnelError Switchboard α :=
  Call.zoom Switchboard.stack (fun b s => { b with stack := s }) id c

/-- Runs a call on the stack whose failure is nobody's concern. -/
def tryOnStack (c : Call TunnelError Stack Unit) : Call TunnelError Switchboard Unit := do
  let _ : Except TunnelError Unit ← Call.attempt (onStack c)

/-- Whether somebody is left to serve. -/
def isWanted (b : Switchboard) : Bool :=
  b.isHeld || b.streams.any Stream.isHeld

/-! ## Passing on -/

/-- Puts a piece into the inbox of a stream. Returns whether the user still has it. -/
def deliver (id : Nat) (piece : Except TunnelError Bytes) : Call TunnelError Switchboard Bool := do
  match (← get).streams[id]? with
  | some s =>
    if s.isHeld then
      modify fun b => { b with streams := b.streams.set id { s with inbox := s.inbox ++ [piece] } }
    return s.isHeld
  | none => return false

/-- Forgets the route of a port: nothing more arrives at its stream. -/
def unroute (port : UInt16) : Call TunnelError Switchboard Unit :=
  modify fun b =>
    { b with
      routes := b.routes.filter fun route => route.1 ≠ port
      streams := b.streams.mapIdx fun id s =>
        if (port, id) ∈ b.routes then { s with isFed := false } else s }

/-- Forgets the route of a port and closes its connection. -/
def hangUp (port : UInt16) : Call TunnelError Switchboard Unit := do
  unroute port
  tryOnStack (Stack.close port)

/-- What a stream is told about its connection being over. -/
def lastPiece (fault : Fault) : Except TunnelError Bytes :=
  if fault = .unexpectedEof then .ok [] else .error (.bare fault)

/-- Passes on what has arrived for one stream. Returns whether it was the last. -/
def passOn (route : UInt16 × Nat) : Call TunnelError Switchboard Bool := do
  let arrived : Except TunnelError Bytes ← Call.attempt (onStack (Stack.take route.1))
  match arrived with
  | .error e =>
    let _ ← deliver route.2 (.error e)
    return true
  | .ok bytes =>
    if !bytes.isEmpty then
      if !(← deliver route.2 (.ok bytes)) then return true
    match (← get).stack.links.get? route.1 with
    | some { status := .ended fault, .. } =>
      let _ ← deliver route.2 (lastPiece fault)
      return true
    | _ => return false

/-- Passes on what has arrived for some streams. Returns the ports that are finished. -/
def passOnAll : List (UInt16 × Nat) → Call TunnelError Switchboard (List UInt16)
  | [] => return []
  | route :: routes => do
    let isLast ← passOn route
    let finished ← passOnAll routes
    return if isLast then route.1 :: finished else finished

/-- Passes on what has arrived for each stream, and closes the connections that are
finished. -/
def dispatch : Call TunnelError Switchboard Unit := do
  (← passOnAll (← get).routes).forM hangUp

/-! ## Turns -/

/-- Closes every connection and the tunnel. -/
def stop : Call TunnelError Switchboard Unit := do
  (← get).stack.links.ports.forM fun port => tryOnStack (Stack.close port)
  ((← get).routes.map Prod.fst).forM unroute
  tryOnStack Stack.shutdown
  modify fun b => { b with isRunning := false, requests := [] }

/-- Notes the outcome of a request. -/
def conclude (ticket : Nat) (outcome : Except TunnelError Nat) : Call TunnelError Switchboard Unit :=
  modify fun b => { b with outcomes := b.outcomes ++ [(ticket, outcome)] }

/-- A stream for a new connection. -/
def openStream (port : UInt16) : Call TunnelError Switchboard Nat := do
  let b ← get
  set { b with
    streams := b.streams ++ [({ port := port } : Stream)]
    routes := b.routes ++ [(port, b.streams.length)] }
  return b.streams.length

/-- Serves a request. A connection that nobody waits for any more is closed again. -/
def serve (ticket : Nat) : Request → Call TunnelError Switchboard Unit
  | .connect peerPort draws first => do
    let outcome : Except TunnelError UInt16 ←
      Call.attempt (onStack (Stack.connect peerPort draws first))
    match outcome with
    | .error e => conclude ticket (.error e)
    | .ok port =>
      if ticket ∈ (← get).abandoned then hangUp port
      else conclude ticket (.ok (← openStream port))
    dispatch
  | .send port bytes => do
    let outcome : Except TunnelError Unit ← Call.attempt (onStack do
      Stack.queue port bytes
      Stack.flush)
    conclude ticket (outcome.map fun _ => 0)
    dispatch
  | .close port => do
    if (← get).routes.any fun route => route.1 = port then hangUp port
    dispatch
  | .capture file => do
    let outcome : Except TunnelError Unit ← Call.attempt (onStack (Stack.startCapture file))
    conclude ticket (outcome.map fun _ => 0)
    dispatch
  | .shutdown => do
    stop
    conclude ticket (.ok 0)

/-- A turn at the requests: serves the oldest one, or stops if there is nobody to serve. -/
def serveNext : Call TunnelError Switchboard Unit := do
  match (← get).requests with
  | (ticket, request) :: later =>
    modify fun b => { b with requests := later }
    serve ticket request
  | [] => if (← get).isWanted then throw .waiting else stop

/-- A turn at the tunnel: reads from it once. If it fails, each stream is told. -/
def listen : Call TunnelError Switchboard Unit := do
  let outcome : Except TunnelError Unit ← Call.attempt (onStack Stack.process)
  match outcome with
  | .ok () => dispatch
  | .error e =>
    (← get).routes.forM fun route => do
      let _ ← deliver route.2 (.error e)
    stop

/-- The kinds of turn. -/
inductive Turn where
  | atRequests
  | atTunnel
  deriving DecidableEq, Repr

/-- Takes a turn. -/
def take : Turn → Call TunnelError Switchboard Unit
  | .atRequests => serveNext
  | .atTunnel => listen

/-- The turn that `settle` takes: requests go first. -/
def nextTurn (b : Switchboard) : Turn :=
  if b.requests.isEmpty && b.isWanted then .atTunnel else .atRequests

/-- Takes at most so many turns. -/
def settleWithin : Nat → Switchboard → Switchboard
  | 0, b => b
  | fuel + 1, b =>
    if b.isRunning then
      match take b.nextTurn b with
      | .ok () b => settleWithin fuel b
      | .error _ b => b
    else b

/-- Takes turns until there is nothing to do. Each turn serves a request, takes a byte from
the tunnel, or is the last. -/
def settle (b : Switchboard) : Switchboard :=
  settleWithin (b.requests.length + b.stack.transport.unread.length + 2) b

/-! ## Asking -/

/-- Posts a request. -/
def post (request : Request) : Call TunnelError Switchboard Nat := do
  let b ← get
  if !b.isRunning then Call.fail closed
  set { b with
    requests := b.requests ++ [(b.nextTicket, request)]
    nextTicket := b.nextTicket + 1 }
  return b.nextTicket

/-- The outcome of a request. A switchboard that has stopped serves no more. -/
def outcome (ticket : Nat) : Call TunnelError Switchboard Nat := do
  let b ← get
  match b.outcomes.lookup ticket with
  | some r => Call.ofExcept r
  | none => if b.isRunning then throw .waiting else Call.fail closed

/-- Posts a request and awaits its outcome. -/
def ask (request : Request) : Call TunnelError Switchboard Nat := do
  let ticket ← post request
  modify settle
  outcome ticket

/-- Gives up waiting for a request. -/
def abandon (ticket : Nat) : Call TunnelError Switchboard Unit :=
  modify fun b => { b with abandoned := ticket :: b.abandoned }

/-- Opens a stream to a port of the device and returns its number. -/
def connect (peerPort : UInt16) (draws : List Draw) (first : UInt32) :
    Call TunnelError Switchboard Nat := do
  let ticket ← post (.connect peerPort draws first)
  modify settle
  let outcome : Except TunnelError Nat ←
    Call.attempt (Call.within ⟨.timedOut, "connect timed out"⟩ (outcome ticket))
  match outcome with
  | .ok stream => return stream
  | .error e =>
    abandon ticket
    Call.fail e

/-- Starts a capture in a file that was opened or not. -/
def capture (file : Except TunnelError Unit) : Call TunnelError Switchboard Unit := do
  let _ ← ask (.capture file)

/-- Gives up asking for connections. -/
def release : Call TunnelError Switchboard Unit :=
  modify fun b => { b with isHeld := false }

/-- Stops the switchboard. It cannot be asked any more, whatever comes of it. -/
def shutdown : Call TunnelError Switchboard Unit := do
  let outcome : Except TunnelError Nat ← Call.attempt (ask .shutdown)
  release
  let _ ← Call.ofExcept outcome

end Switchboard

end Tether.Tunnel
