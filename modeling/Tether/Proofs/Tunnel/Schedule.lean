import Tether.Proofs.Tunnel.Play
import Tether.Tunnel.Stream

/-!
# Schedules

A *session* is a switchboard with its users. A schedule is any order of what users do, of the
turns that the switchboard takes, and of what the world does to the tunnel. The session
remembers what each read returned, which account of the ledger the connection of each stream
has, and which streams a failure of the tunnel found open.

* `Session.play`: a session under a schedule.
-/

namespace Tether.Tunnel

open Call

namespace Switchboard

/-- What may happen in a session. -/
inductive Act where
  | connect (peerPort : UInt16) (draws : List Draw) (first : UInt32)
  | capture (file : Except TunnelError Unit)
  | shutdown
  /-- A user stops waiting for the outcome of a request. -/
  | abandon (ticket : Nat)
  /-- Nobody asks for connections any more. -/
  | release
  | write (id : Nat) (bytes : Bytes)
  | flush (id : Nat)
  | close (id : Nat)
  /-- A user gives a stream up. -/
  | drop (id : Nat)
  /-- A stream is opened for a user who has just gone away. -/
  | neglect (id : Nat)
  /-- A read asks for one byte at least. -/
  | read (id most : Nat) (h : 0 < most)
  /-- A switchboard takes turns as long as it runs. -/
  | turn (t : Turn)
  | world (unread : Bytes) (ending : Ending) (allowance : Option (Nat × Fault))
  | tick (clock : UInt64)

namespace Act

/-- An act as a call. -/
def call : Act → Call TunnelError Switchboard Unit
  | connect peerPort draws first => do let _ ← post (.connect peerPort draws first)
  | capture file => do let _ ← post (.capture file)
  | shutdown => do let _ ← post .shutdown
  | abandon ticket => Switchboard.abandon ticket
  | release => Switchboard.release
  | write id bytes => do let _ ← Stream.write id bytes
  | flush id => Stream.flush id
  | close id => Stream.close id
  | drop id => Stream.release id
  | neglect id => do Stream.put id { ← Stream.find id with isHeld := false }
  | read id most _ => do let _ ← Stream.read id most
  | turn t => do if (← get).isRunning then take t
  | world unread ending allowance =>
    onStack (modify fun s => { s with transport := { s.transport with unread, ending, allowance } })
  | tick clock => onStack (modify fun s => { s with clock })

/-- What a read returns, and for which stream. A read that waits returns nothing yet. -/
def result (b : Switchboard) : Act → List (Nat × Except TunnelError Bytes)
  | read id most _ =>
    if id < b.streams.length then
      match Stream.read id most b with
      | .ok bytes _ => [(id, .ok bytes)]
      | .error (.failed e) _ => [(id, .error e)]
      | .error .waiting _ => []
    else []
  | _ => []

/-- The streams that are told that the tunnel has failed. -/
def felled (b : Switchboard) : Act → List Nat
  | turn .atTunnel =>
    match Stack.process b.stack with
    | .error (.failed _) _ => b.routes.map Prod.snd
    | _ => []
  | _ => []

end Act

end Switchboard

/-- A switchboard with its users. -/
structure Session where
  board : Switchboard
  /-- What reads returned, oldest first, each with its stream. -/
  reads : List (Nat × Except TunnelError Bytes) := []
  /-- For each stream the account of the connection that was begun when it was opened. -/
  owners : List Nat := []
  /-- The streams that were told that the tunnel has failed. -/
  felled : List Nat := []

namespace Session

/-- A session around a stack. -/
def start (s : Stack) : Session where
  board := { stack := s }

/-- The session after an act. A stream that a turn opens belongs to the account that the same
turn begins, and that is numbered by the accounts before it. -/
def step (w : Session) (act : Switchboard.Act) : Session :=
  let b := act.call.state w.board
  { board := b
    reads := w.reads ++ act.result w.board
    owners := w.owners ++ List.replicate (b.streams.length - w.board.streams.length)
      w.board.stack.ledger.accounts.length
    felled := w.felled ++ act.felled w.board }

/-- The session after some acts. -/
def play (w : Session) (acts : List Switchboard.Act) : Session :=
  acts.foldl step w

/-- What the reads of a stream returned, oldest first. -/
def readsOf (w : Session) (id : Nat) : List (Except TunnelError Bytes) :=
  (w.reads.filter fun r => r.1 = id).map Prod.snd

end Session

end Tether.Tunnel
