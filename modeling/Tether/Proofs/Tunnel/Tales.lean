import Tether.Proofs.Tunnel.Input
import Tether.Proofs.Tunnel.Play

/-!
# The tale of a connection

All connections of a stack share its tunnel, its reads and its flushes. What concerns one of them
are few things, its *deeds*: a segment comes for it, its owner queues, takes, asks or closes, what
is queued is flushed, or the call that began it gives it up. Its *tale* is what can be seen of it:
the link, what its owner is told, and the segments that are sent for it.

* `Tale.meetAll`: the tale that some deeds make, with no stack around it;
* `Stack.Act.deeds`: what an act does that concerns a connection, read off the act and off the bytes
  that come out of the tunnel;
* `Stack.Course`: a play with one of its connections, up to where its port is given away again.
-/

namespace Tether.Tunnel

open Net Call

/-! ## Deeds -/

/-- What concerns a connection. -/
inductive Deed where
  /-- A segment comes for it from the device. -/
  | heard (x : Segment)
  | queued (bytes : Bytes)
  | taken
  /-- Its owner asks how far it is. -/
  | asked
  /-- All that is queued, on any connection, is sent. -/
  | flushed
  | closed
  /-- The call that began it gives it up. -/
  | givenUp (e : TunnelError)
  /-- The tunnel is shut down. -/
  | dropped

/-- What the owner of a connection is told. -/
inductive Reply where
  | queued (r : Except (Halt TunnelError) Unit)
  | taken (r : Except (Halt TunnelError) Bytes)
  | asked (r : Except (Halt TunnelError) Link.Status)
  | closed (r : Except (Halt TunnelError) Unit)

/-- How a call on a connection ends that is not there. -/
def missing : Halt TunnelError :=
  .failed (.bare .notConnected)

namespace Link

/-- The link that a deed leaves, if it leaves one. -/
def after (l : Link) (size : Nat) : Deed → Option Link
  | .heard x => some (l.accept x).1
  | .queued bytes =>
    some (if l.status = .connected then { l with queued := l.queued ++ bytes } else l)
  | .taken => some { l with received := [] }
  | .asked => some l
  | .flushed => some (l.flushed size)
  | .closed | .givenUp _ | .dropped => none

/-- The segments that a deed makes a link send. -/
def sends (l : Link) (port : UInt16) (size : Nat) : Deed → List Segment
  | .heard x =>
    if (l.accept x).2 then [(l.accept x).1.segment port acknowledgement []] else []
  | .flushed => l.burst port size
  | .closed => l.parting port size
  | _ => []

/-- Whether bytes may be queued on a link. -/
def admits (l : Link) : Except (Halt TunnelError) Unit :=
  match l.status with
  | .connected => .ok ()
  | .connecting => .error missing
  | .ended fault => .error (.failed (.bare fault))

/-- What the owner of a link is told of a deed. -/
def reply? (l : Link) : Deed → Option Reply
  | .queued _ => some (.queued l.admits)
  | .taken => some (.taken (.ok l.received))
  | .asked => some (.asked (.ok l.status))
  | .closed => some (.closed (.ok ()))
  | _ => none

end Link

/-- What the owner of a link that is not there is told of a deed. -/
def Deed.refusal? : Deed → Option Reply
  | .queued _ => some (.queued (.error missing))
  | .taken => some (.taken (.error missing))
  | .asked => some (.asked (.error missing))
  | .closed => some (.closed (.error missing))
  | _ => none

/-- Whether the owner only asks how far a connection is. -/
def Deed.isAsked : Deed → Bool
  | .asked => true
  | _ => false

/-- Whether the owner is told how far a connection is. -/
def Reply.isAsked : Reply → Bool
  | .asked _ => true
  | _ => false

/-- Why a connection is given up, if it is. -/
def Deed.surrender? : Deed → Option TunnelError
  | .givenUp e => some e
  | _ => none

/-! ## Tales -/

/-- What can be seen of a connection. -/
@[ext]
structure Tale where
  link : Option Link
  /-- What its owner was told, first to last. -/
  replies : List Reply
  /-- What was sent for it, first to last. -/
  sent : List Segment

namespace Tale

/-- The tale of a connection that has just been asked for. -/
def begin (port peerPort : UInt16) (first : UInt32) : Tale where
  link := some { peerPort, sequence := first }
  replies := []
  sent := [Link.segment { peerPort, sequence := first } port Link.greeting []]

/-- A tale goes on by a deed. -/
def meet (port : UInt16) (size : Nat) (t : Tale) (d : Deed) : Tale where
  link := t.link.bind fun l => l.after size d
  replies := t.replies ++ (t.link.elim d.refusal? fun l => l.reply? d).toList
  sent := t.sent ++ t.link.elim [] fun l => l.sends port size d

/-- A tale goes on by some deeds. -/
def meetAll (port : UInt16) (size : Nat) (t : Tale) (ds : List Deed) : Tale :=
  ds.foldl (meet port size) t

variable {port peerPort : UInt16} {size : Nat} {t : Tale} {d : Deed} {ds : List Deed}

@[simp] theorem meetAll_nil : t.meetAll port size [] = t :=
  rfl

@[simp] theorem meetAll_singleton : t.meetAll port size [d] = t.meet port size d :=
  rfl

theorem meetAll_append (ds es : List Deed) :
    t.meetAll port size (ds ++ es) = (t.meetAll port size ds).meetAll port size es :=
  List.foldl_append

/-- What is no call means nothing to a connection that is not there. -/
theorem meet_of_none (h : t.link = none) (hd : d.refusal? = none) : t.meet port size d = t := by
  obtain ⟨link, replies, sent⟩ := t
  obtain rfl : link = none := h
  simp [meet, hd]

theorem meetAll_of_none (h : t.link = none) (hds : ∀ d ∈ ds, d.refusal? = none) :
    t.meetAll port size ds = t := by
  induction ds with
  | nil => rfl
  | cons d ds ih =>
    rw [meetAll, List.foldl_cons, meet_of_none h (hds d List.mem_cons_self)]
    exact ih fun e he => hds e (List.mem_cons_of_mem d he)

theorem link_meetAll_of_none (h : t.link = none) : (t.meetAll port size ds).link = none := by
  induction ds generalizing t with
  | nil => exact h
  | cons d ds ih => exact ih (by rw [meet, h]; rfl)

/-- The tale, behind more that was sent. -/
def behind (before : List Segment) (t : Tale) : Tale :=
  { t with sent := before ++ t.sent }

theorem meetAll_behind (before : List Segment) (t : Tale) (ds : List Deed) :
    (t.behind before).meetAll port size ds = (t.meetAll port size ds).behind before := by
  induction ds generalizing t with
  | nil => rfl
  | cons d ds ih =>
    have hmeet : (t.behind before).meet port size d = (t.meet port size d).behind before := by
      simp [meet, behind, List.append_assoc]
    rw [meetAll, List.foldl_cons, hmeet]
    exact ih (t.meet port size d)

theorem behind_injective (before : List Segment) : Function.Injective (behind before) := by
  intro t u h
  have hlink := congrArg link h
  have hreplies := congrArg replies h
  have hsent := congrArg sent h
  exact Tale.ext hlink hreplies (List.append_cancel_left hsent)

/-- The tale without what the owner was told when it asked how far the connection is. -/
def plain (t : Tale) : Tale :=
  { t with replies := t.replies.filter fun r => !r.isAsked }

/-- To ask how far a connection is changes nothing. -/
theorem plain_meetAll (t : Tale) (ds : List Deed) :
    (t.meetAll port size ds).plain = t.plain.meetAll port size (ds.filter fun d => !d.isAsked) := by
  induction ds generalizing t with
  | nil => rfl
  | cons d ds ih =>
    rw [meetAll, List.foldl_cons]
    refine (ih (t.meet port size d)).trans ?_
    cases d with
    | asked =>
      rw [List.filter_cons_of_neg (by simp [Deed.isAsked])]
      cases hlink : t.link <;>
        simp [meet, plain, hlink, Link.after, Link.reply?, Link.sends, Deed.refusal?, Reply.isAsked]
    | _ =>
      rw [List.filter_cons_of_pos (by simp [Deed.isAsked]), meetAll, meetAll, List.foldl_cons]
      cases hlink : t.link <;>
        simp [meet, plain, hlink, Link.after, Link.reply?, Link.sends, Deed.refusal?, Reply.isAsked]

/-- The tale is one of a connection to a port of the device, if there still is one. -/
def IsOf (peerPort : UInt16) (t : Tale) : Prop :=
  ∀ l, t.link = some l → l.peerPort = peerPort

theorem IsOf.meet (h : t.IsOf peerPort) (port : UInt16) (size : Nat) (d : Deed) :
    (t.meet port size d).IsOf peerPort := by
  intro k hk
  obtain ⟨l, hl, hk⟩ := Option.bind_eq_some_iff.1 hk
  have hpeer := h l hl
  cases d with
  | heard x =>
    cases hk
    rwa [Link.peerPort_accept]
  | queued bytes =>
    cases hk
    split <;> exact hpeer
  | taken | asked =>
    cases hk
    exact hpeer
  | flushed =>
    cases hk
    obtain ⟨_, hn⟩ := l.flushed_eq size
    rwa [hn]
  | closed | givenUp _ | dropped => cases hk

theorem IsOf.meetAll (h : t.IsOf peerPort) (port : UInt16) (size : Nat) (ds : List Deed) :
    (t.meetAll port size ds).IsOf peerPort := by
  induction ds generalizing t with
  | nil => exact h
  | cons d ds ih => exact ih (h.meet port size d)

end Tale

/-! ## Plays -/

namespace Stack

/-- What has come, or will, out of the tunnel and is still to be cut into packets. -/
def stream (s : Stack) : Bytes :=
  s.incoming ++ s.transport.unread

/-- The tunnel carries nothing but packets, of which the last may be cut short. -/
def Flows (s : Stack) : Prop :=
  ∃ (packets : List Bytes) (rest : Bytes),
    (∀ bs ∈ packets, WellFormed bs) ∧ s.stream ++ rest = packets.flatten

/-- The tunnel carries nothing but packets throughout a play. -/
def FlowsAlong : List Act → Stack → Prop
  | [], s => s.Flows
  | act :: acts, s => s.Flows ∧ FlowsAlong acts (act.call.state s)

/-- The segment in a packet, if it comes from the device and is for the connection between two
ports. -/
def segmentFor? (s : Stack) (port peerPort : UInt16) (p : IpPacket) : Option Segment :=
  (s.segmentOf? p).filter fun x => x.destination = port ∧ x.source = peerPort

/-- The segments for a connection in some bytes of the tunnel. -/
def segmentsFor (s : Stack) (port peerPort : UInt16) (bs : Bytes) : List Segment :=
  (cutAll bs).filterMap fun piece =>
    match cutPacket piece with
    | .packet p _ => s.segmentFor? port peerPort p
    | _ => none

/-- The segments for a connection that come out of the tunnel on the way from a stack to
another. -/
def heard (s t : Stack) (port peerPort : UInt16) : List Deed :=
  (s.segmentsFor port peerPort (s.stream.take (s.stream.length - t.stream.length))).map .heard

namespace Act

/-- What the owner of a connection does by an act. -/
def calls (port : UInt16) : Act → List Deed
  | queue p bytes => if p = port then [.queued bytes] else []
  | take p => if p = port then [.taken] else []
  | status p => if p = port then [.asked] else []
  | close p => if p = port then [.closed] else []
  | _ => []

/-- What happens by an act to all connections, or comes for one. -/
def happenings (port peerPort : UInt16) (s : Stack) : Act → List Deed
  | flush => [.flushed]
  | shutdown => [.dropped]
  | connect peer draws first => s.heard ((connect peer draws first).call.state s) port peerPort
  | fill => s.heard (fill.call.state s) port peerPort
  | handleBuffered => s.heard (handleBuffered.call.state s) port peerPort
  | process => s.heard (process.call.state s) port peerPort
  | _ => []

/-- What an act does that concerns a connection. Once the connection is gone, that is only what its
owner does. -/
def deeds (port peerPort : UInt16) (s : Stack) (act : Act) : List Deed :=
  act.calls port ++ if (s.links.get? port).isSome then act.happenings port peerPort s else []

/-- What an act tells the owner of a connection. -/
def replies (port : UInt16) (s : Stack) : Act → List Reply
  | queue p bytes => if p = port then [.queued ((Stack.queue p bytes).result s)] else []
  | take p => if p = port then [.taken ((Stack.take p).result s)] else []
  | status p => if p = port then [.asked ((Stack.status p).result s)] else []
  | close p => if p = port then [.closed ((Stack.close p).result s)] else []
  | _ => []

/-- Whether an act begins a connection at a port. -/
def opens (port : UInt16) (s : Stack) : Act → Bool
  | connect _ draws _ => freePort? s.links draws = some port
  | _ => false

end Act

/-- The acts up to the next that begins a connection at a port. -/
def era (port : UInt16) : List Act → Stack → List Act
  | [], _ => []
  | act :: acts, s => if act.opens port s then [] else act :: era port acts (act.call.state s)

/-- What is to be seen of some acts, one after another. -/
def along {β : Type} (f : Stack → Act → List β) : List Act → Stack → List β
  | [], _ => []
  | act :: acts, s => f s act ++ along f acts (act.call.state s)

/-- A play, with one of its connections: what happens before it is begun, and behind. -/
structure Course where
  ends : Tunnel.Ends
  before : List Act
  peerPort : UInt16
  draws : List Draw
  first : UInt32
  after : List Act
  port : UInt16
  drawn : freePort? (play before (ofEnds ends)).links draws = some port

namespace Course

variable (c : Course)

/-- The act that begins the connection. -/
def opening : Act :=
  .connect c.peerPort c.draws c.first

/-- The whole play. -/
def acts : List Act :=
  c.before ++ c.opening :: c.after

/-- The stack before the connection is begun. -/
def start : Stack :=
  play c.before (ofEnds c.ends)

/-- The stack once it is made or given up. -/
def begun : Stack :=
  c.opening.call.state c.start

/-- What happens until another connection has the port. -/
def era : List Act :=
  Stack.era c.port c.after c.begun

/-- The stack after that. -/
def last : Stack :=
  play c.era c.begun

/-- What is told to the one who asked for the connection. -/
def answer : Except (Halt TunnelError) UInt16 :=
  (connect c.peerPort c.draws c.first).result c.start

/-- Why the connection was given up, if it was. -/
def surrender? : Option TunnelError :=
  match c.answer with
  | .error (.failed e) => some e
  | _ => none

/-- What concerns the connection, first to last. -/
def deeds : List Deed :=
  c.opening.happenings c.port c.peerPort c.start ++ (c.surrender?.map Deed.givenUp).toList ++
    along (Act.deeds c.port c.peerPort) c.era c.begun

/-- What concerns the connection, other than that its owner asks how far it is. -/
def events : List Deed :=
  c.deeds.filter fun d => !d.isAsked

/-- The connection in the end. -/
def link? : Option Link :=
  c.last.links.get? c.port

/-- What its owner is told. -/
def replies : List Reply :=
  along (Act.replies c.port) c.era c.begun

/-- What its owner is told, other than how far it is. -/
def results : List Reply :=
  c.replies.filter fun r => !r.isAsked

/-- The segments that are sent for it. -/
def sent : List Segment :=
  (c.last.journal.posts.drop c.start.journal.posts.length).filter fun x => x.source = c.port

/-- The packets that are sent for it. -/
def packets : List (Except TunnelError Bytes) :=
  c.sent.map c.last.packetOf

/-- Every segment is sent, and the tunnel carries nothing but packets. -/
structure Fair : Prop where
  lossless : (play c.acts (ofEnds c.ends)).journal.Lossless
  flows : FlowsAlong c.acts (ofEnds c.ends)

end Course

end Stack

end Tether.Tunnel
