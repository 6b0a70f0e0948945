import Tether.Tunnel.Capture
import Tether.Tunnel.Journal
import Tether.Tunnel.Setup

/-!
# A TCP stack for one tunnel

The stack keeps the connections of a host through one tunnel in a table by host port. It
cuts what comes out of the tunnel into packets, hands each to the link it is for, and sends
the segments of all links into the tunnel. A packet that is not for the stack is passed
over; bytes that are no packets are thrown away and reported.

The port of a new connection is drawn: `freePort?` takes the first draw that is not in use.

* `get?_insert`, `get?_erase`, `get?_update`: what the operations on the table do;
* `Stack.connect`, `queue`, `flush`, `take`, `close`: the life of one connection;
* `Stack.fill`, `Stack.handleBuffered`: the tunnel, read and processed.
-/

namespace Tether.Tunnel

open Net

/-! ## The table -/

/-- The links of a stack, by host port. -/
abbrev Table := List (UInt16 × Link)

namespace Table

/-- The link of a port. -/
def get? (t : Table) (port : UInt16) : Option Link :=
  (t.find? fun entry => entry.1 = port).map Prod.snd

/-- Adds a link at a port that is not in use. -/
def insert (t : Table) (port : UInt16) (link : Link) : Table :=
  t ++ [(port, link)]

/-- Changes the link of a port. -/
def update (t : Table) (port : UInt16) (link : Link) : Table :=
  t.map fun entry => if entry.1 = port then (port, link) else entry

/-- Removes the link of a port. -/
def erase (t : Table) (port : UInt16) : Table :=
  t.filter fun entry => entry.1 ≠ port

/-- The ports in use. -/
def ports (t : Table) : List UInt16 :=
  t.map Prod.fst

theorem get?_erase (t : Table) (port other : UInt16) :
    (t.erase port).get? other = if other = port then none else t.get? other := by
  induction t with
  | nil => simp [get?, erase]
  | cons entry t ih =>
    by_cases h : entry.1 = port <;> by_cases h' : entry.1 = other <;> simp_all [get?, erase]

theorem get?_update (t : Table) (port other : UInt16) (link : Link) :
    (t.update port link).get? other =
      if other = port then (t.get? port).map (fun _ => link) else t.get? other := by
  induction t with
  | nil => simp [get?, update]
  | cons entry t ih =>
    by_cases h : entry.1 = port <;> by_cases h' : entry.1 = other <;>
      by_cases h'' : other = port <;> simp_all [get?, update]

theorem get?_insert (t : Table) (port other : UInt16) (link : Link) (h : t.get? port = none) :
    (t.insert port link).get? other = if other = port then some link else t.get? other := by
  have hp : t.find? (fun entry => entry.1 = port) = none := by simpa [get?] using h
  by_cases h' : other = port
  · subst h'
    simp [get?, insert, hp]
  · simp [get?, insert, h', Ne.symm h']

end Table

/-- A draw of a port among those for connections that a host opens. -/
abbrev Draw := Fin 16384

/-- There is a port to draw. -/
instance Draw.count_ne_zero : @NeZero Nat Zero.ofOfNat0 16384 :=
  ⟨Nat.succ_ne_zero 16383⟩

/-- The port of a draw. -/
def Draw.port (d : Draw) : UInt16 :=
  49152 + UInt16.ofNat d.val

/-- The port of the first draw that is not in use. -/
def freePort? (t : Table) (draws : List Draw) : Option UInt16 :=
  (draws.map Draw.port).find? fun port => (t.get? port).isNone

theorem le_toNat_port (d : Draw) : 49152 ≤ d.port.toNat := by
  have h := d.isLt
  simp only [Draw.port, UInt16.toNat_add, UInt16.toNat_ofNat']
  have : (49152 : UInt16).toNat = 49152 := rfl
  omega

/-! ## The stack -/

/-- A stack over one tunnel. -/
structure Stack where
  transport : Transport
  host : IpAddress
  device : IpAddress
  /-- The most bytes of a stream that one segment carries. -/
  segmentSize : Nat
  links : Table := []
  /-- Read from the tunnel and not yet cut into packets. -/
  incoming : Bytes := []
  /-- The packets that passed since a capture was started. -/
  capture : Option Capture := none
  /-- The time, in microseconds since 1970. -/
  clock : UInt64 := 0
  /-- What has happened to the connections. -/
  journal : Journal := []

namespace Stack

/-- How many seconds a connection may take to come about. -/
def connectTimeout : Nat := 8

/-- The most that one read takes out of the tunnel. -/
def readSize : Nat := 65535

/-- The length of the headers in front of the payload of a segment. -/
def headersLength : IpAddress → Nat
  | .v4 _ => Ipv4Packet.headerLength + Segment.headerLength
  | .v6 _ => Ipv6Packet.headerLength + Segment.headerLength

/-- The stack at one end of a tunnel. A segment carries what fits in a packet of the size of
the tunnel, but 64 bytes at least. -/
def ofEnds (e : Ends) : Stack where
  transport := e.transport
  host := e.host
  device := e.device
  segmentSize := max 64 (e.mtu - headersLength e.host)

/-- Runs a call on the transport. -/
@[inline] def onTransport {α : Type} (c : Call Fault Transport α) : Call TunnelError Stack α :=
  Call.zoom Stack.transport (fun s t => { s with transport := t }) TunnelError.bare c

/-- Notes a packet in the capture, if there is one. -/
def note (packet : Bytes) : Call TunnelError Stack Unit :=
  modify fun s => { s with capture := s.capture.map (· ++ [⟨s.clock, packet⟩]) }

/-- Adds an event to the journal. -/
def record (event : Event) : Call TunnelError Stack Unit :=
  modify fun s => { s with journal := event :: s.journal }

/-- The link of a port. -/
def linkAt (port : UInt16) : Call TunnelError Stack Link := do
  Call.ofOption (.bare .notConnected) ((← get).links.get? port)

/-- Changes the link of a port. -/
def setLink (port : UInt16) (link : Link) : Call TunnelError Stack Unit :=
  modify fun s => { s with links := s.links.update port link }

/-- Forgets the link of a port. -/
def forget (port : UInt16) : Call TunnelError Stack Unit := do
  modify fun s => { s with links := s.links.erase port }
  record (.forgotten port)

/-- The packet with a segment. -/
def packetOf (s : Stack) (segment : Segment) : Except TunnelError Bytes := do
  wrap s.host s.device protocolTcp (← segment.toBytes s.host s.device)

/-- Puts a segment into the tunnel. -/
def put (segment : Segment) : Call TunnelError Stack Unit := do
  let packet ← Call.ofExcept ((← get).packetOf segment)
  note packet
  onTransport (Transport.writeAll packet)

/-- Sends the next segment of a link. -/
def transmit (port : UInt16) (control : Control) (payload : Bytes) :
    Call TunnelError Stack Unit := do
  let segment := (← linkAt port).segment port control payload
  let outcome : Except TunnelError Unit ← Call.attempt (put segment)
  match outcome with
  | .ok () => record (.sent segment)
  | .error e =>
    record (.lost segment)
    Call.fail e

/-! ### Receiving -/

/-- Hands a segment to the link it is for. -/
def accept (segment : Segment) : Call TunnelError Stack Unit := do
  match (← get).links.get? segment.destination with
  | none => return
  | some link =>
    if link.peerPort = segment.source then
      record (.arrived segment)
      let (link, answers) := link.accept segment
      setLink segment.destination link
      if answers then transmit segment.destination Link.acknowledgement []

/-- The segment in a packet, if the packet carries one from the device to the host. -/
def segmentOf? (s : Stack) (p : IpPacket) : Option Segment :=
  if p.protocol = protocolTcp ∧ p.source = s.device ∧ p.destination = s.host then
    (Segment.ofBytes p.payload).toOption
  else none

/-- Processes a packet. -/
def acceptPacket (p : IpPacket) : Call TunnelError Stack Unit := do
  match (← get).segmentOf? p with
  | some segment => accept segment
  | none => return

/-- Reads once from the tunnel. -/
def fill : Call TunnelError Stack Unit := do
  let bs ← onTransport (Transport.read readSize)
  if bs.isEmpty then Call.fail ⟨.unexpectedEof, "tunnel closed"⟩
  modify fun s => { s with incoming := s.incoming ++ bs }

/-- Processes at most so many packets. -/
def handlePackets : Nat → Call TunnelError Stack Unit
  | 0 => return
  | fuel + 1 => do
    let bs := (← get).incoming
    match cutPacket bs with
    | .incomplete => return
    | .invalid =>
      modify fun s => { s with incoming := [] }
      Call.fail ⟨.invalidData, "tunnel is not carrying IP packets"⟩
    | .packet p n =>
      modify fun s => { s with incoming := bs.drop n }
      note (bs.take n)
      acceptPacket p
      handlePackets fuel

/-- Processes each complete packet that was read. A packet has twenty bytes at least. -/
def handleBuffered : Call TunnelError Stack Unit := do
  handlePackets ((← get).incoming.length / Ipv4Packet.headerLength + 1)

/-- Reads from the tunnel and processes what arrived. -/
def process : Call TunnelError Stack Unit := do
  fill
  handleBuffered

/-! ### Connecting -/

/-- Processes packets until the device has answered. A read takes one byte at least, so
`fuel` is enough for the unread bytes. -/
def awaitAnswer (port : UInt16) : Nat → Call TunnelError Stack Unit
  | 0 => throw .waiting
  | fuel + 1 => do
    match (← linkAt port).status with
    | .connecting =>
      process
      awaitAnswer port fuel
    | .connected => return
    | .ended fault => Call.fail ⟨fault, "connection rejected by peer"⟩

/-- Asks the device for a connection and awaits the answer, within the time limit. -/
def greet (port : UInt16) : Call TunnelError Stack Unit := do
  transmit port Link.greeting []
  Call.within ⟨.timedOut, "no SYN-ACK from peer"⟩
    (do awaitAnswer port ((← get).transport.unread.length + 1))

/-- Opens a connection to a port of the device and returns the host port, which is that of
the first free draw. The bytes that the host sends are numbered from `first` on. A
connection that does not come about is forgotten. -/
def connect (peerPort : UInt16) (draws : List Draw) (first : UInt32) :
    Call TunnelError Stack UInt16 := do
  match freePort? (← get).links draws with
  | none => throw .waiting
  | some port =>
    modify fun s => { s with links := s.links.insert port { peerPort, sequence := first } }
    record (.opened port peerPort first)
    let answer : Except TunnelError Unit ← Call.attempt (greet port)
    match answer with
    | .ok () => return port
    | .error e =>
      forget port
      Call.fail e

/-! ### Sending -/

/-- Queues bytes on a connection. -/
def queue (port : UInt16) (bs : Bytes) : Call TunnelError Stack Unit := do
  let link ← linkAt port
  match link.status with
  | .connected =>
    setLink port { link with queued := link.queued ++ bs }
    record (.queued port bs)
  | .connecting => Call.fail (.bare .notConnected)
  | .ended fault => Call.fail (.bare fault)

/-- Sends one segment with bytes. -/
def sendPiece (port : UInt16) (piece : Bytes) : Call TunnelError Stack Unit := do
  transmit port Link.carrying piece
  setLink port ((← linkAt port).advance piece.length)

/-- Sends what is queued on a connection. The queue is emptied first, so what a failure
keeps from being sent is gone. -/
def flushLink (port : UInt16) : Call TunnelError Stack Unit := do
  let link ← linkAt port
  setLink port { link with queued := [] }
  (pieces (← get).segmentSize link.queued).forM (sendPiece port)

/-- Sends what is queued on any connection, up to the first failure. -/
def flush : Call TunnelError Stack Unit := do
  let busy := (← get).links.filter fun entry => !entry.2.queued.isEmpty
  (Table.ports busy).forM flushLink

/-! ### The rest of a connection's life -/

/-- Takes what was received on a connection. -/
def take (port : UInt16) : Call TunnelError Stack Bytes := do
  let link ← linkAt port
  setLink port { link with received := [] }
  record (.taken port link.received)
  return link.received

/-- How far a connection is. -/
def status (port : UInt16) : Call TunnelError Stack Link.Status := do
  return (← linkAt port).status

/-- Whether closing a link says so to the device. -/
def saysFarewell (link : Link) : Bool :=
  link.status = .connected ∨ link.status = .ended .unexpectedEof

/-- Closes a connection: sends what is queued and the end, and forgets it in any case. -/
def close (port : UInt16) : Call TunnelError Stack Unit := do
  let link ← linkAt port
  let outcome : Except TunnelError Unit ← Call.attempt do
    if saysFarewell link then
      flushLink port
      transmit port Link.farewell []
  forget port
  Call.ofExcept outcome

/-- Forgets all connections and shuts the tunnel down. -/
def shutdown : Call TunnelError Stack Unit := do
  modify fun s =>
    { s with links := [], journal := s.links.ports.map Event.forgotten ++ s.journal }
  onTransport Transport.shutdown

/-- Starts a capture in a file that was opened, or fails as opening it did. -/
def startCapture (file : Except TunnelError Unit) : Call TunnelError Stack Unit := do
  Call.ofExcept file
  modify fun s => { s with capture := some [] }

end Stack

end Tether.Tunnel
