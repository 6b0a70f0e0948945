import Tether.Tunnel.Switchboard

/-!
# Streams of a switchboard

What users do with their streams, which are known by number. Reading takes from the inbox
and waits if it is empty; once the end was read, every read returns nothing. Writing only
posts a request: `flush` asks for the outcomes.
-/

namespace Tether.Tunnel.Stream

/-- The stream with a number. -/
def find (id : Nat) : Call TunnelError Switchboard Stream := do
  Call.ofOption Switchboard.closed (← get).streams[id]?

/-- Changes a stream. -/
def put (id : Nat) (s : Stream) : Call TunnelError Switchboard Unit :=
  modify fun b => { b with streams := b.streams.set id s }

/-- Reads at most `most` bytes. Nothing is returned at the end, or for a `most` of zero. -/
def read (id most : Nat) : Call TunnelError Switchboard Bytes := do
  let s ← find id
  if !s.rest.isEmpty then
    put id { s with rest := s.rest.drop most }
    return s.rest.take most
  else if s.hasEnded then return []
  else
    match s.inbox with
    | [] => if s.isFed then throw .waiting else Call.fail Switchboard.closed
    | piece :: later =>
      let bytes := piece.toOption.getD []
      put id { s with inbox := later, rest := bytes.drop most, hasEnded := piece.toOption = some [] }
      return (← Call.ofExcept piece).take most

/-- Goes on reading until `n` more bytes have come. -/
def readMore (id : Nat) : Nat → Nat → Call TunnelError Switchboard Bytes
  | 0, _ => return []
  | fuel + 1, n => do
    if n = 0 then return []
    let bytes ← read id n
    if bytes.isEmpty then Call.fail ⟨.unexpectedEof, "early eof"⟩
    return bytes ++ (← readMore id fuel (n - bytes.length))

/-- Reads exactly `n` bytes. One byte at least comes with each read. -/
def readExact (id n : Nat) : Call TunnelError Switchboard Bytes :=
  readMore id n n

/-- Posts bytes for sending. Returns how many, which is all of them. -/
def write (id : Nat) (bytes : Bytes) : Call TunnelError Switchboard Nat := do
  let ticket ← Switchboard.post (.send (← find id).port bytes)
  let s ← find id
  put id { s with writes := s.writes ++ [ticket] }
  return bytes.length

/-- Asks for the outcomes of writes, up to the first failure. -/
def flushAll (id : Nat) : List Nat → Call TunnelError Switchboard Unit
  | [] => return
  | ticket :: later => do
    let outcome : Except TunnelError Nat ← Call.attempt (Switchboard.outcome ticket)
    put id { ← find id with writes := later }
    let _ ← Call.ofExcept outcome
    flushAll id later

/-- Asks for the outcomes of all writes so far. A failure is reported once. -/
def flush (id : Nat) : Call TunnelError Switchboard Unit := do
  flushAll id (← find id).writes

/-- Writes bytes and awaits that they are in the tunnel. -/
def send (id : Nat) (bytes : Bytes) : Call TunnelError Switchboard Unit := do
  if !bytes.isEmpty then
    let _ ← write id bytes
  modify Switchboard.settle
  flush id

/-- Asks for the connection to be closed. -/
def close (id : Nat) : Call TunnelError Switchboard Unit := do
  let s ← find id
  let _ : Except TunnelError Nat ← Call.attempt (Switchboard.post (.close s.port))

/-- Gives the stream up, which closes its connection. -/
def release (id : Nat) : Call TunnelError Switchboard Unit := do
  close id
  put id { ← find id with isHeld := false }

end Tether.Tunnel.Stream
