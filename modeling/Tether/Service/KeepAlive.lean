import Tether.Service.Heartbeat

/-!
# Keeping a device's connections alive

A keep-alive answers every Marco of a device by itself. It runs whenever bytes have arrived
(`KeepAlive.run`) until it has to wait for more. It gives up when the announced interval
and some grace have passed without a whole message (`KeepAlive.expire`), or with the first
error, which it keeps. A `Watch` is a keep-alive with the time on its hands: it sees to it
that `run` and `expire` come when they are due. Its timer is exact: it runs out when the
seconds it was set for have passed, however many they are.
-/

namespace Tether.Heartbeat

/-- The interval before the device has announced one, in seconds. -/
def defaultInterval : UInt64 := 15

/-- The seconds granted beyond the interval. -/
def grace : UInt64 := 5

/-- A keep-alive at work. -/
structure KeepAlive where
  connection : Connection
  /-- What was read of a message that is not complete. -/
  partialMessage : Bytes := []
  /-- The interval announced last. -/
  interval : UInt64 := defaultInterval
  /-- How many Marcos were answered. -/
  beats : UInt64 := 0
  /-- Why it ended, if it did. -/
  error : Option DeviceError := none
  /-- Whether something changed that nobody has looked at. -/
  hasNews : Bool := false

namespace KeepAlive

/-- Whether it still runs. -/
def isAlive (k : KeepAlive) : Bool :=
  k.error.isNone

/-- How long it waits for the next Marco, in seconds. -/
def timeLimit (k : KeepAlive) : UInt64 :=
  k.interval + grace

/-- Ends with an error. -/
def die (k : KeepAlive) (e : DeviceError) : KeepAlive :=
  { k with error := some e, hasNews := true }

/-- The connection with the bytes of an incomplete message put back in front. -/
def resumed (k : KeepAlive) : Connection :=
  let t := k.connection.transport
  { k.connection with transport := { t with unread := k.partialMessage ++ t.unread } }

/-- Answers one Marco. Without a whole message it keeps what there is and reports that it
has to wait. -/
def beat (k : KeepAlive) : KeepAlive × Bool :=
  match awaitMarco k.resumed with
  | .error .waiting c =>
    ({ k with connection := c, partialMessage := k.partialMessage ++ k.connection.transport.unread },
      false)
  | .error (.failed e) c => ({ k with connection := c, partialMessage := [] }.die e, false)
  | .ok interval c =>
    match sendPolo c with
    | .ok () c =>
      ({ connection := c, interval, beats := k.beats + 1, hasNews := true }, true)
    | .error (.failed e) c => ({ k with connection := c, partialMessage := [] }.die e, false)
    | .error .waiting c => ({ k with connection := c, partialMessage := [] }, false)

/-- Answers Marcos, at most `fuel` of them. -/
def runFor : Nat → KeepAlive → KeepAlive
  | 0, k => k
  | fuel + 1, k =>
    match k.beat with
    | (k, true) => runFor fuel k
    | (k, false) => k

/-- Runs until it has to wait. Each message takes up four bytes at least. -/
def run (k : KeepAlive) : KeepAlive :=
  if k.isAlive then runFor (k.partialMessage.length + k.connection.transport.unread.length + 1) k
  else k

/-- Lets the time limit pass. -/
def expire (k : KeepAlive) : KeepAlive :=
  if k.isAlive then k.die .heartbeatTimeout else k

/-- Waits until something has changed. -/
def awaitChange (k : KeepAlive) : KeepAlive :=
  { (if k.hasNews then k else k.expire) with hasNews := false }

/-- What a keep-alive shows of itself. -/
structure Snapshot where
  interval : UInt64
  beats : UInt64
  error : Option ErrorReport
  deriving DecidableEq, Repr

/-- What it shows now. -/
def snapshot (k : KeepAlive) : Snapshot where
  interval := k.interval
  beats := k.beats
  error := k.error.map DeviceError.report

/-- Why it ends, where the device lets the time limit pass if it has not ended before. -/
def wait (k : KeepAlive) : Option DeviceError :=
  k.expire.error

/-- More bytes arrive, and behind them the stream goes on in this way. -/
def deliver (k : KeepAlive) (bs : Bytes) (ending : Ending) : KeepAlive :=
  { k with connection.transport := { k.connection.transport.deliver bs with ending } }

end KeepAlive

/-! ## Time -/

/-- Bytes that arrive after some time, and how the stream goes on behind them. -/
structure Arrival where
  /-- The nanoseconds since the last arrival. -/
  delay : Nat
  bytes : Bytes
  ending : Ending := .silent

/-- A keep-alive and how long it has been waiting for a Marco, in nanoseconds. -/
structure Watch where
  keepAlive : KeepAlive
  waited : Nat := 0

namespace Watch

/-- How long it waits for a Marco, in nanoseconds. -/
def limit (w : Watch) : Nat :=
  w.keepAlive.timeLimit.toNat * 10 ^ 9

/-- Some time passes. -/
def pass (w : Watch) (delay : Nat) : Watch where
  keepAlive := if w.waited + delay < w.limit then w.keepAlive else w.keepAlive.expire
  waited := w.waited + delay

/-- Bytes arrive. With every Marco that is answered the waiting starts anew. -/
def hear (w : Watch) (a : Arrival) : Watch :=
  let late := w.pass a.delay
  let k := late.keepAlive.deliver a.bytes a.ending
  { keepAlive := k.run, waited := if k.isAlive && k.beat.2 then 0 else late.waited }

end Watch

end Tether.Heartbeat
