import Tether.Connection

/-!
# The heartbeat service

A device says *Marco* now and then and announces in how many seconds it will do so again;
a host that does not answer *Polo* loses its connections. A device that goes to sleep says
so instead.
-/

namespace Tether.Heartbeat

/-- The name of the service. -/
def name : String := "com.apple.mobile.heartbeat"

/-- What a message of the device means: the announced interval, or a failure. -/
def intervalOf (message : Plist.Dictionary) : Except DeviceError UInt64 :=
  match message.get? "Interval" with
  | some interval =>
    match interval.asUnsigned? with
    | some seconds => .ok (UInt64.ofNat seconds)
    | none => .error .unexpectedResponse
  | none =>
    if Connection.textAt? message "Command" = some "SleepyTime" then .error .heartbeatSleepyTime
    else .error .unexpectedResponse

/-- Waits for a Marco and returns the announced interval. -/
def awaitMarco : Call DeviceError Connection UInt64 := do
  Call.ofExcept (intervalOf (← Connection.receive))

/-- Waits for a Marco up to a time limit. When the time is over, what was read of an
incomplete message is gone. -/
def getMarco : Call DeviceError Connection UInt64 := fun s =>
  match awaitMarco s with
  | .error .waiting s => .error (.failed .heartbeatTimeout) s
  | r => r

/-- Answers a Marco. -/
def sendPolo : Call DeviceError Connection Unit :=
  Connection.send (.dictionary [("Command", .string "Polo")])

end Tether.Heartbeat
