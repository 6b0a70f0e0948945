import Tether.Connection

/-!
# Provisioning profiles

The service that installs, removes and copies provisioning profiles. Each answer has a
status, and any other than zero is a failure.
-/

namespace Tether.Profiles

/-- The name of the service. -/
def name : String := "com.apple.misagent"

/-- Sends a request and receives the answer, if its status is good. -/
def ask (type : String) (fields : Plist.Dictionary) :
    Call DeviceError Connection Plist.Dictionary := do
  let answer ← Connection.exchange
    ([("MessageType", .string type), ("ProfileType", .string "Provisioning")] ++ fields)
  match (answer.get? "Status").bind Plist.asSigned? with
  | some status => if status = 0 then return answer else Call.fail (.misagentFailure status)
  | none => Call.fail .unexpectedResponse

/-- Installs a profile. -/
def install (profile : Bytes) : Call DeviceError Connection Unit := do
  let _ ← ask "Install" [("Profile", .data profile)]

/-- Removes a profile. -/
def remove (id : String) : Call DeviceError Connection Unit := do
  let _ ← ask "Remove" [("ProfileID", .string id)]

/-- Copies the installed profiles; `all` includes those that the system has installed. What
is no data among them is skipped. -/
def copy (all : Bool) : Call DeviceError Connection (List Bytes) := do
  let answer ← ask (if all then "CopyAll" else "Copy") []
  match answer.get? "Payload" with
  | some (.array items) => return items.filterMap Plist.asData?
  | some _ => Call.fail .unexpectedResponse
  | none => return []

end Tether.Profiles
