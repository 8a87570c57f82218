import DeviceProvisioning.Number.Decimal
import DeviceProvisioning.Text.Split

/-!
# Failures

A link to a broker reports a `LinkError`: a message, and a code when the failure came from
the socket.  A caller receives a `Failure`, which says what kind of thing went wrong.

`Failure.ofLink` sorts the one into the other.  A code always means that the connection is
gone.  Otherwise the first fragment of `rules` that occurs in the message decides, and a
message with none of them is passed on as it is.  `Failure.ofStatus` sorts the statuses with
which the service refuses a request.
-/

namespace DeviceProvisioning

/-- **What a link reports when it fails.** -/
structure LinkError where
  code : Option String
  message : String
deriving DecidableEq

/-- An error without a code. -/
def LinkError.plain (message : String) : LinkError :=
  { code := none, message }

/-- An error of the socket. -/
def LinkError.socket (code message : String) : LinkError :=
  { code := some code, message }

/-- **Why a call did not succeed.** -/
inductive Failure where
  | notConnected (text : String)
  | format (text : String)
  | unauthorized (text : String)
  | serviceUnavailable (text : String)
  | notImplemented (text : String)
  | internalServer (text : String)
  | cancelled (text : String)
  | argument (text : String)
  | deviceNotFound (text : String)
  | service (status : Nat) (text : String)
  | link (error : LinkError)
deriving DecidableEq

namespace Failure

/-- The wording of a failure. -/
def message : Failure → String
  | notConnected text => "Not connected: " ++ text
  | format text => "Format error: " ++ text
  | unauthorized text => "Unauthorized: " ++ text
  | serviceUnavailable text => "Service unavailable: " ++ text
  | notImplemented text => "Not implemented: " ++ text
  | internalServer text => "Internal server error: " ++ text
  | cancelled text => "Operation cancelled: " ++ text
  | argument text => "Invalid argument: " ++ text
  | deviceNotFound text => "Device not found: " ++ text
  | service status text =>
    "Service returned status " ++ String.ofList (Number.decimal status) ++ ": " ++ text
  | link error => error.message

/-- Whether the connection was lost, or was never there. -/
def isNotConnected : Failure → Bool
  | notConnected _ => true
  | _ => false

/-- The fragments by which messages of a link are recognised, in the order in which they are
looked for. -/
def rules : List (String × (String → Failure)) :=
  [("premature close", notConnected),
   ("client disconnecting", notConnected),
   ("No connection to broker", notConnected),
   ("Invalid topic", format),
   ("Unacceptable protocol version", notImplemented),
   ("Identifier rejected", unauthorized),
   ("Bad username or password", unauthorized),
   ("Not authorized", unauthorized),
   ("Server unavailable", serviceUnavailable),
   ("unrecognized packet type", internalServer)]

/-- **What a failure of the link means to a caller.** -/
def ofLink (error : LinkError) : Failure :=
  if error.code.isSome then notConnected error.message
  else match rules.find? fun rule => Text.contains error.message rule.1 with
    | some rule => rule.2 error.message
    | none => link error

/-- **What a refusal by the service means to a caller.** -/
def ofStatus (status : Nat) (text : String) : Failure :=
  match status with
  | 400 => argument text
  | 401 => unauthorized text
  | 403 => unauthorized text
  | 404 => deviceNotFound text
  | _ => service status text

end Failure
end DeviceProvisioning
