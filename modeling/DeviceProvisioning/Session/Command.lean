import DeviceProvisioning.Connection.Command
import DeviceProvisioning.Registration.Request
import DeviceProvisioning.Registration.Response
import DeviceProvisioning.Session.Settings

/-!
# What a session is asked, told, and made to do

A caller gives a session a command with a ticket.  A request is answered with a response of
the service; the other commands are answered when they are done.  `Command.check` is what a
caller can be told at once, without the session.

As with a connection manager, **effects** start what takes time and **completions** bring
the results back; a **notice** is what the session tells its owner unasked.
-/

namespace DeviceProvisioning.Session

open Connection (Credential Ticket)
open Registration (Query Request Response)

/-- **What a session can be asked to do.** -/
inductive Command where
  /-- Put a query to the service. -/
  | ask (request : Request) (query : Query)
  /-- Give up every outstanding request. -/
  | cancel
  | disconnect
  | updateCredential (credential : Credential)

/-- **What is wrong with a command before it is carried out.** -/
def Command.check : Command → Except Failure Unit
  | ask request query => do
    if Text.allBlank request.registrationId then
      throw (.argument "registration id is required")
    match query with
    | .registration => return ()
    | .operationStatus operationId =>
      if Text.allBlank operationId then throw (.argument "operation id is required")
  | cancel => .ok ()
  | disconnect => .ok ()
  | updateCredential credential => Connection.checkSignature credential

/-- **A command and the caller who gave it.** -/
structure Order where
  ticket : Ticket
  command : Command

/-- **What a session tells its owner.** -/
inductive Notice where
  | stateChanged (state : Connection.State)
  | lost (failure : Failure)
deriving DecidableEq

/-- **What comes back from what was started.** -/
inductive Completion where
  | connected (result : Except Failure Unit)
  | published (id : RequestId) (result : Except Failure Unit)
  | disconnected (result : Except Failure Unit)
  | reconnected (result : Except Failure Unit)

/-- **What a session makes others do.** -/
inductive Effect where
  /-- The answer to a caller who has put a query. -/
  | respond (ticket : Ticket) (result : Except Failure Response)
  /-- The answer to any other caller. -/
  | answer (ticket : Ticket) (result : Except Failure Unit)
  | notify (notice : Notice)
  /-- Connect, and subscribe to the responses. -/
  | connect (parameters : Connection.Parameters)
  | disconnect
  /-- Connect with a new credential, and subscribe to the responses. -/
  | reconnect (credential : Credential)
  | publish (id : RequestId) (topic body : String)
  | count (happening : Happening)

end DeviceProvisioning.Session
