import DeviceProvisioning.Rehearsal.World

/-!
# Scripts of rehearsals

A script is a list of steps.  Some of them tell the broker what to do, some start callers,
and the others move the clock or let go of something.  A `Report` says what has happened
since the step before.
-/

namespace DeviceProvisioning.Rehearsal

open Connection (Parameters)
open Registration (Request)
open Text (Octets)
open Time (Millis)

/-- **A step of a script.** -/
inductive Step where
  | failNextConnect (error : LinkError)
  | failNextPublish (error : LinkError)
  | failNextSubscribe (error : LinkError)
  | dropAfterNextSubscribe
  | holdAcks (held : Bool)
  | holdConnects (held : Bool)
  | hangDisconnects (hang : Bool)
  | deliver (topic : String) (payload : Octets)
  | dropConnection
  | raiseError (error : LinkError)
  /-- Answers the message with this number. -/
  | reply (message status : Nat) (extra : String) (body : Octets)
  | replyTo (requestId : String) (status : Nat) (extra : String) (body : Octets)
  | callManager (command : Connection.Command)
  | callSession (command : Session.Command)
  | register (request : Request) (limit : Option Millis)
  /-- Moves the clock, by thirty years at most. -/
  | advance (span : Millis)
  /-- Makes the caller that this step has started go away. -/
  | abort (step : StepId)
  | dropManager
  | dropSession
  | dropNotices
  | unknown

/-- Why a step did nothing. -/
inductive Skip where
  | noSuchMessage
  | noSuchCaller
  | noManager
  | noSession
  | unknownStep

/-- The wording of a reason. -/
def Skip.message : Skip → String
  | noSuchMessage => "no such publish"
  | noSuchCaller => "no such task"
  | noManager => "no manager"
  | noSession => "no session"
  | unknownStep => "unknown step"

/-- **What has happened since the step before.** -/
structure Report where
  now : Millis
  done : List (StepId × Millis × Result)
  heard : List Heard
  connects : List Parameters
  published : List Published
  subscribed : List String
  unsubscribed : List String
  linkOpen : Bool
  disconnects : Nat
  forceCloses : Nat
  /-- The state of the manager, if the script has had one. -/
  manager : Option Connection.State
  /-- The state of the session, while the script has one. -/
  session : Option Connection.State
  skipped : Option Skip

end DeviceProvisioning.Rehearsal
