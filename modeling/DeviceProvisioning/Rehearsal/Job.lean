import DeviceProvisioning.Registration.Client
import DeviceProvisioning.Rehearsal.Broker
import DeviceProvisioning.Session.Call

/-!
# Jobs

Everyone who takes part in a rehearsal is a **job**: the connection manager and the session,
the callers of both, and whatever was started on someone's behalf.  A job that waits for an
answer keeps the ticket with which it asked.

**Handles.**  A manager runs as long as someone holds it: the script, the session, or a job
that may still have something to ask of it.  A session runs as long as the script or a caller
holds it.
-/

namespace DeviceProvisioning.Rehearsal

open Connection (LinkId Parameters Ticket)
open Registration (Request)
open Session (Call)
open Time (Millis)

/-- The number of a step of the script. -/
abbrev StepId := Nat

/-- The number of a job. -/
abbrev JobId := Nat

/-- **A caller who registers a device.** -/
structure Registrant where
  step : StepId
  request : Request
  limit : Option Millis
  startedAt : Millis
  stage : Registration.Stage := .ready
  ticket : Option Ticket := none
  resumeAt : Option Millis := none

/-- **Someone who takes part.** -/
inductive Job where
  /-- The connection manager. -/
  | manager
  /-- The session; with a ticket once it is closing down. -/
  | session (closing : Option Ticket)
  | dial (generation : Nat) (parameters : Parameters)
  /-- Passes the events of a link on to the manager. -/
  | forward (generation : Nat) (inbox : List Link.Event) (isOpen : Bool)
  | tearDown (generation : Nat) (link : LinkId) (begun : Bool)
  | publish (id : RequestId) (link : LinkId) (message : Published) (begun : Bool)
  | subscribe (link : LinkId) (filter : String) (ticket : Ticket)
  | unsubscribe (link : LinkId) (filter : String) (ticket : Ticket)
  /-- A call of the session to the manager. -/
  | call (call : Call)
  /-- A caller of the manager. -/
  | managerCall (step : StepId) (command : Connection.Command) (ticket : Option Ticket)
  /-- A caller of the session. -/
  | sessionCall (step : StepId) (command : Session.Command) (ticket : Option Ticket)
  | registrant (r : Registrant)

namespace Job

/-- The ticket whose answer the job waits for. -/
def awaits? : Job → Option Ticket
  | session closing => closing
  | call ⟨_, .waiting _ ticket⟩ => some ticket
  | managerCall _ _ ticket | sessionCall _ _ ticket => ticket
  | registrant r => r.ticket
  | _ => none

/-- Whether the job holds the manager. -/
def holdsManager : Job → Bool
  | session _ | call _ | managerCall .. => true
  | _ => false

/-- Whether the job holds the session. -/
def holdsSession : Job → Bool
  | sessionCall .. | registrant _ => true
  | _ => false

/-- The step of the script that started the job. -/
def step? : Job → Option StepId
  | managerCall step .. | sessionCall step .. => some step
  | registrant r => some r.step
  | _ => none

/-- Whether the job is the manager. -/
def isManager : Job → Bool
  | manager => true
  | _ => false

/-- Whether the job is the session, and still takes notice of anything. -/
def isSession : Job → Bool
  | session none => true
  | _ => false

/-- Whether the job is a connection attempt. -/
def isDial : Job → Bool
  | dial .. => true
  | _ => false

/-- Whether the job publishes a message. -/
def isPublish : Job → Bool
  | publish .. => true
  | _ => false

/-- Whether the job waits for this link to be closed. -/
def watches (link : LinkId) : Job → Bool
  | tearDown _ l begun => l = link && begun
  | publish _ l _ begun => l = link && begun
  | _ => false

end Job

end DeviceProvisioning.Rehearsal
