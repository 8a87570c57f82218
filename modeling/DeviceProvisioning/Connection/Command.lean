import DeviceProvisioning.Connection.Parameters
import DeviceProvisioning.Connection.State
import DeviceProvisioning.Link.Packet
import DeviceProvisioning.Metrics
import DeviceProvisioning.RequestId

/-!
# What a connection manager is asked, told, and made to do

A caller hands the manager an **order**: a command with a ticket.  The ticket stands for the
caller, and the answer to the order bears it.  `Command.check` is what a caller can be told
at once, without the manager.

Whatever takes time is done by others on the manager's behalf.  An **effect** starts it, and
a **completion** brings its result back.  Both bear the generation of the connection attempt
they belong to, so that the manager can tell what is out of date.

A **notice** is what the manager tells its owner unasked.
-/

namespace DeviceProvisioning.Connection

open DeviceProvisioning.Text (Octets allBlank)
open DeviceProvisioning.Link (Qos)

/-- A caller who waits for one answer. -/
abbrev Ticket := Nat

/-- A link that a connection attempt has yielded. -/
abbrev LinkId := Nat

/-- How a message is delivered. -/
structure Delivery where
  qos : Qos := .atLeastOnce
  retain : Bool := false
deriving DecidableEq

/-- **What a connection manager can be asked to do.** -/
inductive Command where
  | connect (parameters : Parameters)
  | disconnect
  | publish (topic : String) (payload : Octets) (delivery : Delivery)
  | subscribe (filter : String) (qos : Qos)
  | unsubscribe (filter : String)
  | updateCredential (credential : Credential)
deriving DecidableEq

/-- A signature must not be blank. -/
def checkSignature : Credential → Except Failure Unit
  | .signature text =>
    if allBlank text then .error (.argument "shared access signature must not be empty")
    else .ok ()
  | .certificate _ => .ok ()

/-- A topic must be given. -/
def checkTopic (topic : String) : Except Failure Unit :=
  if topic.isEmpty then .error (.argument "topic is required") else .ok ()

/-- **What is wrong with a command before it is carried out.** -/
def Command.check : Command → Except Failure Unit
  | connect parameters => parameters.check
  | disconnect => .ok ()
  | publish topic _ _ => checkTopic topic
  | subscribe filter _ => checkTopic filter
  | unsubscribe filter => checkTopic filter
  | updateCredential credential => checkSignature credential

/-- **A command and the caller who gave it.** -/
structure Order where
  ticket : Ticket
  command : Command
deriving DecidableEq

/-- **What the manager tells its owner.** -/
inductive Notice where
  | stateChanged (state : State)
  | message (topic : String) (payload : Octets)
  | lost (failure : Failure)
deriving DecidableEq

/-- **What comes back from what was started.** -/
inductive Completion where
  /-- A connection attempt has ended. -/
  | dialled (generation : Nat) (result : Except LinkError LinkId)
  /-- A link has been closed, or could not be. -/
  | tornDown (generation : Nat) (result : Except LinkError Unit)
  /-- A message has been delivered, or could not be. -/
  | published (id : RequestId) (result : Except LinkError Unit)
  /-- Something has happened on a link. -/
  | link (generation : Nat) (event : Link.Event)

/-- **What the manager makes others do.** -/
inductive Effect where
  | answer (ticket : Ticket) (result : Except Failure Unit)
  | notify (notice : Notice)
  /-- Start a connection attempt. -/
  | dial (generation : Nat) (parameters : Parameters)
  /-- Close a link gracefully. -/
  | tearDown (generation : Nat) (link : LinkId)
  /-- Close a link at once. -/
  | forceClose (link : LinkId)
  | publish (link : LinkId) (id : RequestId) (topic : String) (payload : Octets)
      (delivery : Delivery)
  /-- Subscribe, and answer the caller. -/
  | subscribe (link : LinkId) (filter : String) (qos : Qos) (ticket : Ticket)
  /-- Unsubscribe, and answer the caller. -/
  | unsubscribe (link : LinkId) (filter : String) (ticket : Ticket)
  | count (happening : Happening)

end DeviceProvisioning.Connection
