import DeviceProvisioning.Connection.Command
import DeviceProvisioning.Json.Parser
import DeviceProvisioning.Topic.Request

/-!
# A broker that follows a script

A rehearsal runs a connection manager and a session against a broker in memory.  The broker
accepts every connection and acknowledges everything at once, unless its script says
otherwise: the next connection, message or subscription fails, acknowledgements or
connections are held back, graceful disconnects hang, the link is dropped right after the
next subscription.

It keeps a record of what it was asked.  Links are numbered in the order in which they were
handed out; only the latest is **current**.  What the broker sends goes to the **listener**
of the latest link, whether that link is still open or not.
-/

namespace DeviceProvisioning.Rehearsal

open Connection (Delivery LinkId Parameters)
open Text (Octets)

/-- Someone who hears the events of a link. -/
abbrev Listener := Nat

/-- **A message that reached the broker.** -/
structure Published where
  topic : String
  payload : Octets
  delivery : Delivery

/-- The request id in the topic. -/
def Published.requestId? (p : Published) : Option String :=
  Topic.requestId? p.topic

/-- The payload as JSON, if it is that. -/
def Published.json (p : Published) : Json :=
  (Json.parse? p.payload).getD .null

/-- **A broker with its script and its record.** -/
structure Broker where
  connectFailures : List LinkError := []
  publishFailures : List LinkError := []
  subscribeFailures : List LinkError := []
  dropAfterSubscribe : Bool := false
  acksHeld : Bool := false
  connectsHeld : Bool := false
  disconnectsHang : Bool := false
  connects : List Parameters := []
  published : List Published := []
  subscribed : List String := []
  unsubscribed : List String := []
  disconnects : Nat := 0
  forceCloses : Nat := 0
  /-- How many links were handed out. -/
  links : Nat := 0
  closed : List LinkId := []
  listener : Option Listener := none

namespace Broker

/-- The latest link. -/
def current (b : Broker) : Option LinkId :=
  if b.links = 0 then none else some (b.links - 1)

/-- Whether a link is closed. -/
def isClosed (b : Broker) (link : LinkId) : Bool :=
  b.closed.contains link

/-- Whether there is an open link. -/
def isOpen (b : Broker) : Bool :=
  b.current.any (!b.isClosed ·)

/-- Closes a link. -/
def close (b : Broker) (link : LinkId) : Broker :=
  { b with closed := link :: b.closed }

/-- **A connection attempt** whose link `listener` will hear. -/
def accept (b : Broker) (listener : Listener) (parameters : Parameters) :
    Except LinkError LinkId × Broker :=
  let b := { b with connects := b.connects ++ [parameters] }
  match b.connectFailures with
  | error :: rest => (.error error, { b with connectFailures := rest })
  | [] => (.ok b.links, { b with links := b.links + 1, listener := some listener })

/-- A message arrives on an open link; the failure is what the script has for it. -/
def receive (b : Broker) (message : Published) : Option LinkError × Broker :=
  let b := { b with published := b.published ++ [message] }
  match b.publishFailures with
  | error :: rest => (some error, { b with publishFailures := rest })
  | [] => (none, b)

/-- **A subscription arrives** on an open link.  The flag tells whether the link is to be
dropped now. -/
def subscribe (b : Broker) (filter : String) : Except LinkError Bool × Broker :=
  let b := { b with subscribed := b.subscribed ++ [filter] }
  match b.subscribeFailures with
  | error :: rest => (.error error, { b with subscribeFailures := rest })
  | [] => (.ok b.dropAfterSubscribe, { b with dropAfterSubscribe := false })

end Broker

/-- What a closed link answers to a request. -/
def closedLink : LinkError :=
  .plain "client disconnecting"

/-- What becomes of a request whose link is closed before it is answered. -/
def prematureClose : LinkError :=
  .plain "premature close"

end DeviceProvisioning.Rehearsal
