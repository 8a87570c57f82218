import DeviceProvisioning.Session.Command
import DeviceProvisioning.Topic.Response

/-!
# Provisioning sessions

A session puts queries to the provisioning service and matches the responses to them by
their request ids.  It takes orders, completions and the notices of its connection manager
one at a time; `step` is what it does with one of them.

**Operations.**  A query becomes an operation with an id of its own, which is outstanding
until it is answered: by its response, by a failure to publish it, or by whatever puts an
end to all outstanding operations.

**Changes.**  The session connects when an operation is to be published and there is no
connection.  Connecting, disconnecting and changing the credential take time; meanwhile the
state is transitional and work is deferred, to be taken up in its order when the state has
settled.

**Losses.**  The connection manager tells of a loss, but the notice may come late or early.
A loss during a change is remembered and applied when the change has ended well; a change
that has ended well while the manager has no connection counts as a loss too.  So does a
failure to publish on a connection that the manager no longer has, as far as the operation
is concerned.
-/

namespace DeviceProvisioning

open Connection (Credential State Ticket)
open Registration (Query Request)

namespace Session

/-- **An outstanding operation.** -/
structure Operation where
  query : Query
  registrationId : String
  topic : String
  body : String
  ticket : Ticket

/-- **Work that waits for a change to end.** -/
inductive Work where
  | publish (id : RequestId)
  | disconnect (ticket : Ticket)
  | updateCredential (credential : Credential) (ticket : Ticket)

end Session

open Session

/-- **A provisioning session.** -/
structure Session where
  settings : Settings
  ids : RequestId.Source := .sequential
  state : State := .disconnected
  /-- The outstanding operations. -/
  pending : List (RequestId × Operation) := []
  deferred : List Work := []
  /-- The caller of the disconnect or change of credential under way. -/
  waiter : Option Ticket := none
  /-- A loss that was told during a change. -/
  lossInChange : Option Failure := none

namespace Session

/-- **What a step has come to so far**: the session, and the effects. -/
structure Turn where
  session : Session
  effects : List Effect := []

/-- How an operation ends whose connection is lost. -/
def lossOf (why : Failure) : Failure :=
  .cancelled ("connection lost before a response arrived: " ++ why.message)

/-- What callers learn of a session that is no more. -/
def gone : Failure :=
  .cancelled "provisioning session has shut down"

namespace Turn

/-- One more effect. -/
def emit (effect : Effect) (t : Turn) : Turn :=
  { t with effects := t.effects ++ [effect] }

/-- A change of the session alone. -/
def update (f : Session → Session) (t : Turn) : Turn :=
  { t with session := f t.session }

/-- The answer to a caller. -/
def answer (ticket : Ticket) (result : Except Failure Unit) : Turn → Turn :=
  emit (.answer ticket result)

/-- Enters a state, and says so. -/
def enter (next : State) (t : Turn) : Turn :=
  if t.session.state = next then t
  else (t.update fun s => { s with state := next }).emit (.notify (.stateChanged next))

/-- Answers the caller of the change under way, if there is one. -/
def answerWaiter (result : Except Failure Unit) (t : Turn) : Turn :=
  match t.session.waiter with
  | some ticket => (t.update fun s => { s with waiter := none }).answer ticket result
  | none => t

/-- Puts an end to every outstanding operation. -/
def endAll (why : Failure) (t : Turn) : Turn :=
  if t.session.pending.isEmpty then t
  else
    t.session.pending.foldl (fun t (_, op) => t.emit (.respond op.ticket (.error why)))
      ((t.emit (.count (.operationsCancelled t.session.pending.length))).update
        fun s => { s with pending := [] })

/-- Takes an operation off the outstanding ones. -/
def remove (id : RequestId) : Turn → Turn :=
  update fun s => { s with pending := s.pending.filter (·.1 ≠ id) }

/-- Puts work off. -/
def defer (work : Work) : Turn → Turn :=
  update fun s => { s with deferred := s.deferred ++ [work] }

/-- Publishes an operation, unless it has been answered; connects first if there is no
connection. -/
def publish (id : RequestId) (t : Turn) : Turn :=
  match t.session.pending.lookup id with
  | none => t
  | some op =>
    if t.session.state = .disconnected then
      ((t.enter .connecting).emit
        (.connect (t.session.settings.parameters op.registrationId))).defer (.publish id)
    else t.emit (.publish id op.topic op.body)

/-- Closes the connection, if there is one. -/
def disconnect (ticket : Ticket) (t : Turn) : Turn :=
  if t.session.state = .disconnected then t.answer ticket (.ok ())
  else
    ((t.enter .disconnecting).update fun s => { s with waiter := some ticket }).emit .disconnect

/-- Takes a new credential; connects with it if there is a connection. -/
def updateCredential (credential : Credential) (ticket : Ticket) (t : Turn) : Turn :=
  let t := t.update fun s => { s with settings := { s.settings with credential } }
  if t.session.state = .disconnected then t.answer ticket (.ok ())
  else
    ((t.enter .reconnecting).update fun s => { s with waiter := some ticket }).emit
      (.reconnect credential)

/-- **Does work now,** or puts it off while a change is under way. -/
def perform (work : Work) (t : Turn) : Turn :=
  if t.session.state.isTransitional then t.defer work
  else match work with
    | .publish id => t.publish id
    | .disconnect ticket => t.disconnect ticket
    | .updateCredential credential ticket => t.updateCredential credential ticket

/-- Takes up the work that was put off. -/
def replay (t : Turn) : Turn :=
  t.session.deferred.foldl (fun t work => t.perform work)
    (t.update fun s => { s with deferred := [] })

/-- The topic and the body of a query. -/
def message (id : RequestId) (request : Request) : Query → String × String
  | .registration => (Topic.registration id, request.registrationBody)
  | .operationStatus operationId => (Topic.operationStatus id operationId, request.statusBody)

/-- **A query becomes an outstanding operation.** -/
def ask (ticket : Ticket) (request : Request) (query : Query) (t : Turn) : Turn :=
  let id := t.session.ids.peek
  let (topic, body) := message id request query
  let operation : Operation :=
    { query, registrationId := request.registrationId, topic, body, ticket }
  ((t.emit (.count .operationStarted)).update fun s =>
    { s with
      ids := s.ids.advance
      pending := s.pending.filter (·.1 ≠ id) ++ [(id, operation)] }).perform (.publish id)

/-- **Takes an order.** -/
def take (order : Order) (t : Turn) : Turn :=
  match order.command with
  | .ask request query => t.ask order.ticket request query
  | .cancel =>
    (t.endAll (.cancelled "operation cancelled by caller")).answer order.ticket (.ok ())
  | .disconnect =>
    (t.endAll (.cancelled "session disconnected before a response arrived")).perform
      (.disconnect order.ticket)
  | .updateCredential credential => t.perform (.updateCredential credential order.ticket)

/-- **The connection is lost.** -/
def lose (why : Failure) (t : Turn) : Turn :=
  ((t.enter .disconnected).endAll (lossOf why)).emit (.notify (.lost why))

/-- The loss that a change which has ended well must be told of: one that was told meanwhile,
or that of a manager without a connection. -/
def lossOfChange? (manager : State) (s : Session) : Option Failure :=
  match s.lossInChange with
  | some why => some why
  | none =>
    if manager = .connected then none else some (.notConnected "connection lost during setup")

/-- Connecting has ended. -/
def connected (manager : State) (result : Except Failure Unit) (t : Turn) : Turn :=
  let loss := lossOfChange? manager t.session
  let t := t.update fun s => { s with lossInChange := none }
  match result, loss with
  | .ok (), some why => (t.lose why).replay
  | .ok (), none => (t.enter .connected).replay
  | .error why, _ => ((t.enter .disconnected).endAll why).replay

/-- Connecting with a new credential has ended. -/
def reconnected (manager : State) (result : Except Failure Unit) (t : Turn) : Turn :=
  let loss := lossOfChange? manager t.session
  let t := t.update fun s => { s with lossInChange := none }
  match result, loss with
  | .ok (), some why => ((t.lose why).answerWaiter (.error why)).replay
  | .ok (), none => ((t.enter .connected).answerWaiter (.ok ())).replay
  | .error why, _ =>
    (((t.enter .disconnected).endAll why).answerWaiter (.error why)).replay

/-- Disconnecting has ended. -/
def disconnected (result : Except Failure Unit) (t : Turn) : Turn :=
  ((t.enter .disconnected).answerWaiter result).replay

/-- A query has been published, or could not be. -/
def published (manager : State) (id : RequestId) (result : Except Failure Unit) (t : Turn) :
    Turn :=
  match result, t.session.pending.lookup id with
  | .error why, some op =>
    let lost := t.session.state = .connected ∧ (why.isNotConnected ∨ manager ≠ .connected)
    (t.remove id).emit (.respond op.ticket (.error (if lost then lossOf why else why)))
  | _, _ => t

/-- The outstanding operation that a response belongs to, with its id. -/
def operation? (s : Session) (response : Topic.Response) : Option (RequestId × Operation) := do
  let id ← RequestId.parse? response.requestId
  let op ← s.pending.lookup id
  return (id, op)

/-- **A message has come in**: a response answers the operation it belongs to. -/
def respond (topic : String) (payload : Text.Octets) (t : Turn) : Turn :=
  match Topic.Response.parse topic with
  | .error _ => t.emit (.count .responseDropped)
  | .ok response =>
    match operation? t.session response with
    | none => t.emit (.count .responseDropped)
    | some (id, op) =>
      let result := Registration.interpret op.query response.status response.retryAfter payload
        t.session.settings.interval
      ((t.remove id).emit (.count .responseDispatched)).emit (.respond op.ticket result)

/-- The connection manager has said something. -/
def notice (n : Connection.Notice) (t : Turn) : Turn :=
  match n with
  | .message topic payload => t.respond topic payload
  | .stateChanged _ => t
  | .lost why =>
    match t.session.state with
    | .connected => t.lose why
    | .connecting | .reconnecting => t.update fun s => { s with lossInChange := some why }
    | .disconnected | .disconnecting => t

/-- Refuses work that nobody will do. -/
def refuse (work : Work) (t : Turn) : Turn :=
  match work with
  | .publish _ => t
  | .disconnect ticket | .updateCredential _ ticket => t.answer ticket (.error gone)

/-- The last turn: answers everyone. -/
def shutDown (t : Turn) : Turn :=
  let t := (t.endAll gone).answerWaiter (.error gone)
  t.session.deferred.foldl (fun t work => t.refuse work)
    (t.update fun s => { s with deferred := [] })

end Turn

/-- **What a session takes notice of.** -/
inductive Input where
  | order (order : Order)
  | completion (completion : Completion)
  | notice (notice : Connection.Notice)
  /-- No caller is left. -/
  | shutDown

/-- **One step of a session**; `manager` is the state of its connection manager. -/
def step (manager : State) (s : Session) (input : Input) : Turn :=
  let t : Turn := { session := s }
  match input with
  | .order order => t.take order
  | .completion (.connected result) => t.connected manager result
  | .completion (.published id result) => t.published manager id result
  | .completion (.disconnected result) => t.disconnected result
  | .completion (.reconnected result) => t.reconnected manager result
  | .notice notice => t.notice notice
  | .shutDown => t.shutDown

/-- The steps of a session that takes several inputs, one after the other. -/
def run (manager : State) (s : Session) (inputs : List Input) : Turn :=
  inputs.foldl
    (fun t input =>
      let next := t.session.step manager input
      { next with effects := t.effects ++ next.effects })
    { session := s }

end Session
end DeviceProvisioning
