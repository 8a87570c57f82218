import DeviceProvisioning.Connection.Command

/-!
# The connection manager

A manager owns at most one link.  It takes orders and completions one at a time; `step` is
what it does with one of them: the manager afterwards and the effects, in their order.

**Changes.**  Connecting, disconnecting and changing the credential take time.  Meanwhile
the state is transitional, the caller of the change waits, and every order that comes in is
deferred.  When the state has settled the deferred orders are taken up in the order in which
they came; one of them may begin the next change, and the others then wait again.

**Rotation.**  A new credential needs a new connection.  The manager closes the link, and
goes on when it is closed or, at the latest, when its patience ends; then it connects with
the new credential.

**Losses.**  When the link of an established connection fails or is closed by the broker,
every message in flight has failed, and the owner is told.

**Generations.**  Every connection attempt has the next number, and a completion with an
older number is out of date.
-/

namespace DeviceProvisioning.Connection

open Time (Millis)

/-- How far a rotation has come. -/
inductive Phase where
  | tearingDown
  | dialling
deriving DecidableEq

/-- **A connection manager.** -/
structure Manager where
  /-- How long a rotation waits for the old link to close. -/
  patience : Millis := 30000
  ids : RequestId.Source := .sequential
  state : State := .disconnected
  /-- The parameters of the latest connection attempt. -/
  parameters : Option Parameters := none
  /-- A credential for the next connection. -/
  storedCredential : Option Credential := none
  link : Option LinkId := none
  /-- The number of the latest connection attempt. -/
  generation : Nat := 0
  /-- The caller of the change under way. -/
  waiter : Option Ticket := none
  phase : Option Phase := none
  /-- When the patience of a rotation ends. -/
  deadline : Option Millis := none
  /-- The messages that are not yet acknowledged. -/
  inFlight : List (RequestId × Ticket) := []
  /-- The orders that wait for the change under way. -/
  deferred : List Order := []

/-- **What a step has come to so far**: the manager, and the effects. -/
structure Turn where
  manager : Manager
  effects : List Effect := []

namespace Turn

/-- One more effect. -/
def emit (effect : Effect) (t : Turn) : Turn :=
  { t with effects := t.effects ++ [effect] }

/-- A change of the manager alone. -/
def update (f : Manager → Manager) (t : Turn) : Turn :=
  { t with manager := f t.manager }

/-- The answer to a caller. -/
def answer (ticket : Ticket) (result : Except Failure Unit) : Turn → Turn :=
  emit (.answer ticket result)

/-- Enters a state, and says so. -/
def enter (next : State) (t : Turn) : Turn :=
  if t.manager.state = next then t
  else (t.update fun m => { m with state := next }).emit (.notify (.stateChanged next))

/-- Answers the caller of the change under way, if there is one. -/
def answerWaiter (result : Except Failure Unit) (t : Turn) : Turn :=
  match t.manager.waiter with
  | some ticket => (t.update fun m => { m with waiter := none }).answer ticket result
  | none => t

/-- Fails every message in flight. -/
def failInFlight (why : Failure) (t : Turn) : Turn :=
  t.manager.inFlight.foldl
    (fun t (_, ticket) => (t.emit (.count .publishFailed)).answer ticket (.error why))
    (t.update fun m => { m with inFlight := [] })

/-- Starts a connection attempt. -/
def dial (parameters : Parameters) (t : Turn) : Turn :=
  let generation := t.manager.generation + 1
  ((t.update fun m => { m with generation, parameters := some parameters }).emit
    (.count .connectionAttempted)).emit (.dial generation parameters)

/-- Starts closing a link. -/
def tearDown (link : LinkId) (t : Turn) : Turn :=
  t.emit (.tearDown t.manager.generation link)

/-- Closes the manager's link at once, if it has one. -/
def forceClose (t : Turn) : Turn :=
  match t.manager.link with
  | some link => (t.update fun m => { m with link := none }).emit (.forceClose link)
  | none => t

/-- Puts an order off. -/
def defer (order : Order) : Turn → Turn :=
  update fun m => { m with deferred := m.deferred ++ [order] }

/-- Carries out an order while there is no connection. -/
def whileDisconnected (order : Order) (t : Turn) : Turn :=
  match order.command with
  | .connect parameters =>
    let parameters := match t.manager.storedCredential with
      | some credential => { parameters with credential := some credential }
      | none => parameters
    (((t.update fun m => { m with storedCredential := none }).enter .connecting).update
      fun m => { m with waiter := some order.ticket }).dial parameters
  | .disconnect => t.answer order.ticket (.ok ())
  | .updateCredential credential =>
    (t.update fun m => { m with storedCredential := some credential }).answer order.ticket (.ok ())
  | .publish .. | .subscribe .. | .unsubscribe .. =>
    t.answer order.ticket (.error (.notConnected "not connected"))

/-- Carries out an order on an open link. -/
def whileConnected (now : Millis) (link : LinkId) (order : Order) (t : Turn) : Turn :=
  match order.command with
  | .connect _ => t.answer order.ticket (.ok ())
  | .disconnect =>
    ((t.enter .disconnecting).update fun m => { m with waiter := some order.ticket }).tearDown link
  | .publish topic payload delivery =>
    let id := t.manager.ids.peek
    ((t.emit (.count .publishStarted)).update fun m =>
      { m with
        ids := m.ids.advance
        inFlight := m.inFlight.filter (·.1 ≠ id) ++ [(id, order.ticket)] }).emit
      (.publish link id topic payload delivery)
  | .subscribe filter qos => t.emit (.subscribe link filter qos order.ticket)
  | .unsubscribe filter => t.emit (.unsubscribe link filter order.ticket)
  | .updateCredential credential =>
    let store (m : Manager) : Manager :=
      match m.parameters with
      | some parameters =>
        { m with parameters := some { parameters with credential := some credential } }
      | none => { m with storedCredential := some credential }
    (((t.update store).enter .reconnecting).update fun m =>
      { m with
        waiter := some order.ticket
        phase := some .tearingDown
        deadline := some (now + m.patience) }).tearDown link

/-- **Takes an order**: carries it out, or puts it off while a change is under way. -/
def take (now : Millis) (order : Order) (t : Turn) : Turn :=
  match t.manager.state with
  | .connecting | .disconnecting | .reconnecting => t.defer order
  | .disconnected => t.whileDisconnected order
  | .connected =>
    match t.manager.link with
    | some link => t.whileConnected now link order
    | none => t.answer order.ticket (.error (.notConnected "no open connection"))

/-- Takes up the orders that were put off. -/
def replay (now : Millis) (t : Turn) : Turn :=
  t.manager.deferred.foldl (fun t order => t.take now order)
    (t.update fun m => { m with deferred := [] })

/-- Tells the caller of the change under way, or else the owner, why there is no connection
any more. -/
def report (why : Option Failure) (t : Turn) : Turn :=
  match t.manager.waiter, why with
  | some _, some why => t.answerWaiter (.error why)
  | some _, none => t.answerWaiter (.ok ())
  | none, some why => t.emit (.notify (.lost why))
  | none, none => t

/-- **The connection has ended,** by a failure or as it was asked for. -/
def settleDisconnected (now : Millis) (why : Option Failure) (t : Turn) : Turn :=
  (((((t.update fun m => { m with link := none, deadline := none, phase := none }).emit
    (.count .connectionLost)).enter .disconnected).failInFlight
    (why.getD (.notConnected "connection closed"))).report why).replay now

/-- The old link of a rotation is gone: connects with the new credential. -/
def redial (now : Millis) (t : Turn) : Turn :=
  let t := (t.update fun m => { m with deadline := none, link := none }).failInFlight
    (.notConnected "connection closed for credential update")
  match t.manager.parameters with
  | some parameters =>
    (t.update fun m => { m with phase := some .dialling }).dial parameters
  | none =>
    t.settleDisconnected now (some (.notConnected "no configuration to reconnect with"))

/-- A connection attempt has ended. -/
def dialled (now : Millis) (generation : Nat) (result : Except LinkError LinkId) (t : Turn) :
    Turn :=
  if generation = t.manager.generation then
    match result with
    | .ok link =>
      ((((t.emit (.count .connectionEstablished)).update fun m =>
        { m with link := some link, phase := none }).enter .connected).answerWaiter
        (.ok ())).replay now
    | .error error =>
      (t.emit (.count .connectionFailed)).settleDisconnected now (some (.ofLink error))
  else match result with
    | .ok link => t.emit (.forceClose link)
    | .error _ => t

/-- A link has been closed. -/
def tornDown (now : Millis) (generation : Nat) (t : Turn) : Turn :=
  if generation = t.manager.generation then
    match t.manager.state, t.manager.phase with
    | .disconnecting, _ => t.settleDisconnected now none
    | .reconnecting, some .tearingDown => t.redial now
    | _, _ => t
  else t

/-- The patience of a rotation has ended. -/
def expired (now : Millis) (t : Turn) : Turn :=
  let t := t.update fun m => { m with deadline := none }
  if t.manager.state = .reconnecting ∧ t.manager.phase = some .tearingDown then
    t.forceClose.redial now
  else t

/-- A message has been delivered, or could not be. -/
def published (id : RequestId) (result : Except LinkError Unit) (t : Turn) : Turn :=
  match t.manager.inFlight.lookup id with
  | none => t
  | some ticket =>
    let t := t.update fun m => { m with inFlight := m.inFlight.filter (·.1 ≠ id) }
    match result with
    | .ok () => (t.emit (.count .publishAcknowledged)).answer ticket (.ok ())
    | .error error =>
      (t.emit (.count .publishFailed)).answer ticket (.error (.ofLink error))

/-- Something has happened on a link. -/
def linkEvent (now : Millis) (generation : Nat) (event : Link.Event) (t : Turn) : Turn :=
  if generation = t.manager.generation then
    match event with
    | .message topic payload =>
      (t.emit (.count .messageReceived)).emit (.notify (.message topic payload))
    | .closed =>
      if t.manager.state = .connected then
        t.settleDisconnected now
          (some (.notConnected "connection to the server has been closed"))
      else t
    | .failed error =>
      if t.manager.state = .connected then
        (t.enter .disconnecting).forceClose.settleDisconnected now (some (.ofLink error))
      else t
  else t

/-- What callers learn of a manager that is no more. -/
def gone : Failure :=
  .notConnected "connection manager has shut down"

/-- The last turn: closes the link, and answers everyone. -/
def shutDown (t : Turn) : Turn :=
  let t := (t.forceClose.failInFlight gone).answerWaiter (.error gone)
  t.manager.deferred.foldl (fun t order => t.answer order.ticket (.error gone))
    (t.update fun m => { m with deferred := [], state := .disconnected })

end Turn

/-- **What a manager takes notice of.** -/
inductive Input where
  | order (order : Order)
  | completion (completion : Completion)
  /-- The deadline has passed. -/
  | expired
  /-- No caller is left. -/
  | shutDown

namespace Manager

/-- **One step of a manager.** -/
def step (now : Millis) (m : Manager) (input : Input) : Turn :=
  let t : Turn := { manager := m }
  match input with
  | .order order => t.take now order
  | .completion (.dialled generation result) => t.dialled now generation result
  | .completion (.tornDown generation _) => t.tornDown now generation
  | .completion (.published id result) => t.published id result
  | .completion (.link generation event) => t.linkEvent now generation event
  | .expired => t.expired now
  | .shutDown => t.shutDown

/-- The steps of a manager that takes several inputs, one after the other. -/
def run (now : Millis) (m : Manager) (inputs : List Input) : Turn :=
  inputs.foldl
    (fun t input =>
      let next := t.manager.step now input
      { next with effects := t.effects ++ next.effects })
    { manager := m }

end Manager
end DeviceProvisioning.Connection
