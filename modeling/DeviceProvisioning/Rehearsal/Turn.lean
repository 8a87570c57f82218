import DeviceProvisioning.Rehearsal.World

/-!
# Turns

When a job takes its turn it does all it can, and then it waits or ends.  The manager and the
session take up what has come into their inboxes, and the effects of their steps start new
jobs or go to whoever is meant.  What was started on someone's behalf tries to do its part
and reports the result.  A caller gives a command and waits for the answer to it.

`World.poll` is the turn of a job.
-/

namespace DeviceProvisioning.Rehearsal

open Connection (LinkId Parameters Ticket)
open Session (Call Stage)
open Time (Millis)

namespace World

/-! ## The manager -/

/-- What a notice of the manager leads to. -/
def hearManager (notice : Connection.Notice) (w : World) : World :=
  if w.session.isSome then
    ({ w with sessionNotices := w.sessionNotices ++ [notice] }).wakeAll Job.isSession
  else if w.listens then { w with heard := w.heard ++ [.manager notice] }
  else w

/-- What an effect of the manager leads to. -/
def onManager (w : World) : Connection.Effect → World
  | .answer ticket result => w.deliver ticket (.done result)
  | .notify notice => w.hearManager notice
  | .dial generation parameters => w.spawn (.dial generation parameters)
  | .tearDown generation link => w.spawn (.tearDown generation link false)
  | .forceClose link =>
    ({ w with broker := { w.broker with forceCloses := w.broker.forceCloses + 1 } }).closeLink link
  | .publish link id topic payload delivery =>
    w.spawn (.publish id link { topic, payload, delivery } false)
  | .subscribe link filter _ ticket => w.spawn (.subscribe link filter ticket)
  | .unsubscribe link filter ticket => w.spawn (.unsubscribe link filter ticket)
  | .count happening => { w with metrics := w.metrics.count happening }

/-- The manager takes one input. -/
def stepManager (w : World) (input : Connection.Input) : World :=
  let turn := w.manager.step w.now input
  turn.effects.foldl onManager { w with manager := turn.manager }

/-- The manager's turn: its inbox, and then its deadline. -/
def pollManager (id : JobId) (w : World) : World :=
  let inputs := w.managerOrders.map .order ++ w.managerCompletions.map .completion
  let w := inputs.foldl stepManager { w with managerOrders := [], managerCompletions := [] }
  if w.managerHeld then
    if w.manager.deadline.any (· ≤ w.now) then w.stepManager .expired else w
  else (w.stepManager .shutDown).finish id

/-! ## The session -/

/-- What an effect of the session leads to. -/
def onSession (w : World) (effect : Session.Effect) : World :=
  match Call.of? effect with
  | some call => w.spawn (.call call)
  | none =>
    match effect with
    | .respond ticket result => w.deliver ticket (.response result)
    | .answer ticket result => w.deliver ticket (.done result)
    | .notify notice => if w.listens then { w with heard := w.heard ++ [.session notice] } else w
    | .count happening => { w with metrics := w.metrics.count happening }
    | _ => w

/-- The session takes one input. -/
def stepSession (w : World) (input : Session.Input) : World :=
  match w.session with
  | none => w
  | some session =>
    let turn := session.step w.manager.state input
    turn.effects.foldl onSession { w with session := some turn.session }

/-- The session's turn: its inbox; at its end it disconnects. -/
def pollSession (id : JobId) (w : World) : World :=
  let inputs := w.sessionOrders.map .order ++ w.sessionCompletions.map .completion
    ++ w.sessionNotices.map .notice
  let w := inputs.foldl stepSession
    { w with sessionOrders := [], sessionCompletions := [], sessionNotices := [] }
  if w.sessionHeld then w
  else match (w.stepSession .shutDown).callManager .disconnect with
    | (.inl ticket, w) => w.put id (.session (some ticket))
    | (.inr _, w) => w.finish id

/-! ## What is started on someone's behalf -/

/-- A connection attempt, as long as connections are held back, and then its result. -/
def pollDial (id : JobId) (generation : Nat) (parameters : Parameters) (w : World) : World :=
  if w.broker.connectsHeld then w
  else
    let former := w.broker.listener
    let (result, broker) := w.broker.accept id parameters
    let w := { w with broker }
    match result with
    | .error error => (w.tellManager (.dialled generation (.error error))).finish id
    | .ok link =>
      let w := match former.bind fun f => (w.jobs.lookup f).map (f, ·) with
        | some (f, .forward g inbox _) => (w.put f (.forward g inbox false)).wake f
        | _ => w
      if w.managerRuns then
        (w.tellManager (.dialled generation (.ok link))).put id (.forward generation [] true)
      else w.finish id

/-- Passes on what happened on a link. -/
def pollForward (id : JobId) (generation : Nat) (inbox : List Link.Event) (isOpen : Bool)
    (w : World) : World :=
  let w := inbox.foldl (fun w event => w.tellManager (.link generation event)) w
  if isOpen ∧ w.managerRuns then w.put id (.forward generation [] true) else w.finish id

/-- Closes a link gracefully; where that hangs, only a forced close ends it. -/
def pollTearDown (id : JobId) (generation : Nat) (link : LinkId) (begun : Bool) (w : World) :
    World :=
  let hangs (w : World) : World :=
    if w.broker.isClosed link then
      (w.tellManager (.tornDown generation (.error prematureClose))).finish id
    else w.put id (.tearDown generation link true)
  if begun then hangs w
  else
    let w := { w with broker := { w.broker with disconnects := w.broker.disconnects + 1 } }
    if w.broker.disconnectsHang then hangs w
    else ((w.closeLink link).tellManager (.tornDown generation (.ok ()))).finish id

/-- Publishes a message, and waits until it is acknowledged or the link is closed. -/
def pollPublish (id : JobId) (request : RequestId) (link : LinkId) (message : Published)
    (begun : Bool) (w : World) : World :=
  let ends (result : Except LinkError Unit) (w : World) : World :=
    (w.tellManager (.published request result)).finish id
  let waits (w : World) : World :=
    if w.broker.isClosed link then ends (.error prematureClose) w
    else if w.broker.acksHeld then w.put id (.publish request link message true)
    else ends (.ok ()) w
  if begun then waits w
  else if w.broker.isClosed link then ends (.error closedLink) w
  else
    let (failure, broker) := w.broker.receive message
    let w := { w with broker }
    match failure with
    | some error => ends (.error error) w
    | none => waits w

/-- Subscribes, and answers the caller. -/
def pollSubscribe (id : JobId) (link : LinkId) (filter : String) (ticket : Ticket) (w : World) :
    World :=
  let ends (result : Except LinkError Unit) (w : World) : World :=
    (w.deliver ticket (.done (result.mapError .ofLink))).finish id
  if w.broker.isClosed link then ends (.error closedLink) w
  else
    let (result, broker) := w.broker.subscribe filter
    let w := { w with broker }
    match result with
    | .error error => ends (.error error) w
    | .ok true => ends (.ok ()) ((w.closeLink link).sendEvent .closed)
    | .ok false => ends (.ok ()) w

/-- Unsubscribes, and answers the caller. -/
def pollUnsubscribe (id : JobId) (link : LinkId) (filter : String) (ticket : Ticket)
    (w : World) : World :=
  let ends (result : Except LinkError Unit) (w : World) : World :=
    (w.deliver ticket (.done (result.mapError .ofLink))).finish id
  if w.broker.isClosed link then ends (.error closedLink) w
  else
    ends (.ok ())
      { w with broker := { w.broker with unsubscribed := w.broker.unsubscribed ++ [filter] } }

/-! ## Callers -/

/-- The answer to a ticket, if it has come. -/
def answer? (ticket : Ticket) (w : World) : Option Answer :=
  w.answers.lookup ticket

/-- The answer to a ticket of a command that is done or not. -/
def doneAnswer? (ticket : Ticket) (w : World) : Option (Except Failure Unit) :=
  match w.answer? ticket with
  | some (.done result) => some result
  | _ => none

/-- A call of the session goes on: it gives its next order, or tells its result.  An order that is
refused at once is answered by that. -/
def pursue (id : JobId) (effect : Session.Effect) (stage : Stage) (w : World) : World :=
  match stage with
  | .done result =>
    match effect.completion? result with
    | some completion => (w.tellSession completion).finish id
    | none => w.finish id
  | .ready duty =>
    match w.callManager duty.command with
    | (.inl ticket, w) => w.put id (.call ⟨effect, .waiting duty ticket⟩)
    | (.inr result, w) => w.pursue id effect (duty.next result)
  | .waiting duty ticket => w.put id (.call ⟨effect, .waiting duty ticket⟩)
termination_by stage.left
decreasing_by exact duty.left_next result

/-- The turn of a call of the session. -/
def pollCall (id : JobId) (call : Call) (w : World) : World :=
  match call.stage with
  | .waiting duty ticket =>
    match w.doneAnswer? ticket with
    | some result => w.pursue id call.effect (duty.next result)
    | none => w
  | stage => w.pursue id call.effect stage

/-- A caller has been told the result. -/
def record (step : StepId) (result : Result) (w : World) : World :=
  { w with done := w.done ++ [(step, w.now, result)] }

/-- The turn of a caller of the manager. -/
def pollManagerCall (id : JobId) (step : StepId) (command : Connection.Command)
    (ticket : Option Ticket) (w : World) : World :=
  match ticket with
  | some ticket =>
    match w.doneAnswer? ticket with
    | some result => (w.record step (.done result)).finish id
    | none => w
  | none =>
    match w.callManager command with
    | (.inl ticket, w) => w.put id (.managerCall step command (some ticket))
    | (.inr result, w) => (w.record step (.done result)).finish id

/-- What a caller learns whose command is refused at once. -/
def refusal (why : Failure) : Session.Command → Result
  | .ask .. => .response (.error why)
  | _ => .done (.error why)

/-- The turn of a caller of the session. -/
def pollSessionCall (id : JobId) (step : StepId) (command : Session.Command)
    (ticket : Option Ticket) (w : World) : World :=
  match ticket with
  | some ticket =>
    match w.answer? ticket with
    | some (.done result) => (w.record step (.done result)).finish id
    | some (.response result) => (w.record step (.response result)).finish id
    | none => w
  | none =>
    match w.callSession command with
    | (.ok ticket, w) => w.put id (.sessionCall step command (some ticket))
    | (.error why, w) => (w.record step (refusal why command)).finish id

/-- When the time limit of a registrant ends, if it can still end anything. -/
def Registrant.limitAt? (r : Registrant) : Option Millis :=
  match r.stage with
  | .asking | .pausing _ => r.limit.map (r.startedAt + ·)
  | _ => none

/-- What a registrant takes notice of next, if anything. -/
def Registrant.signal? (r : Registrant) (w : World) : Option Registration.Signal :=
  let inner : Option Registration.Signal :=
    match r.stage with
    | .ready => some .started
    | .asking =>
      match r.ticket.bind w.answer? with
      | some (.response result) => some (.answered result)
      | _ => none
    | .pausing _ => if r.resumeAt.any (· ≤ w.now) then some .resumed else none
    | .cancelling _ => (r.ticket.bind w.answer?).map fun _ => .cancelled
    | .leaving _ => (r.ticket.bind w.answer?).map fun _ => .disconnected
    | .ended _ => none
  match inner with
  | some signal => some signal
  | none =>
    match r.limit, Registrant.limitAt? r with
    | some limit, some at_ => if at_ ≤ w.now then some (.timeUp limit) else none
    | _, _ => none

/-- The command of the session that an action needs. -/
def Registrant.command? (r : Registrant) : Registration.Action → Option Session.Command
  | .ask query => some (.ask r.request query)
  | .cancel => some .cancel
  | .disconnect => some .disconnect
  | .pause _ | .finish _ => none

/-- What an action of a registrant leads to; a refusal is an answer too. -/
def act (w : World) (r : Registrant) (action : Registration.Action) : Registrant × World :=
  match action with
  | .pause interval => ({ r with resumeAt := some (w.now + interval) }, w)
  | .finish verdict =>
    (r, ({ w with
      metrics := w.metrics.count
        (.registrationFinished (w.now - r.startedAt) (verdict matches .ok _)) }).record
          r.step (.verdict verdict))
  | _ =>
    match Registrant.command? r action with
    | none => (r, w)
    | some command =>
      match w.callSession command with
      | (.ok ticket, w) => ({ r with ticket := some ticket }, w)
      | (.error why, w) =>
        let ticket := w.nextTicket
        ({ r with ticket := some ticket },
          ({ w with nextTicket := ticket + 1 }).deliver ticket (.response (.error why)))

/-- The turn of a registrant: it takes notice of one thing after the other; the first argument
bounds their number. -/
def pollRegistrant : Nat → JobId → Registrant → World → World
  | 0, id, r, w => w.put id (.registrant r)
  | fuel + 1, id, r, w =>
    match Registrant.signal? r w with
    | none => w.put id (.registrant r)
    | some signal =>
      let (stage, actions) := r.stage.step signal
      let r := { r with stage, ticket := none, resumeAt := none }
      let (r, w) := actions.foldl (fun (r, w) action => act w r action) (r, w)
      match stage with
      | .ended _ => w.finish id
      | _ => pollRegistrant fuel id r w

/-! ## Any job -/

/-- **One job takes its turn.** -/
def poll (id : JobId) (w : World) : World :=
  match w.jobs.lookup id with
  | none => w
  | some .manager => w.pollManager id
  | some (.session none) => w.pollSession id
  | some (.session (some ticket)) => if (w.answer? ticket).isSome then w.finish id else w
  | some (.dial generation parameters) => w.pollDial id generation parameters
  | some (.forward generation inbox isOpen) => w.pollForward id generation inbox isOpen
  | some (.tearDown generation link begun) => w.pollTearDown id generation link begun
  | some (.publish request link message begun) => w.pollPublish id request link message begun
  | some (.subscribe link filter ticket) => w.pollSubscribe id link filter ticket
  | some (.unsubscribe link filter ticket) => w.pollUnsubscribe id link filter ticket
  | some (.call call) => w.pollCall id call
  | some (.managerCall step command ticket) => w.pollManagerCall id step command ticket
  | some (.sessionCall step command ticket) => w.pollSessionCall id step command ticket
  | some (.registrant r) => pollRegistrant 8 id r w

end World
end DeviceProvisioning.Rehearsal
