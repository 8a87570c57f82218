import DeviceProvisioning.Connection.Manager
import DeviceProvisioning.Rehearsal.Job
import DeviceProvisioning.Session.Basic

/-!
# The world of a rehearsal

A world holds everything that takes part: the broker, the connection manager and the session
with their inboxes, and the jobs.  Jobs that have something to do stand in a queue; one that
is woken while it stands there keeps its place.

What the parts have to tell each other goes into an inbox and wakes whoever reads it.  An
answer is kept under its ticket.
-/

namespace DeviceProvisioning.Rehearsal

open Connection (LinkId Manager Ticket)
open Registration (Response Verdict)
open Time (Millis)

/-- What an answer to a ticket holds. -/
inductive Answer where
  | done (result : Except Failure Unit)
  | response (result : Except Failure Response)

/-- **What a caller was told in the end.** -/
inductive Result where
  | done (result : Except Failure Unit)
  | response (result : Except Failure Response)
  | verdict (verdict : Verdict)

/-- What the owner of the manager or of the session was told. -/
inductive Heard where
  | manager (notice : Connection.Notice)
  | session (notice : Session.Notice)

/-- **Everything that takes part in a rehearsal.** -/
structure World where
  now : Millis := 0
  broker : Broker := {}
  metrics : Metrics := {}
  manager : Manager := {}
  session : Option Session := none
  managerOrders : List Connection.Order := []
  managerCompletions : List Connection.Completion := []
  sessionOrders : List Session.Order := []
  sessionCompletions : List Session.Completion := []
  sessionNotices : List Connection.Notice := []
  /-- Whether the script holds the manager. -/
  holdsManager : Bool := false
  /-- Whether the script holds the session. -/
  holdsSession : Bool := false
  /-- Whether the script listens to notices. -/
  listens : Bool := true
  jobs : List (JobId × Job) := []
  queue : List JobId := []
  nextJob : JobId := 0
  nextTicket : Ticket := 0
  answers : List (Ticket × Answer) := []
  heard : List Heard := []
  done : List (StepId × Millis × Result) := []

namespace World

/-! ## Jobs -/

/-- Puts a job into the queue. -/
def wake (id : JobId) (w : World) : World :=
  if id ∈ w.queue then w else { w with queue := w.queue ++ [id] }

/-- Puts every job with a property into the queue. -/
def wakeAll (p : Job → Bool) (w : World) : World :=
  w.jobs.foldl (fun w (id, job) => if p job then w.wake id else w) w

/-- A new job. -/
def spawn (job : Job) (w : World) : World :=
  { w with
    jobs := w.jobs ++ [(w.nextJob, job)]
    queue := w.queue ++ [w.nextJob]
    nextJob := w.nextJob + 1 }

/-- Replaces a job. -/
def put (id : JobId) (job : Job) (w : World) : World :=
  { w with jobs := w.jobs.map fun (i, j) => if i = id then (i, job) else (i, j) }

/-- Whether some job has a property. -/
def anyJob (p : Job → Bool) (w : World) : Bool :=
  w.jobs.any fun (_, job) => p job

/-- Whether the manager runs. -/
def managerRuns (w : World) : Bool :=
  w.anyJob Job.isManager

/-- Whether someone holds the manager. -/
def managerHeld (w : World) : Bool :=
  w.holdsManager || w.anyJob Job.holdsManager

/-- Whether someone holds the session. -/
def sessionHeld (w : World) : Bool :=
  w.holdsSession || w.anyJob Job.holdsSession

/-- Lets the manager and the session know when nobody holds them any more. -/
def checkHandles (w : World) : World :=
  let w := if w.sessionHeld then w else w.wakeAll Job.isSession
  if w.managerHeld then w else w.wakeAll Job.isManager

/-- The job ends. -/
def finish (id : JobId) (w : World) : World :=
  ({ w with jobs := w.jobs.filter (·.1 ≠ id) }).checkHandles

/-! ## Messages -/

/-- An answer for whoever waits with this ticket. -/
def deliver (ticket : Ticket) (answer : Answer) (w : World) : World :=
  ({ w with answers := (ticket, answer) :: w.answers }).wakeAll (·.awaits? == some ticket)

/-- Tells the manager that something it had started has ended. -/
def tellManager (completion : Connection.Completion) (w : World) : World :=
  if w.managerRuns then
    ({ w with managerCompletions := w.managerCompletions ++ [completion] }).wakeAll Job.isManager
  else w

/-- Tells the session that something it had started has ended. -/
def tellSession (completion : Session.Completion) (w : World) : World :=
  ({ w with sessionCompletions := w.sessionCompletions ++ [completion] }).wakeAll Job.isSession

/-- A command for the manager, with the next ticket. -/
def orderManager (command : Connection.Command) (w : World) : World :=
  { w with
    nextTicket := w.nextTicket + 1
    managerOrders := w.managerOrders ++ [{ ticket := w.nextTicket, command }] }

/-- A command for the session, with the next ticket. -/
def orderSession (command : Session.Command) (w : World) : World :=
  { w with
    nextTicket := w.nextTicket + 1
    sessionOrders := w.sessionOrders ++ [{ ticket := w.nextTicket, command }] }

/-- **Gives the manager a command,** unless the caller can be told the result at once. -/
def callManager (command : Connection.Command) (w : World) :
    (Ticket ⊕ Except Failure Unit) × World :=
  match command.check with
  | .error why => (.inr (.error why), w)
  | .ok () =>
    if w.managerRuns then
      (.inl w.nextTicket, (w.orderManager command).wakeAll Job.isManager)
    else (.inr (.error Connection.Turn.gone), w)

/-- **Gives the session a command,** unless the caller can be told at once what is wrong. -/
def callSession (command : Session.Command) (w : World) : Except Failure Ticket × World :=
  match command.check with
  | .error why => (.error why, w)
  | .ok () =>
    (.ok w.nextTicket, (w.orderSession command).wakeAll Job.isSession)

/-- An event of the latest link. -/
def sendEvent (event : Link.Event) (w : World) : World :=
  match w.broker.listener with
  | none => w
  | some id =>
    match w.jobs.lookup id with
    | some (.forward generation inbox isOpen) =>
      (w.put id (.forward generation (inbox ++ [event]) isOpen)).wake id
    | _ => w

/-- Closes a link. -/
def closeLink (link : LinkId) (w : World) : World :=
  ({ w with broker := w.broker.close link }).wakeAll (Job.watches link)

/-- Closes the latest link. -/
def closeCurrent (w : World) : World :=
  match w.broker.current with
  | some link => w.closeLink link
  | none => w

end World
end DeviceProvisioning.Rehearsal
