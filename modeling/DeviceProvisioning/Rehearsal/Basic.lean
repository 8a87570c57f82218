import DeviceProvisioning.Rehearsal.Clock
import DeviceProvisioning.Rehearsal.Script

/-!
# Rehearsals

A rehearsal plays a script.  After every step everybody takes their turns until nothing more
can happen, and then the step is reported.

A rehearsal with a session can let the session own its connection manager, or share one with
it; one without a session has a manager of its own.
-/

namespace DeviceProvisioning

open Rehearsal
open Time (Millis)

/-- **A rehearsal under way.** -/
structure Rehearsal where
  world : World
  /-- Whether the script has had a manager. -/
  showsManager : Bool
  /-- The steps that have started callers. -/
  started : List StepId := []

namespace Rehearsal

/-- A rehearsal with a connection manager. -/
def ofManager (patience : Millis) : Rehearsal where
  world := (({ manager := { patience }, holdsManager := true } : World).spawn .manager).settled
  showsManager := true

/-- A rehearsal with a session, and with a manager of the script's own if asked for. -/
def ofSession (settings : Session.Settings) (sharedPatience : Option Millis) : Rehearsal where
  world :=
    ((({ manager := { patience := sharedPatience.getD 30000 }
         session := some { settings }
         holdsManager := sharedPatience.isSome
         holdsSession := true } : World).spawn .manager).spawn (.session none)).settled
  showsManager := sharedPatience.isSome

/-- A change of the world. -/
def change (f : World → World) (r : Rehearsal) : Rehearsal × Option Skip :=
  ({ r with world := f r.world }, none)

/-- A change of the broker. -/
def script (f : Broker → Broker) : Rehearsal → Rehearsal × Option Skip :=
  change fun w => { w with broker := f w.broker }

/-- A new caller. -/
def start (step : StepId) (job : Job) (r : Rehearsal) : Rehearsal × Option Skip :=
  ({ r with world := r.world.spawn job, started := step :: r.started }, none)

/-- The topic of a response. -/
def responseTopic (requestId : String) (status : Nat) (extra : String) : String :=
  "$dps/registrations/res/" ++ String.ofList (Number.decimal status) ++ "/?$rid=" ++ requestId
    ++ extra

/-- The longest time by which a step moves the clock: thirty years of 365 days. -/
def longestSpan : Millis := 30 * 365 * 86400 * 1000

/-- **Does a step.** -/
def perform (number : StepId) (r : Rehearsal) : Step → Rehearsal × Option Skip
  | .failNextConnect error =>
    r.script fun b => { b with connectFailures := b.connectFailures ++ [error] }
  | .failNextPublish error =>
    r.script fun b => { b with publishFailures := b.publishFailures ++ [error] }
  | .failNextSubscribe error =>
    r.script fun b => { b with subscribeFailures := b.subscribeFailures ++ [error] }
  | .dropAfterNextSubscribe => r.script fun b => { b with dropAfterSubscribe := true }
  | .holdAcks held =>
    r.change fun w =>
      ({ w with broker := { w.broker with acksHeld := held } }).wakeAll Job.isPublish
  | .holdConnects held =>
    r.change fun w =>
      ({ w with broker := { w.broker with connectsHeld := held } }).wakeAll Job.isDial
  | .hangDisconnects hang => r.script fun b => { b with disconnectsHang := hang }
  | .deliver topic payload => r.change (·.sendEvent (.message topic payload))
  | .dropConnection => r.change fun w => w.closeCurrent.sendEvent .closed
  | .raiseError error => r.change fun w => w.closeCurrent.sendEvent (.failed error)
  | .reply message status extra body =>
    match r.world.broker.published[message]? with
    | none => (r, some .noSuchMessage)
    | some p =>
      r.change (·.sendEvent
        (.message (responseTopic (p.requestId?.getD "") status extra) body))
  | .replyTo requestId status extra body =>
    r.change (·.sendEvent (.message (responseTopic requestId status extra) body))
  | .callManager command =>
    if r.world.holdsManager then r.start number (.managerCall number command none)
    else (r, some .noManager)
  | .callSession command =>
    if r.world.holdsSession then r.start number (.sessionCall number command none)
    else (r, some .noSession)
  | .register request limit =>
    if r.world.holdsSession then
      r.start number
        (.registrant { step := number, request, limit, startedAt := r.world.now })
    else (r, some .noSession)
  | .advance span => r.change fun w => w.moveTo World.manyTurns (w.now + min span longestSpan)
  | .abort step =>
    if step ∈ r.started then
      r.change fun w =>
        match w.jobs.find? fun (_, job) => job.step? == some step with
        | some (id, _) => w.finish id
        | none => w
    else (r, some .noSuchCaller)
  | .dropManager => r.change fun w => ({ w with holdsManager := false }).checkHandles
  | .dropSession => r.change fun w => ({ w with holdsSession := false }).checkHandles
  | .dropNotices => r.change fun w => { w with listens := false }
  | .unknown => (r, some .unknownStep)

/-- What has happened in the world since it was `before`. -/
def report (before : Broker) (r : Rehearsal) (skipped : Option Skip) : Report :=
  let w := r.world
  { now := w.now
    done := w.done.mergeSort fun a b => a.1 ≤ b.1
    heard := w.heard
    connects := w.broker.connects.drop before.connects.length
    published := w.broker.published.drop before.published.length
    subscribed := w.broker.subscribed.drop before.subscribed.length
    unsubscribed := w.broker.unsubscribed.drop before.unsubscribed.length
    linkOpen := w.broker.isOpen
    disconnects := w.broker.disconnects
    forceCloses := w.broker.forceCloses
    manager := if r.showsManager then some w.manager.state else none
    session := if w.holdsSession then w.session.map (·.state) else none
    skipped }

/-- **One step and its report.** -/
def advance (r : Rehearsal) (number : StepId) (step : Step) : Rehearsal × Report :=
  let before := r.world.broker
  let (r, skipped) := r.perform number step
  let r := { r with world := r.world.settled }
  let report := r.report before skipped
  ({ r with world := { r.world with done := [], heard := [] } }, report)

/-- The steps from a number on, and their reports. -/
def runFrom (number : StepId) (r : Rehearsal) : List Step → Rehearsal × List Report
  | [] => (r, [])
  | step :: rest =>
    let (r, report) := r.advance number step
    let (r, reports) := runFrom (number + 1) r rest
    (r, report :: reports)

/-- **A whole script**: its reports, and the metrics at its end. -/
def run (r : Rehearsal) (steps : List Step) : List Report × Metrics :=
  let (r, reports) := r.runFrom 0 steps
  (reports, r.world.metrics)

end Rehearsal
end DeviceProvisioning
