import DeviceProvisioning.Registration.Request
import DeviceProvisioning.Registration.Response

/-!
# Registering a device

A registration is asked for, and then its status, until the status can no longer change.
Between two questions a **run** waits for as long as the latest response asks it to.  Once
an operation is known its status is asked for; until then the registration itself is asked
for again.

A run may have a time limit, counted from its start.  When it ends the outstanding question
is cancelled.  Whatever the outcome, the run ends by disconnecting, once.
-/

namespace DeviceProvisioning.Registration

open Time (Millis)

/-- **Why a registration has no assignment.** -/
inductive Problem where
  | transport (failure : Failure)
  | rejected (status : Status) (code : Option Int) (message : String)
  | missingRecord (status : Status)
  | timedOut (limit : Millis)

/-- The wording of a problem. -/
def Problem.message : Problem → String
  | transport failure => "transport error: " ++ failure.message
  | rejected status _ message => "registration " ++ status.name ++ ": " ++ message
  | missingRecord status =>
    "service reported " ++ status.name ++ " without a registration state"
  | timedOut limit => "registration did not complete within " ++ limit.render

/-- What a registration comes to. -/
abbrev Verdict := Except Problem Record

/-- **What an outcome comes to** whose status can no longer change. -/
def Outcome.verdict (o : Outcome) : Verdict :=
  match o.record with
  | none => .error (.missingRecord o.status)
  | some record =>
    if o.status = .assigned then .ok record
    else
      .error (.rejected o.status record.errorCode
        (record.errorMessage.getD ("registration ended with status " ++ o.status.name)))

/-- What to ask next when an outcome is pending. -/
def Outcome.nextQuery (o : Outcome) : Query :=
  match o.operationId with
  | some operationId => .operationStatus operationId
  | none => .registration

/-- **How far a run has come.** -/
inductive Stage where
  | ready
  /-- A question has been put. -/
  | asking
  /-- The next question will be put in time. -/
  | pausing (next : Query)
  /-- The time limit has ended, and the outstanding question is being cancelled. -/
  | cancelling (limit : Millis)
  /-- The connection is being closed. -/
  | leaving (verdict : Verdict)
  | ended (verdict : Verdict)

/-- **What a run takes notice of.** -/
inductive Signal where
  | started
  | answered (result : Except Failure Response)
  /-- The pause is over. -/
  | resumed
  /-- The time limit has ended. -/
  | timeUp (limit : Millis)
  | cancelled
  | disconnected

/-- **What a run does next.** -/
inductive Action where
  | ask (query : Query)
  | pause (interval : Millis)
  | cancel
  | disconnect
  | finish (verdict : Verdict)

namespace Stage

/-- What follows a response. -/
def afterResponse (r : Response) : Stage × List Action :=
  if r.outcome.status.isPending then
    (.pausing r.outcome.nextQuery, [.pause r.interval])
  else (.leaving r.outcome.verdict, [.disconnect])

/-- **One step of a run.**  A signal that does not belong to the stage changes nothing. -/
def step : Stage → Signal → Stage × List Action
  | ready, .started => (asking, [.ask .registration])
  | asking, .answered (.ok response) => afterResponse response
  | asking, .answered (.error failure) =>
    (leaving (.error (.transport failure)), [.disconnect])
  | pausing next, .resumed => (asking, [.ask next])
  | asking, .timeUp limit => (cancelling limit, [.cancel])
  | pausing _, .timeUp limit => (cancelling limit, [.cancel])
  | cancelling limit, .cancelled => (leaving (.error (.timedOut limit)), [.disconnect])
  | leaving verdict, .disconnected => (ended verdict, [.finish verdict])
  | stage, _ => (stage, [])

end Stage
end DeviceProvisioning.Registration
