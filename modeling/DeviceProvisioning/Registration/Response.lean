import DeviceProvisioning.Failure
import DeviceProvisioning.Json.Printer
import DeviceProvisioning.Registration.Record
import DeviceProvisioning.Text.Blank
import DeviceProvisioning.Time.Span

/-!
# What a response means

The status of a response decides.  Below 300 the body is the outcome.  From 300 up to 428
the service refused the request, and the body may say why.  From 429 on the service is too
busy: the caller should ask again, and is given a pending outcome that no body had to
supply.

A response may say after how many seconds to ask again; otherwise the caller's own interval
stands.
-/

namespace DeviceProvisioning.Registration

open Json (Member Reader)
open Text (Octets)

/-- **What was asked for**: a registration, or the status of an operation. -/
inductive Query where
  | registration
  | operationStatus (operationId : String)
deriving DecidableEq

/-- The name of a query in logs. -/
def Query.name : Query → String
  | registration => "registration"
  | operationStatus _ => "operation_status_query"

/-- **An outcome, and how long to wait before asking again.** -/
structure Response where
  outcome : Outcome
  interval : Time.Millis

/-- What the service says about a refusal. -/
structure Complaint where
  code : Option Json := none
  message : Option String := none

namespace Complaint

/-- The fields of a complaint. -/
def fields : List (Member Complaint) :=
  [⟨"errorCode", false, .map (fun v c => { c with code := v }) (.optional .any)⟩,
   ⟨"message", false, .map (fun v c => { c with message := v }) (.optional .text)⟩]

/-- Reads a complaint. -/
def reader : Reader Complaint :=
  .record fields {}

end Complaint

/-- The longest interval there is. -/
def maxInterval : Time.Millis := UInt64.size - 1

/-- **How long to wait before asking again**: the seconds of the response, or `default`. -/
def pollingInterval (retryAfter : Option Nat) (default : Time.Millis) : Time.Millis :=
  match retryAfter with
  | some seconds => min (seconds * 1000) maxInterval
  | none => default

/-- What to tell the caller about a refusal: the message of the body, with the code if it has
one; the body itself, unless it is blank; or only the status. -/
def refusalText (status : Nat) (body : Octets) : String :=
  match Complaint.reader.run (Text.Utf8.decode body) with
  | some { code := some code, message := some message } =>
    message ++ " (errorCode " ++ code.render ++ ")"
  | some { code := none, message := some message } => message
  | _ =>
    let text := Text.Utf8.decodeLossy body
    if Text.allBlank text then
      "request failed with status " ++ String.ofList (Number.decimal status)
    else text

/-- The outcome that stands for a busy service. -/
def Query.busyOutcome : Query → Outcome
  | registration => { status := .registering }
  | operationStatus operationId => { operationId := some operationId, status := .assigning }

/-- What the caller learns about a body that is no outcome.  The wording is fixed: what the
parser had to say about the body, and where in it, is left out. -/
def invalidBody : Failure :=
  .format "invalid registration response body: expected a registration result"

/-- **Judges a response** to a query by its status. -/
def interpret (query : Query) (status : Nat) (retryAfter : Option Nat) (body : Octets)
    (default : Time.Millis) : Except Failure Response :=
  let interval := pollingInterval retryAfter default
  if status < 300 then
    match Outcome.reader.run (Text.Utf8.decode body) with
    | some outcome => .ok { outcome, interval }
    | none => .error invalidBody
  else if status < 429 then .error (.ofStatus status (refusalText status body))
  else .ok { outcome := query.busyOutcome, interval }

end DeviceProvisioning.Registration
