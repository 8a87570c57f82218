import DeviceProvisioning.Number.Decimal
import DeviceProvisioning.Text.Blank
import DeviceProvisioning.Topic.Request

/-!
# Topics of responses

The service answers on `$dps/registrations/res/<status>/?<query>`.  The status has no slash
in it, and the query no line feed; a status is a number of sixteen bits that may have a plus
sign.  Of several parameters with one key the last counts.  The parameter `$rid` must be
there with a value; `retry-after`, a number of seconds, is taken when it is one.
-/

namespace DeviceProvisioning.Topic

open DeviceProvisioning.Text DeviceProvisioning.Number

/-- **What the topic of a response says.** -/
structure Response where
  status : Nat
  requestId : String
  retryAfter : Option Nat
  parameters : List (String × String)
deriving DecidableEq

/-- Why a topic is not that of a response. -/
inductive ResponseError where
  | notAResponse (topic : String)
  | invalidStatus (text : String)
  | missingRequestId (topic : String)
deriving DecidableEq

/-- The wording of a complaint. -/
def ResponseError.message : ResponseError → String
  | notAResponse topic => "not a provisioning response topic: " ++ topic
  | invalidStatus text => "invalid status code: " ++ text
  | missingRequestId topic => "response topic has no $rid: " ++ topic

namespace Response

/-- What the topics of all responses begin with. -/
def stem : List Char := "$dps/registrations/res/".toList

/-- The status and the query of a topic that has the shape of a response. -/
def shape? (topic : List Char) : Option (List Char × List Char) := do
  let rest ← stem.isPrefixOf? topic
  let (status, rest) ← cutAt '/' rest
  match status, rest with
  | _ :: _, '?' :: query => if '\n' ∈ query then none else some (status, query)
  | _, _ => none

/-- A delay in seconds, when the text is one. -/
def delay? (text : String) : Option Nat :=
  readBounded (UInt64.size - 1) (trim text.toList)

/-- **Reads the topic of a response.** -/
def parse (topic : String) : Except ResponseError Response :=
  match shape? topic.toList with
  | none => .error (.notAResponse topic)
  | some (statusText, query) =>
    match readBounded 65535 statusText with
    | none => .error (.invalidStatus (String.ofList statusText))
    | some status =>
      let parameters := Form.pairs query
      match Form.lastValue? requestIdKey parameters with
      | none | some "" => .error (.missingRequestId topic)
      | some requestId =>
        .ok
          { status, requestId, parameters
            retryAfter := (Form.lastValue? "retry-after" parameters).bind delay? }

end Response
end DeviceProvisioning.Topic
