import DeviceProvisioning.RequestId
import DeviceProvisioning.Text.FormEncoding

/-!
# Topics of requests

A request is published on a topic that names what is asked and carries the id of the request
as the query parameter `$rid`; a status query also names its operation.  The MQTT user name
tells the service who the device is and which client it runs.  Text that does not come from
this library is form encoded, except for the two identifiers of the user name, whose
characters are restricted.
-/

namespace DeviceProvisioning.Topic

open DeviceProvisioning.Text

/-- The filter that covers every answer of the service. -/
def responseFilter : String := "$dps/registrations/res/#"

/-- The version of the service's interface that the user name asks for. -/
def apiVersion : String := "2019-03-31"

/-- The query parameter that carries the id of a request. -/
def requestIdKey : String := "$rid"

/-- **The topic on which a registration is asked for.** -/
def registration (id : RequestId) : String :=
  "$dps/registrations/PUT/iotdps-register/?$rid=" ++ id.render

/-- **The topic on which the status of an operation is asked for.** -/
def operationStatus (id : RequestId) (operationId : String) : String :=
  "$dps/registrations/GET/iotdps-get-operationstatus/?$rid=" ++ id.render
    ++ "&operationId=" ++ Form.encode operationId

/-- **The MQTT user name of a device.** -/
def username (idScope registrationId clientVersion : String) : String :=
  idScope ++ "/registrations/" ++ registrationId ++ "/api-version=" ++ apiVersion
    ++ "&ClientVersion=" ++ Form.encode clientVersion

/-- The id that a topic carries in the query after its first question mark: the value of the
first `$rid`. -/
def requestId? (topic : String) : Option String := do
  let (_, query) ← cutAt '?' topic.toList
  (Form.pairs query).lookup requestIdKey

end DeviceProvisioning.Topic
