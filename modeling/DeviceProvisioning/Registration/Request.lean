import DeviceProvisioning.Json.Printer
import DeviceProvisioning.Registration.Record

/-!
# What a device asks for

A request names the device and may carry custom data, any JSON value, for the service's
allocation policy.  `registrationBody` and `statusBody` are the bodies of the two messages a
request leads to; the second never carries the custom data.

In a configuration a request is a record of its own, `toJson` and `reader`.  A caller may
give an explicit `null` as custom data; a record that is read cannot.
-/

namespace DeviceProvisioning.Registration

open Json (Member Reader)

/-- **What a device asks the service for.** -/
structure Request where
  registrationId : String
  payload : Option Json := none
deriving DecidableEq

namespace Request

/-- The body that asks for a registration, as a value. -/
def registrationJson (r : Request) : Json :=
  .ofPresent [("registrationId", some (.str r.registrationId)), ("payload", r.payload)]

/-- The body that asks for the status of an operation, as a value. -/
def statusJson (r : Request) : Json :=
  .ofPresent [("registrationId", some (.str r.registrationId))]

/-- **The body that asks for a registration.** -/
def registrationBody (r : Request) : String :=
  r.registrationJson.render

/-- **The body that asks for the status of an operation.** -/
def statusBody (r : Request) : String :=
  r.statusJson.render

/-- The fields of a request record. -/
def fields : List (Member Request) :=
  [⟨"registration_id", true, .map (fun v r => { r with registrationId := v }) .text⟩,
   ⟨"payload", false, .map (fun v r => { r with payload := v }) (.optional .any)⟩]

/-- Reads a request record. -/
def reader : Reader Request :=
  .record fields { registrationId := "" }

/-- The request record. -/
def toJson (r : Request) : Json :=
  .ofPresent [("registration_id", some (.str r.registrationId)), ("payload", r.payload)]

end Request
end DeviceProvisioning.Registration
