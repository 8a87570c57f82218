import DeviceProvisioning.Registration.Status
import DeviceProvisioning.Time.Timestamp

/-!
# What the service knows about a registration

A `Record` is the service's record of a device; all of its fields may be absent.  An
`Outcome` is the body of a successful response: the status, and with it the operation that
can be asked about and the record, as far as they exist.

Both are read by the readers of their fields, in the order of `fields`, and written as
objects that leave absent fields out.
-/

namespace DeviceProvisioning

/-- An object with those of the members that are present. -/
def Json.ofPresent (members : List (String × Option Json)) : Json :=
  .obj (members.filterMap fun (key, value) => value.map (key, ·))

namespace Registration

open Json (Member Reader)

/-- **The service's record of a device.** -/
structure Record where
  registrationId : Option String := none
  assignedHub : Option String := none
  deviceId : Option String := none
  status : Option Status := none
  substatus : Option String := none
  errorCode : Option Int := none
  errorMessage : Option String := none
  created : Option Time.Timestamp := none
  lastUpdated : Option Time.Timestamp := none
  etag : Option String := none
  payload : Option Json := none
deriving DecidableEq

namespace Record

/-- Reads an instant. -/
def instant : Reader Time.Timestamp :=
  .filterMap Time.Timestamp.parse? .text

/-- The fields of a record in a body. -/
def fields : List (Member Record) :=
  [⟨"registrationId", false, .map (fun v r => { r with registrationId := v }) (.optional .text)⟩,
   ⟨"assignedHub", false, .map (fun v r => { r with assignedHub := v }) (.optional .text)⟩,
   ⟨"deviceId", false, .map (fun v r => { r with deviceId := v }) (.optional .text)⟩,
   ⟨"status", false, .map (fun v r => { r with status := v }) (.optional Status.reader)⟩,
   ⟨"substatus", false, .map (fun v r => { r with substatus := v }) (.optional .text)⟩,
   ⟨"errorCode", false, .map (fun v r => { r with errorCode := v }) (.optional .integer)⟩,
   ⟨"errorMessage", false, .map (fun v r => { r with errorMessage := v }) (.optional .text)⟩,
   ⟨"createdDateTimeUtc", false, .map (fun v r => { r with created := v }) (.optional instant)⟩,
   ⟨"lastUpdatedDateTimeUtc", false,
     .map (fun v r => { r with lastUpdated := v }) (.optional instant)⟩,
   ⟨"etag", false, .map (fun v r => { r with etag := v }) (.optional .text)⟩,
   ⟨"payload", false, .map (fun v r => { r with payload := v }) (.optional .any)⟩]

/-- Reads a record. -/
def reader : Reader Record :=
  .record fields {}

/-- The record in a body. -/
def toJson (r : Record) : Json :=
  .ofPresent
    [("registrationId", r.registrationId.map .str),
     ("assignedHub", r.assignedHub.map .str),
     ("deviceId", r.deviceId.map .str),
     ("status", r.status.map Status.toJson),
     ("substatus", r.substatus.map .str),
     ("errorCode", r.errorCode.map .int),
     ("errorMessage", r.errorMessage.map .str),
     ("createdDateTimeUtc", r.created.map fun t => .str t.render),
     ("lastUpdatedDateTimeUtc", r.lastUpdated.map fun t => .str t.render),
     ("etag", r.etag.map .str),
     ("payload", r.payload)]

end Record

/-- **The body of a successful response.** -/
structure Outcome where
  operationId : Option String := none
  status : Status
  record : Option Record := none
deriving DecidableEq

namespace Outcome

/-- The fields of an outcome in a body; only the status must be present. -/
def fields : List (Member Outcome) :=
  [⟨"operationId", false, .map (fun v r => { r with operationId := v }) (.optional .text)⟩,
   ⟨"status", true, .map (fun v r => { r with status := v }) Status.reader⟩,
   ⟨"registrationState", false,
     .map (fun v r => { r with record := v }) (.optional Record.reader)⟩]

/-- Reads an outcome. -/
def reader : Reader Outcome :=
  .record fields { status := .unassigned }

/-- The outcome in a body. -/
def toJson (o : Outcome) : Json :=
  .ofPresent
    [("operationId", o.operationId.map .str),
     ("status", some o.status.toJson),
     ("registrationState", o.record.map Record.toJson)]

end Outcome
end Registration
end DeviceProvisioning
