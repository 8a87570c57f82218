import DeviceProvisioning.Json.Record

/-!
# The status of a registration

The service reports how far a registration has come.  Three statuses are **pending**: asking
again later can still change them.  `registering` is never sent by the service; it marks a
registration that the service was too busy to take up.
-/

namespace DeviceProvisioning.Registration

/-- **How far a registration has come.** -/
inductive Status where
  | unassigned
  | assigning
  | assigned
  | failed
  | disabled
  | registering
deriving DecidableEq

namespace Status

/-- The name of a status in messages and bodies. -/
def name : Status → String
  | unassigned => "unassigned"
  | assigning => "assigning"
  | assigned => "assigned"
  | failed => "failed"
  | disabled => "disabled"
  | registering => "registering"

/-- Every status. -/
def all : List Status :=
  [unassigned, assigning, assigned, failed, disabled, registering]

/-- The status with this name. -/
def ofName? (text : String) : Option Status :=
  all.find? (·.name == text)

/-- Whether the status can still change. -/
def isPending : Status → Bool
  | unassigned | assigning | registering => true
  | assigned | failed | disabled => false

/-- Reads a status from a body. -/
def reader : Json.Reader Status :=
  Json.Reader.choice ofName?

/-- The status in a body. -/
def toJson (status : Status) : Json :=
  .str status.name

theorem ofName?_name (status : Status) : ofName? status.name = some status := by
  cases status <;> rfl

end Status
end DeviceProvisioning.Registration
