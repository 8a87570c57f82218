/-!
# States of a connection

A connection manager and a provisioning session each are in one of five states.  Three of
them are **transitional**: a change is under way, and commands wait until it has settled.
-/

namespace DeviceProvisioning.Connection

/-- **The state of a connection.** -/
inductive State where
  | disconnected
  | connecting
  | connected
  | disconnecting
  | reconnecting
deriving DecidableEq

namespace State

/-- The name of a state. -/
def name : State → String
  | disconnected => "disconnected"
  | connecting => "connecting"
  | connected => "connected"
  | disconnecting => "disconnecting"
  | reconnecting => "reconnecting"

/-- Whether a change is under way. -/
def isTransitional : State → Bool
  | connecting | disconnecting | reconnecting => true
  | disconnected | connected => false

end State
end DeviceProvisioning.Connection
