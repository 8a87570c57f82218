import DeviceProvisioning.Json.Basic

/-!
# Metrics

`Metrics` counts what happens on connections, in sessions and in registrations, one
`Happening` at a time.  The durations of the last thousand registrations are kept, oldest
first; their average and two percentiles are part of a snapshot.

A percentile is the sample at the nearest rank of the sorted samples, where a rank half way
between two is rounded up.
-/

namespace DeviceProvisioning

/-- **What is counted.** -/
inductive Happening where
  | connectionAttempted
  | connectionEstablished
  | connectionFailed
  | connectionLost
  | publishStarted
  | publishAcknowledged
  | publishFailed
  | messageReceived
  | operationStarted
  | responseDispatched
  | responseDropped
  | operationsCancelled (count : Nat)
  | registrationFinished (millis : Nat) (assigned : Bool)
deriving DecidableEq

/-- **The counters,** and the durations of registrations. -/
structure Metrics where
  connected : Bool := false
  connectionAttempts : Nat := 0
  connectionsEstablished : Nat := 0
  connectionFailures : Nat := 0
  publishesStarted : Nat := 0
  publishesAcknowledged : Nat := 0
  publishFailures : Nat := 0
  messagesReceived : Nat := 0
  operationsStarted : Nat := 0
  responsesDispatched : Nat := 0
  responsesDropped : Nat := 0
  operationsCancelled : Nat := 0
  registrationsAssigned : Nat := 0
  registrationsFailed : Nat := 0
  durations : List Nat := []
deriving DecidableEq

namespace Metrics

open Number (Binary64)

/-- The number of durations that are kept. -/
def maxSamples : Nat := 1000

/-- The durations with one more; the oldest makes room when there are too many. -/
def addSample (samples : List Nat) (sample : Nat) : List Nat :=
  let all := samples ++ [sample]
  if maxSamples < all.length then all.tail else all

/-- **Counts what happened.** -/
def count (m : Metrics) : Happening → Metrics
  | .connectionAttempted => { m with connectionAttempts := m.connectionAttempts + 1 }
  | .connectionEstablished =>
    { m with connectionsEstablished := m.connectionsEstablished + 1, connected := true }
  | .connectionFailed =>
    { m with connectionFailures := m.connectionFailures + 1, connected := false }
  | .connectionLost => { m with connected := false }
  | .publishStarted => { m with publishesStarted := m.publishesStarted + 1 }
  | .publishAcknowledged => { m with publishesAcknowledged := m.publishesAcknowledged + 1 }
  | .publishFailed => { m with publishFailures := m.publishFailures + 1 }
  | .messageReceived => { m with messagesReceived := m.messagesReceived + 1 }
  | .operationStarted => { m with operationsStarted := m.operationsStarted + 1 }
  | .responseDispatched => { m with responsesDispatched := m.responsesDispatched + 1 }
  | .responseDropped => { m with responsesDropped := m.responsesDropped + 1 }
  | .operationsCancelled n => { m with operationsCancelled := m.operationsCancelled + n }
  | .registrationFinished millis assigned =>
    let m := { m with durations := addSample m.durations millis }
    if assigned then { m with registrationsAssigned := m.registrationsAssigned + 1 }
    else { m with registrationsFailed := m.registrationsFailed + 1 }

/-- The number nearest to a natural number. -/
def nearest (n : Nat) : Float :=
  (UInt64.ofNat n).toFloat

/-- The rank of a percentile among `count` samples: `percent · (count − 1) / 100`, rounded. -/
def rank (percent count : Nat) : Nat :=
  (2 * percent * (count - 1) + 100) / 200

/-- The percentile of sorted samples. -/
def percentile (percent : Nat) (sorted : List Nat) : Float :=
  nearest ((sorted[rank percent sorted.length]?).getD 0)

/-- The average of samples. -/
def average (samples : List Nat) : Float :=
  if samples.isEmpty then 0
  else nearest (samples.foldl (· + ·) 0) / nearest samples.length

/-- The connection part of a snapshot. -/
def connectionJson (m : Metrics) : Json :=
  .obj
    [("connected", .bool m.connected),
     ("connection_attempts", .int m.connectionAttempts),
     ("connections_established", .int m.connectionsEstablished),
     ("connection_failures", .int m.connectionFailures),
     ("publishes_started", .int m.publishesStarted),
     ("publishes_acknowledged", .int m.publishesAcknowledged),
     ("publish_failures", .int m.publishFailures),
     ("messages_received", .int m.messagesReceived)]

/-- The counters of the provisioning part of a snapshot. -/
def operationMembers (m : Metrics) : Json.Members :=
  [("operations_started", .int m.operationsStarted),
   ("responses_dispatched", .int m.responsesDispatched),
   ("responses_dropped", .int m.responsesDropped),
   ("operations_cancelled", .int m.operationsCancelled),
   ("registrations_assigned", .int m.registrationsAssigned),
   ("registrations_failed", .int m.registrationsFailed)]

/-- The durations in a snapshot. -/
def durationMembers (m : Metrics) : Json.Members :=
  let sorted := m.durations.mergeSort
  let number (x : Float) : Json := .float (Binary64.ofFloat x)
  [("registration_avg_ms", number (average m.durations)),
   ("registration_p50_ms", number (percentile 50 sorted)),
   ("registration_p95_ms", number (percentile 95 sorted))]

/-- **A snapshot of everything counted.** -/
def toJson (m : Metrics) : Json :=
  .obj
    [("connection", m.connectionJson),
     ("provisioning", .obj (m.operationMembers ++ m.durationMembers))]

end Metrics
end DeviceProvisioning
