import DeviceProvisioning.Metrics
import Mathlib.Algebra.Ring.Int.Defs

/-!
# What a counter shows

Counters only ever grow, each by the happenings of its own kind.  So what a counter shows after a
number of happenings is how many of them were of that kind, on top of what it showed before
(`Metrics.counter_foldl_count`), whatever else has been counted in between.

`Metrics.outstanding` is no counter but is read off three of them: the operations that have begun
and have not been counted as over.  It goes up and down, by the weight of what happens
(`Metrics.outstanding_foldl_count`).
-/

namespace DeviceProvisioning.Metrics

/-- **The counter of a kind of happening**, for the kinds that are counted one by one. -/
def counter? : Happening → Option (Metrics → Nat)
  | .connectionAttempted => some connectionAttempts
  | .connectionEstablished => some connectionsEstablished
  | .connectionFailed => some connectionFailures
  | .publishStarted => some publishesStarted
  | .publishAcknowledged => some publishesAcknowledged
  | .publishFailed => some publishFailures
  | .messageReceived => some messagesReceived
  | .operationStarted => some operationsStarted
  | .responseDispatched => some responsesDispatched
  | .responseDropped => some responsesDropped
  | .connectionLost | .operationsCancelled _ | .registrationFinished .. => none

variable {kind : Happening} {counter : Metrics → Nat}

/-- A counter counts the happenings of its kind and no others. -/
theorem counter_count (h : counter? kind = some counter) (m : Metrics) (happening : Happening) :
    counter (m.count happening) = counter m + if happening = kind then 1 else 0 := by
  cases kind <;> cases h <;> cases happening <;>
    simp only [count, reduceCtorEq, if_true, if_false, Nat.add_zero]
  all_goals split <;> rfl

/-- **A counter shows how often its kind has happened.** -/
theorem counter_foldl_count (h : counter? kind = some counter) (happenings : List Happening)
    (m : Metrics) : counter (happenings.foldl count m) = counter m + happenings.count kind := by
  induction happenings generalizing m with
  | nil => rfl
  | cons happening happenings ih =>
    rw [List.foldl_cons, ih, counter_count h, List.count_cons]
    simp only [beq_iff_eq]
    omega

/-! ## Outstanding operations -/

/-- **The outstanding operations,** as the counters have it: those that were started less those that
were answered by a response and those that were cancelled. -/
def outstanding (m : Metrics) : Int :=
  m.operationsStarted - m.responsesDispatched - m.operationsCancelled

/-- What a happening adds to the operations that are outstanding. -/
def weight : Happening → Int
  | .operationStarted => 1
  | .responseDispatched => -1
  | .operationsCancelled count => -count
  | _ => 0

theorem outstanding_count (m : Metrics) (happening : Happening) :
    (m.count happening).outstanding = m.outstanding + weight happening := by
  cases happening with
  | registrationFinished millis assigned => cases assigned <;> simp [count, outstanding, weight]
  | _ =>
    simp only [count, outstanding, weight]
    omega

/-- **Every happening adds its weight.** -/
theorem outstanding_foldl_count (happenings : List Happening) (m : Metrics) :
    (happenings.foldl count m).outstanding = m.outstanding + (happenings.map weight).sum := by
  induction happenings generalizing m with
  | nil => simp
  | cons happening happenings ih =>
    rw [List.foldl_cons, ih, outstanding_count, List.map_cons, List.sum_cons]
    omega

end DeviceProvisioning.Metrics
