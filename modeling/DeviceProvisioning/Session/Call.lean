import DeviceProvisioning.Session.Command
import DeviceProvisioning.Text.Utf8
import DeviceProvisioning.Topic.Request

/-!
# Calls to the connection manager

An effect of a session that takes time starts a **call**.  A call has the connection manager do one
thing after the other: it gives an order, waits for the answer, and goes on.  When it is done the
session is told the result.

To connect, a call enters a connection, by a connect or by a change of the credential, and then
subscribes to the responses.  When the subscription fails the connection is of no use and is
closed again; the call ends with the failure of the subscription whatever comes of that.  Any
other call has one thing done only.
-/

namespace DeviceProvisioning.Session

open Connection (Ticket)

/-- **What a call still has to have done.** -/
inductive Duty where
  /-- To enter a connection, and then to subscribe. -/
  | entering (command : Connection.Command)
  | subscribing
  | backingOut (why : Failure)
  /-- One thing only. -/
  | single (command : Connection.Command)

/-- **How far a call has come.** -/
inductive Stage where
  | ready (duty : Duty)
  | waiting (duty : Duty) (ticket : Ticket)
  | done (result : Except Failure Unit)

namespace Duty

/-- What the connection manager is asked for. -/
def command : Duty → Connection.Command
  | entering command => command
  | subscribing => .subscribe Topic.responseFilter .atLeastOnce
  | backingOut _ => .disconnect
  | single command => command

/-- **How a call goes on** after an answer: with another duty, or to its result. -/
def next : Duty → Except Failure Unit → Stage
  | entering _, .ok () => .ready subscribing
  | entering _, .error why => .done (.error why)
  | subscribing, .ok () => .done (.ok ())
  | subscribing, .error why => .ready (backingOut why)
  | backingOut why, _ => .done (.error why)
  | single _, result => .done result

end Duty

/-- How many duties may still come. -/
def Stage.left : Stage → Nat
  | ready (.entering _) | waiting (.entering _) _ => 3
  | ready .subscribing | waiting .subscribing _ => 2
  | ready _ | waiting _ _ => 1
  | done _ => 0

theorem Duty.left_next (duty : Duty) (result : Except Failure Unit) :
    (duty.next result).left < (Stage.ready duty).left := by
  cases duty <;> cases result <;> simp [next, Stage.left]

/-- **A call** and the effect that has started it. -/
structure Call where
  effect : Effect
  stage : Stage

/-- The call that an effect starts. -/
def Call.of? : Effect → Option Call
  | .connect p => some ⟨.connect p, .ready (.entering (.connect p))⟩
  | .disconnect => some ⟨.disconnect, .ready (.single .disconnect)⟩
  | .reconnect credential =>
    some ⟨.reconnect credential, .ready (.entering (.updateCredential credential))⟩
  | .publish id topic body =>
    some ⟨.publish id topic body, .ready (.single (.publish topic (Text.Utf8.encode body) {}))⟩
  | .respond .. | .answer .. | .notify _ | .count _ => none

/-- What the session is told when a call is done. -/
def Effect.completion? (result : Except Failure Unit) : Effect → Option Completion
  | connect _ => some (.connected result)
  | disconnect => some (.disconnected result)
  | reconnect _ => some (.reconnected result)
  | publish id _ _ => some (.published id result)
  | respond .. | answer .. | notify _ | count _ => none

end DeviceProvisioning.Session
