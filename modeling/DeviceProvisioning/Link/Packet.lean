import DeviceProvisioning.Failure
import DeviceProvisioning.Text.Utf8

/-!
# What happens on a link

A link turns the packets of an MQTT connection into what its callers and its owner need to
know.  A `Packet` is one that came in or went out; `Packet.route` says what it means.  A
`LoopError` is a reason for which the connection ended; `LoopError.linkError` describes it,
and `LoopError.event` is what the owner of the link is told: a peer that closed its socket
has closed the link, and anything else is a failure.
-/

namespace DeviceProvisioning.Link

open DeviceProvisioning.Text (Octets)

/-- **What an open link reports by itself.** -/
inductive Event where
  | message (topic : String) (payload : Octets)
  | failed (error : LinkError)
  | closed
deriving DecidableEq

/-- How a broker answers a request to connect. -/
inductive ConnectCode where
  | success
  | protocolVersion
  | clientId
  | serviceUnavailable
  | badLogin
  | notAuthorized
deriving DecidableEq

/-- The wording of an answer. -/
def ConnectCode.reason : ConnectCode → String
  | success => "Success"
  | protocolVersion => "Unacceptable protocol version"
  | clientId => "Identifier rejected"
  | serviceUnavailable => "Server unavailable"
  | badLogin => "Bad username or password"
  | notAuthorized => "Not authorized"

/-- The message for a refused connection. -/
def ConnectCode.refusal (code : ConnectCode) : String :=
  "Connection refused: " ++ code.reason

/-- The number of a code in a packet. -/
def ConnectCode.ofNat? : Nat → Option ConnectCode
  | 0 => some success
  | 1 => some protocolVersion
  | 2 => some clientId
  | 3 => some serviceUnavailable
  | 4 => some badLogin
  | 5 => some notAuthorized
  | _ => none

/-- The requests that are acknowledged. -/
inductive RequestKind where
  | publish
  | subscribe
  | unsubscribe
deriving DecidableEq

/-- The name of a kind. -/
def RequestKind.name : RequestKind → String
  | publish => "publish"
  | subscribe => "subscribe"
  | unsubscribe => "unsubscribe"

/-- How surely a message is delivered. -/
inductive Qos where
  | atMostOnce
  | atLeastOnce
  | exactlyOnce
deriving DecidableEq

namespace Qos

/-- The number of a quality in a packet. -/
def toNat : Qos → Nat
  | atMostOnce => 0
  | atLeastOnce => 1
  | exactlyOnce => 2

/-- The quality with this number. -/
def ofNat? : Nat → Option Qos
  | 0 => some atMostOnce
  | 1 => some atLeastOnce
  | 2 => some exactlyOnce
  | _ => none

end Qos

/-- **A packet that came in or went out.**  A subscription is granted filter by filter. -/
inductive Packet where
  | connectAck (code : ConnectCode)
  | message (topic : String) (payload : Octets)
  | publishAck (id : Nat)
  | publishComplete (id : Nat)
  | subscribeAck (id : Nat) (granted : List (Option Qos))
  | unsubscribeAck (id : Nat)
  | disconnect
  | otherIn
  | sentPublish (id : Nat)
  | sentSubscribe (id : Nat)
  | sentUnsubscribe (id : Nat)
  | sentDisconnect
  | otherOut
deriving DecidableEq

/-- **What a packet means.** -/
inductive Route where
  | accepted
  | refused (reason : String)
  | message (topic : String) (payload : Octets)
  | acknowledged (kind : RequestKind) (id : Nat) (success : Bool)
  | sent (kind : RequestKind) (id : Nat)
  | disconnectSent
  | disconnected
  | housekeepingIn
  | housekeepingOut
deriving DecidableEq

/-- Whether every filter of a subscription was granted. -/
def allGranted (granted : List (Option Qos)) : Bool :=
  granted.all Option.isSome

/-- What a packet means. -/
def Packet.route : Packet → Route
  | connectAck .success => .accepted
  | connectAck code => .refused code.refusal
  | message topic payload => .message topic payload
  | publishAck id => .acknowledged .publish id true
  | publishComplete id => .acknowledged .publish id true
  | subscribeAck id granted => .acknowledged .subscribe id (allGranted granted)
  | unsubscribeAck id => .acknowledged .unsubscribe id true
  | disconnect => .disconnected
  | otherIn => .housekeepingIn
  | sentPublish id => .sent .publish id
  | sentSubscribe id => .sent .subscribe id
  | sentUnsubscribe id => .sent .unsubscribe id
  | sentDisconnect => .disconnectSent
  | otherOut => .housekeepingOut

/-- **Why a connection ended.** -/
inductive LoopError where
  | refused (code : ConnectCode)
  /-- The socket failed; `code` names the kind of failure. -/
  | socket (code message : String)
  | connectTimeout
  | other (message : String)
deriving DecidableEq

namespace LoopError

/-- The description of the failure. -/
def linkError : LoopError → LinkError
  | refused code => .plain code.refusal
  | socket code message => .socket code message
  | connectTimeout => .socket "TimedOut" "network timeout while connecting"
  | other message => .plain message

/-- The kinds of socket failures with which the peer has closed the connection. -/
def closingCodes : List String :=
  ["ConnectionReset", "ConnectionAborted", "UnexpectedEof"]

/-- What the owner of the link is told. -/
def event : LoopError → Event
  | socket code message =>
    if code ∈ closingCodes then .closed else .failed (.socket code message)
  | error => .failed error.linkError

/-- The message that the client has for a failure of the protocol. -/
inductive Violation where
  | invalidState
  | unsolicited (id : Nat)
  | pingUnanswered
  | wrongPacket
  | collisionTimeout
  | emptySubscription
  | invalidPacketType (number : Nat)
deriving DecidableEq

/-- The wording of a failure of the protocol. -/
def Violation.message (v : Violation) : String :=
  "Mqtt state: " ++ match v with
  | invalidState => "Invalid state for a given operation"
  | unsolicited id => "Received unsolicited ack pkid: " ++ String.ofList (Number.decimal id)
  | pingUnanswered => "Last pingreq isn't acked"
  | wrongPacket => "Received a wrong packet while waiting for another packet"
  | collisionTimeout => "Timeout while waiting to resolve collision"
  | emptySubscription => "A Subscribe packet must contain atleast one filter"
  | invalidPacketType number =>
    "Mqtt serialization/deserialization error: Invalid packet type: "
      ++ String.ofList (Number.decimal number)

end LoopError
end DeviceProvisioning.Link
