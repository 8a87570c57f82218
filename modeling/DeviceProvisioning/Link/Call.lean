import DeviceProvisioning.Link.Packet

/-!
# Calls on a link

A message goes to a topic name, which holds no wildcards; a subscription is for a topic
filter, which may.  Neither of them is empty.  Both are checked before anything is sent.
-/

namespace DeviceProvisioning.Link

open DeviceProvisioning.Text (Octets)

/-- The characters that stand for other topics in a filter. -/
def isWildcard (c : Char) : Bool :=
  c == '+' || c == '#'

/-- **Judges a topic name.** -/
def checkTopicName (topic : String) : Except LinkError Unit :=
  if topic.isEmpty || topic.toList.any isWildcard then
    .error (.plain ("Invalid topic " ++ topic))
  else .ok ()

/-- **Judges a topic filter.** -/
def checkTopicFilter (filter : String) : Except LinkError Unit :=
  if filter.isEmpty then .error (.plain "Invalid topic filter") else .ok ()

/-- **What is asked of an open link.** -/
inductive Call where
  | publish (topic : String) (payload : Octets) (qos : Qos) (retain : Bool)
  | subscribe (filter : String) (qos : Qos)
  | unsubscribe (filter : String)
deriving DecidableEq

namespace Call

/-- What is wrong with a call before anything is sent. -/
def check : Call → Except LinkError Unit
  | publish topic _ _ _ => checkTopicName topic
  | subscribe filter _ => checkTopicFilter filter
  | unsubscribe filter => checkTopicFilter filter

/-- The kind of request that a call makes. -/
def kind : Call → RequestKind
  | publish .. => .publish
  | subscribe .. => .subscribe
  | unsubscribe .. => .unsubscribe

/-- The quality that a call asks for. -/
def qos : Call → Qos
  | publish _ _ qos _ => qos
  | subscribe _ qos => qos
  | unsubscribe _ => .atLeastOnce

end Call
end DeviceProvisioning.Link
