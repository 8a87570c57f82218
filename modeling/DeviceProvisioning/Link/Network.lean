import DeviceProvisioning.Connection.Options
import DeviceProvisioning.Link.Packet

/-!
# Reaching a broker

A link needs a network that carries it.  A `Network` says what comes of asking a host for a
connection: why no stream could be opened, or how the broker answered.  `connect` opens a
link over a network, as far as its owner learns of it.

`isolated` is the network of a machine that has none.  No host is reached, and the name of
one cannot even be resolved, unless it is an address already or the machine's own.
-/

namespace DeviceProvisioning.Link

open Connection (ClientOptions OptionsError Parameters)

/-- **What comes of asking for a connection,** by host and port. -/
abbrev Network := String → Nat → Except LoopError ConnectCode

/-- A host to which there is no route. -/
def noRoute : LoopError :=
  .socket "NetworkUnreachable" "Network is unreachable (os error 101)"

/-- A name that nobody could be asked about. -/
def unresolved : LoopError :=
  .socket "Uncategorized"
    "failed to lookup address information: Temporary failure in name resolution"

/-- Whether a host is known without asking anybody. -/
def isKnown (host : String) : Bool :=
  host == "localhost" || host.startsWith "[" || Uri.isIpv4 (host.toList.splitOn '.')

/-- **The network of a machine that has none.** -/
def isolated : Network := fun host _ =>
  .error (if isKnown host then noRoute else unresolved)

/-- What the owner of a link learns of an attempt. -/
def accepted? : Except LoopError ConnectCode → Except LinkError Unit
  | .error e => .error e.linkError
  | .ok .success => .ok ()
  | .ok code => .error (.plain code.refusal)

/-- **Opens a link over a network.** -/
def connect (network : Network) (p : Parameters) : Except OptionsError Unit := do
  let options ← ClientOptions.ofParameters p
  (accepted? (network options.host options.port)).mapError .refused

end DeviceProvisioning.Link
