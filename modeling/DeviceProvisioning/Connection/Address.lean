import DeviceProvisioning.Failure
import DeviceProvisioning.Uri.Basic

/-!
# Addresses of brokers

A broker is named by a URI with one of four schemes; two of them ask for TLS.  A port that
the URI leaves out is 8883 with TLS and 1883 without.
-/

namespace DeviceProvisioning.Connection

/-- **Where a broker listens.** -/
structure Address where
  host : String
  port : Nat
  tls : Bool
deriving DecidableEq

namespace Address

/-- Whether a scheme asks for TLS, if it is one of a broker. -/
def tls? (scheme : String) : Option Bool :=
  if scheme = "mqtts" ∨ scheme = "ssl" then some true
  else if scheme = "mqtt" ∨ scheme = "tcp" then some false
  else none

/-- The port of a broker whose URI names none. -/
def defaultPort (tls : Bool) : Nat :=
  if tls then 8883 else 1883

/-- **The address that a URI names.** -/
def ofUri (text : String) : Except Failure Address :=
  match Uri.parse? text with
  | none => .error (.argument ("invalid uri: " ++ text))
  | some uri =>
    match tls? uri.scheme with
    | none => .error (.argument ("unsupported uri scheme: " ++ uri.scheme))
    | some tls =>
      match uri.host with
      | none | some "" => .error (.argument ("uri has no host: " ++ text))
      | some host => .ok { host, port := uri.port.getD (defaultPort tls), tls }

end Address
end DeviceProvisioning.Connection
