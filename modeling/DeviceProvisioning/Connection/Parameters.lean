import DeviceProvisioning.Connection.Address
import DeviceProvisioning.Connection.Credential
import DeviceProvisioning.Text.Blank
import DeviceProvisioning.Time.Span

/-!
# Parameters of a connection

`Parameters` is everything that opening a connection takes.  `check` finds the first of them
that is missing, in the order of the declaration; a text of blanks only is missing.
-/

namespace DeviceProvisioning.Connection

open DeviceProvisioning.Text

/-- How often a client shows that it is alive, when nothing else is asked for. -/
def defaultKeepAlive : Time.Millis := 180000

/-- **What opening a connection takes.** -/
structure Parameters where
  uri : String
  clientId : String
  username : String
  credential : Option Credential
  cleanSession : Bool := true
  keepAlive : Time.Millis := defaultKeepAlive
  caCertificate : Option Octets := none
deriving DecidableEq

namespace Parameters

/-- What is missing from a credential, if anything is. -/
def checkCredential : Option Credential → Except Failure Unit
  | none => .error (.argument "a shared access signature or a client certificate is required")
  | some (.signature text) =>
    if allBlank text then .error (.argument "shared access signature must not be empty")
    else .ok ()
  | some (.certificate c) =>
    if c.certificate = [] ∨ c.key = [] then
      .error (.argument "client certificate and private key must not be empty")
    else .ok ()

/-- **What is missing from the parameters, if anything is.** -/
def check (p : Parameters) : Except Failure Unit := do
  if allBlank p.uri then throw (.argument "uri is required")
  let _ ← Address.ofUri p.uri
  if allBlank p.clientId then throw (.argument "client id is required")
  if allBlank p.username then throw (.argument "username is required")
  checkCredential p.credential

end Parameters
end DeviceProvisioning.Connection
