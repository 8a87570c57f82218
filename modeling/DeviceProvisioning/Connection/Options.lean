import DeviceProvisioning.Connection.Parameters

/-!
# Options of an MQTT client

`ClientOptions.ofParameters` says how the client is set up for a connection.  A signature is
the password of the login; a certificate belongs to the TLS transport, and is refused when
its key is protected by a passphrase or when there is no certificate to check the broker
with.

Two settings are outside of what the client can be given: a keep-alive of less than a second
that is not zero, and a lasting session of a client without an id.
-/

namespace DeviceProvisioning.Connection

open DeviceProvisioning.Text

/-- **How octets reach the broker.** -/
inductive Transport where
  | plain
  | systemRoots
  | roots (ca : Octets) (identity : Option (Octets × Octets))
deriving DecidableEq

/-- The way to a broker. -/
def Transport.choose (tls : Bool) (ca : Option Octets) (identity : Option (Octets × Octets)) :
    Except LinkError Transport :=
  if tls then
    match ca, identity with
    | none, none => .ok .systemRoots
    | some ca, identity => .ok (.roots ca identity)
    | none, some _ =>
      .error (.plain
        "a CA certificate is required when authenticating with a client certificate")
  else .ok .plain

/-- **The options of a client.** -/
structure ClientOptions where
  clientId : String
  host : String
  port : Nat
  keepAlive : Time.Millis
  cleanSession : Bool
  username : String
  password : String
  transport : Transport
deriving DecidableEq

/-- Why there are no options for a connection. -/
inductive OptionsError where
  /-- The connection cannot be opened. -/
  | refused (error : LinkError)
  /-- The client cannot be given such a setting. -/
  | outOfRange
deriving DecidableEq

namespace ClientOptions

/-- What a credential puts into the login and into the transport. -/
def login : Option Credential → Except LinkError (String × Option (Octets × Octets))
  | some (.signature text) => .ok (text, none)
  | some (.certificate c) =>
    if c.passphrase.isSome then
      .error (.plain
        "passphrase protected private keys are not supported; decrypt the key first")
    else .ok ("", some (c.certificate, c.key))
  | none => .ok ("", none)

/-- Whether a client can be given the settings. -/
def inRange (p : Parameters) : Bool :=
  (p.keepAlive == 0 || 1000 ≤ p.keepAlive) && (p.cleanSession || !p.clientId.isEmpty)

/-- **The options for a connection.** -/
def ofParameters (p : Parameters) : Except OptionsError ClientOptions := do
  let address ← (Address.ofUri p.uri).mapError fun e => .refused (.plain e.message)
  if !inRange p then throw .outOfRange
  let (password, identity) ← (login p.credential).mapError .refused
  let transport ← (Transport.choose address.tls p.caCertificate identity).mapError .refused
  return {
    clientId := p.clientId, host := address.host, port := address.port
    keepAlive := p.keepAlive, cleanSession := p.cleanSession
    username := p.username, password, transport }

end ClientOptions
end DeviceProvisioning.Connection
