import DeviceProvisioning.Identifier
import DeviceProvisioning.Registration.Request
import DeviceProvisioning.Session.Settings
import DeviceProvisioning.Surroundings.Basic
import DeviceProvisioning.Text.Blank

/-!
# The configuration of a program

A configuration says which device registers, where, and how it proves who it is.  Secrets do
not stand in it: a signature and a passphrase are named by environment variables, and keys
and certificates by files.

`validate` is what a configuration must satisfy to be used, and the first rule that is broken
is reported.  `settings` looks up the secrets.
-/

namespace DeviceProvisioning

open Text (Octets)

/-- The device, and the service it registers with. -/
structure Configuration.Provisioning where
  endpoint : String
  idScope : String
  registrationId : String
  /-- In milliseconds. -/
  interval : Nat
  /-- The time limit of a registration, in seconds. -/
  limit : Option Nat
  payload : Option Json

/-- Where the certificate of a device is, and its key. -/
structure Configuration.Certificate where
  certificateFile : String
  keyFile : String
  passphraseVariable : Option String
deriving DecidableEq

/-- The connection. -/
structure Configuration.Mqtt where
  /-- In seconds. -/
  keepAlive : Nat
  cleanSession : Bool
  signatureVariable : Option String
  certificate : Option Configuration.Certificate
  /-- The certificates that the broker is checked with. -/
  caFile : Option String
  brokerUri : Option String
deriving DecidableEq

/-- **What a program is configured with.** -/
structure Configuration where
  provisioning : Configuration.Provisioning
  mqtt : Configuration.Mqtt

namespace Configuration

/-- A rule that a configuration breaks. -/
inductive Fault where
  | blankEndpoint
  | zeroInterval
  | zeroLimit
  | twoCredentials
  | noCredential
  | blankVariable (name : String)
  | credentialUnset
deriving DecidableEq

/-- The wording of a fault. -/
def Fault.message : Fault → String
  | blankEndpoint => "global_endpoint cannot be empty"
  | zeroInterval => "polling_interval_ms must be greater than zero"
  | zeroLimit => "timeout_secs must be greater than zero"
  | twoCredentials => "configure either sas_token_env or [mqtt.x509], not both"
  | noCredential => "a credential is required: set sas_token_env or [mqtt.x509]"
  | blankVariable name => "environment variable " ++ name ++ " is empty"
  | credentialUnset => "no credential configured"

/-- **Why a configuration cannot be used.** -/
inductive Error where
  | unreadable (error : FileError)
  | malformed
  | missingVariable (name : String)
  | idScope (error : IdentifierError)
  | registrationId (error : IdentifierError)
  | invalid (fault : Fault)
  | credentialFile (path : String) (error : FileError)
deriving DecidableEq

/-- The wording of an error. -/
def Error.message : Error → String
  | unreadable error => "Failed to read config file: " ++ error.message
  | malformed => "Failed to parse TOML: not a configuration"
  | missingVariable name => "Environment variable not found: " ++ name
  | idScope error => "Invalid id scope: " ++ error.message
  | registrationId error => "Invalid registration id: " ++ error.message
  | invalid fault => "Invalid configuration: " ++ fault.message
  | credentialFile path error => "Failed to read " ++ path ++ ": " ++ error.message

/-- Exactly one credential is named. -/
def checkCredential (m : Mqtt) : Except Error Unit :=
  match m.signatureVariable, m.certificate with
  | some _, some _ => .error (.invalid .twoCredentials)
  | none, none => .error (.invalid .noCredential)
  | _, _ => .ok ()

/-- **The rules for a configuration,** in the order in which they are checked. -/
def validate (c : Configuration) : Except Error Unit := do
  (Identifier.checkIdScope c.provisioning.idScope).mapError .idScope
  (Identifier.checkRegistrationId c.provisioning.registrationId).mapError .registrationId
  if Text.allBlank c.provisioning.endpoint then throw (.invalid .blankEndpoint)
  if c.provisioning.interval = 0 then throw (.invalid .zeroInterval)
  if c.provisioning.limit = some 0 then throw (.invalid .zeroLimit)
  checkCredential c.mqtt

/-- What the device asks the service for. -/
def request (c : Configuration) : Registration.Request where
  registrationId := c.provisioning.registrationId
  payload := c.provisioning.payload

/-- The time limit of a registration. -/
def timeLimit (c : Configuration) : Option Time.Millis :=
  c.provisioning.limit.map (· * 1000)

/-! ## Secrets -/

section

variable {m : Type → Type} [Monad m]

/-- The value of a variable that must be set. -/
def variableOf (s : Surroundings m) (name : String) : ExceptT Error m String := do
  match ← s.environment name with
  | some value => return value
  | none => throw (.missingVariable name)

/-- The octets of a file that a credential needs. -/
def fileOf (s : Surroundings m) (path : String) : ExceptT Error m Octets := do
  match ← s.readFile path with
  | .ok octets => return octets
  | .error e => throw (.credentialFile path e)

/-- The signature that a variable holds. -/
def signatureOf (s : Surroundings m) (name : String) : ExceptT Error m String := do
  let value ← variableOf s name
  if Text.allBlank value then throw (.invalid (.blankVariable name)) else return value

/-- The certificate, its key and its passphrase. -/
def certificateOf (s : Surroundings m) (c : Certificate) :
    ExceptT Error m Connection.Certificate := do
  let passphrase ← c.passphraseVariable.mapM (variableOf s)
  let certificate ← fileOf s c.certificateFile
  let key ← fileOf s c.keyFile
  return { certificate, key, passphrase }

/-- The credential. -/
def credentialOf (s : Surroundings m) (c : Mqtt) : ExceptT Error m Connection.Credential :=
  match c.signatureVariable, c.certificate with
  | some name, _ => .signature <$> signatureOf s name
  | none, some certificate => .certificate <$> certificateOf s certificate
  | none, none => throw (.invalid .credentialUnset)

/-- **The settings of a session,** with their secrets. -/
def settings (s : Surroundings m) (c : Configuration) : ExceptT Error m Session.Settings := do
  let credential ← credentialOf s c.mqtt
  let caCertificate ← c.mqtt.caFile.mapM (fileOf s)
  return {
    endpoint := c.provisioning.endpoint
    idScope := c.provisioning.idScope
    credential, caCertificate
    brokerUri := c.mqtt.brokerUri
    keepAlive := c.mqtt.keepAlive * 1000
    cleanSession := c.mqtt.cleanSession
    interval := c.provisioning.interval }

end

end Configuration
end DeviceProvisioning
