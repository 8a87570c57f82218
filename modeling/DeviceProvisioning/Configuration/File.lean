import DeviceProvisioning.Configuration.Basic
import DeviceProvisioning.Toml.Parser
import DeviceProvisioning.Toml.Printer
import DeviceProvisioning.Toml.Record

/-!
# Configuration files

A configuration is a TOML document with two sections, `[provisioning]` and `[mqtt]`.  `load`
reads one and validates it.  `toToml?` writes one, with every default spelled out; a
configuration whose payload holds a `null` cannot be written.
-/

namespace DeviceProvisioning.Configuration

open Toml (text? natural? truth?)

/-! ## Reading -/

/-- The section on provisioning. -/
def Provisioning.ofToml? (v : Toml) : Option Provisioning := do
  return {
    endpoint := ← (← v.slot? "global_endpoint" 0).orElse Session.globalEndpoint text?
    idScope := ← (← v.slot? "id_scope" 1).required text?
    registrationId := ← (← v.slot? "registration_id" 2).required text?
    interval := ← (← v.slot? "polling_interval_ms" 3).orElse Session.defaultInterval natural?
    limit := ← (← v.slot? "timeout_secs" 4).optional natural?
    payload := ← (← v.slot? "payload" 5).optional (some ·.toJson) }

/-- The section on a certificate. -/
def Certificate.ofToml? (v : Toml) : Option Certificate := do
  return {
    certificateFile := ← (← v.slot? "cert_file" 0).required text?
    keyFile := ← (← v.slot? "key_file" 1).required text?
    passphraseVariable := ← (← v.slot? "passphrase_env" 2).optional text? }

/-- The keep-alive of a connection when none is given, in seconds. -/
def defaultKeepAlive : Nat := 180

/-- The section on the connection. -/
def Mqtt.ofToml? (v : Toml) : Option Mqtt := do
  return {
    keepAlive := ← (← v.slot? "keep_alive_secs" 0).orElse defaultKeepAlive natural?
    cleanSession := ← (← v.slot? "clean_session" 1).orElse true truth?
    signatureVariable := ← (← v.slot? "sas_token_env" 2).optional text?
    certificate := ← (← v.slot? "x509" 3).optional Certificate.ofToml?
    caFile := ← (← v.slot? "ca_file" 4).optional text?
    brokerUri := ← (← v.slot? "broker_url" 5).optional text? }

/-- **The configuration that a document holds.** -/
def ofToml? (v : Toml) : Option Configuration := do
  return {
    provisioning := ← (← v.slot? "provisioning" 0).required Provisioning.ofToml?
    mqtt := ← (← v.slot? "mqtt" 1).required Mqtt.ofToml? }

/-- The configuration that a text holds, if it can be used. -/
def ofText (text : String) : Except Error Configuration :=
  match (Toml.parse? text).bind ofToml? with
  | none => .error .malformed
  | some c => do c.validate; return c

/-- **Loads a configuration file.** -/
def load {m : Type → Type} [Monad m] (s : Surroundings m) (path : String) :
    ExceptT Error m Configuration := do
  match ← s.readText path with
  | .error e => throw (.unreadable e)
  | .ok text => ofText text

/-! ## Writing -/

/-- The members that are there. -/
def present (members : List (String × Option Toml)) : Toml :=
  .ofMembers (members.filterMap fun (key, v) => v.map (key, ·))

/-- The section on provisioning, unless the payload cannot be written. -/
def Provisioning.toToml? (p : Provisioning) : Option Toml := do
  let payload ← p.payload.mapM Toml.ofJson?
  return present
    [("global_endpoint", some (.str p.endpoint)),
     ("id_scope", some (.str p.idScope)),
     ("registration_id", some (.str p.registrationId)),
     ("polling_interval_ms", some (.int p.interval)),
     ("timeout_secs", p.limit.map fun n => .int n),
     ("payload", payload)]

/-- The section on a certificate. -/
def Certificate.toToml (c : Certificate) : Toml :=
  present
    [("cert_file", some (.str c.certificateFile)),
     ("key_file", some (.str c.keyFile)),
     ("passphrase_env", c.passphraseVariable.map .str)]

/-- The section on the connection. -/
def Mqtt.toToml (c : Mqtt) : Toml :=
  present
    [("keep_alive_secs", some (.int c.keepAlive)),
     ("clean_session", some (.bool c.cleanSession)),
     ("sas_token_env", c.signatureVariable.map .str),
     ("x509", c.certificate.map Certificate.toToml),
     ("ca_file", c.caFile.map .str),
     ("broker_url", c.brokerUri.map .str)]

/-- **The document that holds a configuration,** unless its payload cannot be written. -/
def toToml? (c : Configuration) : Option Toml := do
  let provisioning ← c.provisioning.toToml?
  return .ofMembers [("provisioning", provisioning), ("mqtt", c.mqtt.toToml)]

/-- The configuration as JSON, with `null` for what is absent. -/
def toJson (c : Configuration) : Json :=
  let text (s : Option String) : Json := (s.map Json.str).getD .null
  let p := c.provisioning
  .ofMembers
    [("provisioning", .ofMembers
      [("global_endpoint", .str p.endpoint), ("id_scope", .str p.idScope),
       ("registration_id", .str p.registrationId), ("polling_interval_ms", .int p.interval),
       ("timeout_secs", (p.limit.map fun n => Json.int n).getD .null),
       ("payload", p.payload.getD .null)]),
     ("mqtt", .ofMembers
      [("keep_alive_secs", .int c.mqtt.keepAlive), ("clean_session", .bool c.mqtt.cleanSession),
       ("sas_token_env", text c.mqtt.signatureVariable),
       ("x509", (c.mqtt.certificate.map fun x => Json.ofMembers
         [("cert_file", .str x.certificateFile), ("key_file", .str x.keyFile),
          ("passphrase_env", text x.passphraseVariable)]).getD .null),
       ("ca_file", text c.mqtt.caFile), ("broker_url", text c.mqtt.brokerUri)])]

end DeviceProvisioning.Configuration
