import DeviceProvisioning.Number.Decimal
import DeviceProvisioning.Text.Utf8

/-!
# Credentials

A device proves who it is with a shared access signature, which is sent as the MQTT
password, or with a certificate for TLS.  `describe` is the text of a credential in logs: it
shows its kind and how long a certificate is, and nothing of its secrets.
-/

namespace DeviceProvisioning.Connection

open DeviceProvisioning.Text

/-- A certificate with its key, both in PEM. -/
structure Certificate where
  certificate : Octets
  key : Octets
  passphrase : Option String
deriving DecidableEq

/-- **How a device proves who it is.** -/
inductive Credential where
  | signature (text : String)
  | certificate (c : Certificate)
deriving DecidableEq

/-- The text of a credential in logs. -/
def Credential.describe : Credential → String
  | signature _ => "SharedAccessSignature(***)"
  | certificate c =>
    "ClientCertificate \x7b certificate_len: "
      ++ String.ofList (Number.decimal c.certificate.length)
      ++ ", private_key: \"***\", passphrase: "
      ++ (if c.passphrase.isSome then "Some(\"***\")" else "None") ++ " \x7d"

end DeviceProvisioning.Connection
