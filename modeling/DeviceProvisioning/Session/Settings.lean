import DeviceProvisioning.Connection.Parameters
import DeviceProvisioning.Topic.Request

/-!
# Settings of a session

A session opens its connections by itself, so it is given what all of them have in common.
The device whose registration is asked for adds its name, which is both the client id and
part of the user name.
-/

namespace DeviceProvisioning.Session

open Connection (Credential Parameters)

/-- The endpoint of the provisioning service for all regions. -/
def globalEndpoint : String := "global.azure-devices-provisioning.net"

/-- The client version that is reported to the service. -/
def userAgent : String := "dps-mqtt/0.1.0"

/-- How long to wait before asking again when the service does not say. -/
def defaultInterval : Time.Millis := 2000

/-- **What the connections of a session have in common.** -/
structure Settings where
  endpoint : String := globalEndpoint
  idScope : String
  credential : Credential
  /-- Takes the place of the endpoint's URI. -/
  brokerUri : Option String := none
  caCertificate : Option Text.Octets := none
  keepAlive : Time.Millis := Connection.defaultKeepAlive
  cleanSession : Bool := true
  interval : Time.Millis := defaultInterval
  clientVersion : String := userAgent
deriving DecidableEq

namespace Settings

/-- The URI of the broker. -/
def uri (s : Settings) : String :=
  s.brokerUri.getD ("mqtts://" ++ s.endpoint ++ ":8883")

/-- **The parameters of a connection for a device.** -/
def parameters (s : Settings) (registrationId : String) : Parameters where
  uri := s.uri
  clientId := registrationId
  username := Topic.username s.idScope registrationId s.clientVersion
  credential := some s.credential
  cleanSession := s.cleanSession
  keepAlive := s.keepAlive
  caCertificate := s.caCertificate

end Settings
end DeviceProvisioning.Session
