import DeviceProvisioning.CommandLine.Arguments
import DeviceProvisioning.CommandLine.Help
import DeviceProvisioning.CommandLine.Program
import DeviceProvisioning.Configuration.Basic
import DeviceProvisioning.Configuration.File
import DeviceProvisioning.Connection.Address
import DeviceProvisioning.Connection.Command
import DeviceProvisioning.Connection.Credential
import DeviceProvisioning.Connection.Manager
import DeviceProvisioning.Connection.Options
import DeviceProvisioning.Connection.Parameters
import DeviceProvisioning.Connection.State
import DeviceProvisioning.Failure
import DeviceProvisioning.Identifier
import DeviceProvisioning.Json.Basic
import DeviceProvisioning.Json.Number
import DeviceProvisioning.Json.Parser
import DeviceProvisioning.Json.Printer
import DeviceProvisioning.Json.Record
import DeviceProvisioning.Link.Acknowledgements
import DeviceProvisioning.Link.Call
import DeviceProvisioning.Link.Dialogue
import DeviceProvisioning.Link.Network
import DeviceProvisioning.Link.Packet
import DeviceProvisioning.Logging
import DeviceProvisioning.Main
import DeviceProvisioning.Metrics
import DeviceProvisioning.Number.Binary64
import DeviceProvisioning.Number.Decimal
import DeviceProvisioning.Number.Hexadecimal
import DeviceProvisioning.Number.Rounding
import DeviceProvisioning.Proofs.Connection.Arrival
import DeviceProvisioning.Proofs.Connection.Callers
import DeviceProvisioning.Proofs.Connection.Calm
import DeviceProvisioning.Proofs.Connection.Closing
import DeviceProvisioning.Proofs.Connection.Continuity
import DeviceProvisioning.Proofs.Connection.Counters
import DeviceProvisioning.Proofs.Connection.Course
import DeviceProvisioning.Proofs.Connection.Links
import DeviceProvisioning.Proofs.Connection.Move
import DeviceProvisioning.Proofs.Connection.Notices
import DeviceProvisioning.Proofs.Connection.Options
import DeviceProvisioning.Proofs.Connection.Origin
import DeviceProvisioning.Proofs.Connection.Past
import DeviceProvisioning.Proofs.Connection.Progress
import DeviceProvisioning.Proofs.Connection.Provenance
import DeviceProvisioning.Proofs.Connection.Purpose
import DeviceProvisioning.Proofs.Connection.Reports
import DeviceProvisioning.Proofs.Connection.Rotation
import DeviceProvisioning.Proofs.Connection.Standing
import DeviceProvisioning.Proofs.Connection.Validity
import DeviceProvisioning.Proofs.Json.Record
import DeviceProvisioning.Proofs.Json.Scalar
import DeviceProvisioning.Proofs.Json.Value
import DeviceProvisioning.Proofs.Link.Conservation
import DeviceProvisioning.Proofs.Link.Correlation
import DeviceProvisioning.Proofs.Link.Ending
import DeviceProvisioning.Proofs.Link.Standing
import DeviceProvisioning.Proofs.Metrics
import DeviceProvisioning.Proofs.Number.Decimal
import DeviceProvisioning.Proofs.Redaction
import DeviceProvisioning.Proofs.Redaction.Tokens
import DeviceProvisioning.Proofs.Registration.Bodies
import DeviceProvisioning.Proofs.Registration.Course
import DeviceProvisioning.Proofs.Registration.Enquiry
import DeviceProvisioning.Proofs.Registration.Polling
import DeviceProvisioning.Proofs.Registration.WireForm
import DeviceProvisioning.Proofs.RequestId
import DeviceProvisioning.Proofs.Session.Callers
import DeviceProvisioning.Proofs.Session.Correlation
import DeviceProvisioning.Proofs.Session.Counters
import DeviceProvisioning.Proofs.Session.Course
import DeviceProvisioning.Proofs.Session.Loss
import DeviceProvisioning.Proofs.Session.Messages
import DeviceProvisioning.Proofs.Session.Move
import DeviceProvisioning.Proofs.Session.Renewal
import DeviceProvisioning.Proofs.Session.Standing
import DeviceProvisioning.Proofs.Table
import DeviceProvisioning.Proofs.Tandem.Attended
import DeviceProvisioning.Proofs.Tandem.Basic
import DeviceProvisioning.Proofs.Tandem.Calls
import DeviceProvisioning.Proofs.Tandem.Connected
import DeviceProvisioning.Proofs.Tandem.Credential
import DeviceProvisioning.Proofs.Tandem.Loss
import DeviceProvisioning.Proofs.Tandem.Play
import DeviceProvisioning.Proofs.Tandem.Publication
import DeviceProvisioning.Proofs.Tandem.Subscription
import DeviceProvisioning.Proofs.Text.FormEncoding
import DeviceProvisioning.Proofs.Time.Timestamp
import DeviceProvisioning.Proofs.Topic.Grammar
import DeviceProvisioning.Proofs.Topic.Request
import DeviceProvisioning.Proofs.Topic.Response
import DeviceProvisioning.Proofs.Topic.RoundTrip
import DeviceProvisioning.Proofs.Topic.Username
import DeviceProvisioning.Redaction
import DeviceProvisioning.Registration.Client
import DeviceProvisioning.Registration.Record
import DeviceProvisioning.Registration.Request
import DeviceProvisioning.Registration.Response
import DeviceProvisioning.Registration.Status
import DeviceProvisioning.Rehearsal.Basic
import DeviceProvisioning.Rehearsal.Broker
import DeviceProvisioning.Rehearsal.Clock
import DeviceProvisioning.Rehearsal.Job
import DeviceProvisioning.Rehearsal.Script
import DeviceProvisioning.Rehearsal.Turn
import DeviceProvisioning.Rehearsal.World
import DeviceProvisioning.RequestId
import DeviceProvisioning.Session.Basic
import DeviceProvisioning.Session.Call
import DeviceProvisioning.Session.Command
import DeviceProvisioning.Session.Settings
import DeviceProvisioning.Surroundings.Basic
import DeviceProvisioning.Surroundings.Directory
import DeviceProvisioning.Text.Blank
import DeviceProvisioning.Text.FormEncoding
import DeviceProvisioning.Text.Split
import DeviceProvisioning.Text.Utf8
import DeviceProvisioning.Time.Calendar
import DeviceProvisioning.Time.Span
import DeviceProvisioning.Time.Timestamp
import DeviceProvisioning.Toml.Basic
import DeviceProvisioning.Toml.Moment
import DeviceProvisioning.Toml.Number
import DeviceProvisioning.Toml.Parser
import DeviceProvisioning.Toml.Printer
import DeviceProvisioning.Toml.Record
import DeviceProvisioning.Toml.Table
import DeviceProvisioning.Toml.Text
import DeviceProvisioning.Topic.Request
import DeviceProvisioning.Topic.Response
import DeviceProvisioning.Uri.Basic
import DeviceProvisioning.Uri.Host
import DeviceProvisioning.Uri.Ipv6
