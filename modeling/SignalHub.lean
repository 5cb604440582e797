import SignalHub.Access
import SignalHub.Command.Args
import SignalHub.Command.Path
import SignalHub.Command.Run
import SignalHub.Config.Basic
import SignalHub.Config.Finish
import SignalHub.Config.Load
import SignalHub.Daemon
import SignalHub.Device
import SignalHub.Digest.Hmac
import SignalHub.Digest.Sha256
import SignalHub.Directory
import SignalHub.Http.Request
import SignalHub.Http.Response
import SignalHub.Http.Uri
import SignalHub.Hub.Basic
import SignalHub.Hub.Connection
import SignalHub.Hub.Counters
import SignalHub.Hub.Deliver
import SignalHub.Hub.Desk
import SignalHub.Hub.Registration
import SignalHub.Hub.Table
import SignalHub.Json.Basic
import SignalHub.Json.Numeral
import SignalHub.Json.Printer
import SignalHub.Json.Reader
import SignalHub.Json.Record
import SignalHub.Json.Token
import SignalHub.Main
import SignalHub.Message.Basic
import SignalHub.Message.Inbound
import SignalHub.Message.Kind
import SignalHub.Net.Ip
import SignalHub.Net.SocketAddress
import SignalHub.Net.Url
import SignalHub.Pump.Basic
import SignalHub.Pump.Reader
import SignalHub.Pump.Writer
import SignalHub.Server.Respond
import SignalHub.Server.Route
import SignalHub.Server.Upgrade
import SignalHub.Settings
import SignalHub.Text.Base64Url
import SignalHub.Text.Blank
import SignalHub.Text.Decimal
import SignalHub.Text.Form
import SignalHub.Text.Hex
import SignalHub.Text.Parts
import SignalHub.Text.Percent
import SignalHub.Text.Punycode
import SignalHub.Text.Quoted
import SignalHub.Text.Utf8
import SignalHub.Text.Visible
import SignalHub.Token.Bearer
import SignalHub.Token.Claims
import SignalHub.Token.Header
import SignalHub.Token.Issue
import SignalHub.Token.Verify
import SignalHub.Uuid
import SignalHub.Word
import SignalHub.World.Actions
import SignalHub.World.Basic
import SignalHub.World.Schedule
import SignalHub.Proofs.Hub.Effect
import SignalHub.Proofs.Hub.Registry
import SignalHub.Proofs.Hub.Live
import SignalHub.Proofs.Device.Listing
import SignalHub.Proofs.Hub.Views
import SignalHub.Proofs.Hub.Replica
import SignalHub.Proofs.Hub.Isolation
import SignalHub.Proofs.Hub.Queue
import SignalHub.Proofs.Hub.Relay
import SignalHub.Proofs.Desk.Run
import SignalHub.Proofs.Desk.Calls
import SignalHub.Proofs.Desk.Stop
import SignalHub.Proofs.Hub.News
import SignalHub.Proofs.World.Presence
import SignalHub.Proofs.Hub.Channel
import SignalHub.Proofs.Pump.Steps
import SignalHub.Proofs.World.Run
import SignalHub.Proofs.World.Writing
import SignalHub.Proofs.Desk.Turns
import SignalHub.Proofs.Hub.Leave
import SignalHub.Proofs.World.Cleanup
import SignalHub.Proofs.Pump.Timing
import SignalHub.Proofs.World.Keepalive
import SignalHub.Proofs.Json.RoundTrip
import SignalHub.Proofs.Json.Records
import SignalHub.Proofs.Message.Frames
import SignalHub.Proofs.Text.Base64Url
import SignalHub.Proofs.Text.Blank
import SignalHub.Proofs.Text.Parts
import SignalHub.Proofs.Text.Form
import SignalHub.Proofs.Token.Verify
import SignalHub.Proofs.Hub.Lifecycle
import SignalHub.Proofs.Server.Admission
import SignalHub.Proofs.Server.Service
import SignalHub.Proofs.Server.Handling
import SignalHub.Proofs.Server.Ownership
import SignalHub.Proofs.Message.Events
import SignalHub.Proofs.Hub.Counting
import SignalHub.Proofs.Config.Acceptance
import SignalHub.Proofs.Command.Options
import SignalHub.Proofs.Command.Precedence
import SignalHub.Proofs.Hub.Balance
import SignalHub.Proofs.Hub.Reaction
import SignalHub.Proofs.Hub.Arrival
import SignalHub.Proofs.Json.Spelling
import SignalHub.Proofs.Json.Grammar
import SignalHub.Proofs.Json.Keeping
import SignalHub.Proofs.Message.Meaning
import SignalHub.Proofs.Hub.Delivery
import SignalHub.Proofs.Hub.Departure
import SignalHub.Proofs.Text.Utf8
import SignalHub.Proofs.Token.Issue
import SignalHub.Proofs.Pump.Hearing
import SignalHub.Proofs.World.Reading
import SignalHub.Proofs.Http.Uri
import SignalHub.Proofs.Token.Bearer
import SignalHub.Proofs.Config.Settling
import SignalHub.Proofs.Server.Gate
