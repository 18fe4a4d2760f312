import EventClient.Accounts
import EventClient.Address
import EventClient.Application
import EventClient.Binary64.Rounding
import EventClient.Binary64.Shortest
import EventClient.Client.Basic
import EventClient.Client.Lifecycle
import EventClient.Client.Loop
import EventClient.Client.Requests
import EventClient.Client.Routing
import EventClient.CommandLine.Exit
import EventClient.CommandLine.Level
import EventClient.CommandLine.Options
import EventClient.CommandLine.Run
import EventClient.CommandLine.Setting
import EventClient.CommandLine.Value
import EventClient.Context
import EventClient.Correlation
import EventClient.Error
import EventClient.Frame
import EventClient.Journal
import EventClient.Json.Basic
import EventClient.Json.Decoder
import EventClient.Json.Fault
import EventClient.Json.Printer
import EventClient.Json.Reader
import EventClient.Json.Skip
import EventClient.Main
import EventClient.Notification
import EventClient.Proofs.Client.Active
import EventClient.Proofs.Client.Agreement
import EventClient.Proofs.Client.Besides
import EventClient.Proofs.Client.Blindness
import EventClient.Proofs.Client.Broadcasts
import EventClient.Proofs.Client.Calls
import EventClient.Proofs.Client.Canonical
import EventClient.Proofs.Client.Channels
import EventClient.Proofs.Client.Confined
import EventClient.Proofs.Client.Conservation
import EventClient.Proofs.Client.Contexts
import EventClient.Proofs.Client.Drained
import EventClient.Proofs.Client.Draining
import EventClient.Proofs.Client.Exclusion
import EventClient.Proofs.Client.Finality
import EventClient.Proofs.Client.Handlers
import EventClient.Proofs.Client.Leases
import EventClient.Proofs.Client.Lifecycle
import EventClient.Proofs.Client.Meanwhile
import EventClient.Proofs.Client.Plans
import EventClient.Proofs.Client.Polling
import EventClient.Proofs.Client.Queues
import EventClient.Proofs.Client.Reentry
import EventClient.Proofs.Client.Released
import EventClient.Proofs.Client.Run
import EventClient.Proofs.Client.Slots
import EventClient.Proofs.Client.Stops
import EventClient.Proofs.Client.Subscribing
import EventClient.Proofs.Client.Takings
import EventClient.Proofs.Client.Tracing
import EventClient.Proofs.Client.Views
import EventClient.Proofs.CommandLine.Bundles
import EventClient.Proofs.CommandLine.Sends
import EventClient.Proofs.Connection.Decoding
import EventClient.Proofs.Connection.Dialogue
import EventClient.Proofs.Connection.Frames
import EventClient.Proofs.Connection.Inbound
import EventClient.Proofs.Connection.Loss
import EventClient.Proofs.Connection.Opening
import EventClient.Proofs.Connection.Outbound
import EventClient.Proofs.Connection.Requests
import EventClient.Proofs.Connection.Sessions
import EventClient.Proofs.Context
import EventClient.Proofs.Correlation.Events
import EventClient.Proofs.Correlation.ExactlyOnce
import EventClient.Proofs.Correlation.Failures
import EventClient.Proofs.Correlation.Fates
import EventClient.Proofs.Correlation.Steps
import EventClient.Proofs.Frame
import EventClient.Proofs.Frame.Reading
import EventClient.Proofs.Frame.RoundTrip
import EventClient.Proofs.Frame.Writing
import EventClient.Proofs.Json.Accepted
import EventClient.Proofs.Json.Decoded
import EventClient.Proofs.Json.Decoders
import EventClient.Proofs.Json.Enclosed
import EventClient.Proofs.Json.Kept
import EventClient.Proofs.Json.Lexemes
import EventClient.Proofs.Json.Outcomes
import EventClient.Proofs.Json.Passing
import EventClient.Proofs.Json.Reading
import EventClient.Proofs.Json.RoundTrip
import EventClient.Proofs.Json.Scalars
import EventClient.Proofs.Json.Values
import EventClient.Proofs.Json.Variants
import EventClient.Proofs.Json.Widening
import EventClient.Proofs.Json.Writing
import EventClient.Proofs.Notification
import EventClient.Proofs.Notification.EitherOrder
import EventClient.Proofs.Notification.UnknownMembers
import EventClient.Proofs.Registry
import EventClient.Proofs.Registry.Table
import EventClient.Proofs.Request
import EventClient.Proofs.Script.Moves
import EventClient.Proofs.Subscriptions
import EventClient.Proofs.Target
import EventClient.Proofs.Text.Blank
import EventClient.Proofs.TracePattern
import EventClient.Registry
import EventClient.Request
import EventClient.Script.Basic
import EventClient.Script.Perform
import EventClient.Settings
import EventClient.Subscriptions
import EventClient.Target
import EventClient.Text.Blank
import EventClient.Text.Bytes
import EventClient.Text.Quoted
import EventClient.Text.Visible
import EventClient.TracePattern
import EventClient.Transport
import EventClient.Transport.Connection
import EventClient.Transport.Loopback
import EventClient.Proofs.CommandLine.Running
