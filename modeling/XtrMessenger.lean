import XtrMessenger.Foundation.Machine
import XtrMessenger.Foundation.History
import XtrMessenger.Foundation.Traced
import XtrMessenger.Foundation.Stateful
import XtrMessenger.Foundation.Text
import XtrMessenger.Foundation.Dict
import XtrMessenger.Foundation.Cut
import XtrMessenger.Foundation.Interleaving
import XtrMessenger.Foundation.Programs
import XtrMessenger.Foundation.Surplus
import XtrMessenger.Foundation.Search
import XtrMessenger.Foundation.Json
import XtrMessenger.Foundation.Numeral
import XtrMessenger.Envelope
import XtrMessenger.Exceptions
import XtrMessenger.Handling
import XtrMessenger.Worker.Settlement
import XtrMessenger.Worker.Run
import XtrMessenger.Worker.Delivery
import XtrMessenger.Worker.Stopping
import XtrMessenger.Worker.Announcing
import XtrMessenger.Receiver.Chained
import XtrMessenger.Receiver.Conservation
import XtrMessenger.Receiver.Correlation
import XtrMessenger.Receiver.Overtaking
import XtrMessenger.Receiver.Sessions
import XtrMessenger.Worker.Ledger
import XtrMessenger.Middleware.Holding
import XtrMessenger.Middleware.Draining
import XtrMessenger.Middleware.FollowUps
import XtrMessenger.Middleware.Entering
import XtrMessenger.Middleware.Units
import XtrMessenger.Serialization.Registries
import XtrMessenger.Serialization.Declarations
import XtrMessenger.Serialization.JsonSerializer
import XtrMessenger.Serialization.RoundTrip
import XtrMessenger.Serialization.Forged
import XtrMessenger.Serialization.Relaying
import XtrMessenger.Serialization.Namesakes
import XtrMessenger.Bus.Message
import XtrMessenger.Bus.Sending
import XtrMessenger.Bus.Precedence
import XtrMessenger.Bus.Refusal
import XtrMessenger.Bus.Handlers
import XtrMessenger.Bus.Signatures
import XtrMessenger.Bus.Decorating
import XtrMessenger.Bus.Declaring
import XtrMessenger.Bus.Failures
import XtrMessenger.Bus.Factories
import XtrMessenger.Bus.Dispatching
import XtrMessenger.Bus.Frames
import XtrMessenger.Bus.Rerouting
import XtrMessenger.Bus.Redispatching
import XtrMessenger.Middleware.Cursor
import XtrMessenger.Middleware.Named
import XtrMessenger.Url.Address
import XtrMessenger.Url.Split
import XtrMessenger.Url.Joining
import XtrMessenger.Url.Query
import XtrMessenger.Dsn.Redaction
import XtrMessenger.Dsn.Shown
import XtrMessenger.Dsn.Settling
import XtrMessenger.Dsn.Deleting
import XtrMessenger.Dsn.Parsing
import XtrMessenger.Dsn.Settings
import XtrMessenger.Dsn.Connections
import XtrMessenger.Transport.Serving
import XtrMessenger.Transport.Closing
import XtrMessenger.Transport.Options
import XtrMessenger.Transport.Workers
import XtrMessenger.Transport.Directing
import XtrMessenger.Transport.Naming
import XtrMessenger.Transport.Sharing
import XtrMessenger.Transport.Seeing
import XtrMessenger.Transport.Wiring
import XtrMessenger.Transport.Identities
import XtrMessenger.Taskiq.StartedBrokers
import XtrMessenger.Taskiq.WorkerRuns
import XtrMessenger.Taskiq.Connection
import XtrMessenger.Taskiq.Ownership
import XtrMessenger.Taskiq.Opening
import XtrMessenger.Taskiq.Binding
import XtrMessenger.Taskiq.Agreement
import XtrMessenger.Taskiq.Publishing
import XtrMessenger.Taskiq.Rebuilding
import XtrMessenger.Bus.Receipts
import XtrMessenger.Bus.Appending
import XtrMessenger.Worker.Several
import XtrMessenger.Worker.Tickets
import XtrMessenger.Transport.Recording
import XtrMessenger.Worker.Pool
import XtrMessenger.Bundle.MiddlewareEntries
import XtrMessenger.Taskiq.Receiving
import XtrMessenger.Transport.Moving
import XtrMessenger.Command.Consume
