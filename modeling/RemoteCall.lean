import RemoteCall.Address.Candidates
import RemoteCall.Address.Host
import RemoteCall.Address.Socket
import RemoteCall.Attributes
import RemoteCall.Client.Connect
import RemoteCall.Client.Correlator
import RemoteCall.Client.Factory
import RemoteCall.Client.Search
import RemoteCall.Client.Supervision
import RemoteCall.Client.Tasks
import RemoteCall.Context
import RemoteCall.Duration
import RemoteCall.Endpoint
import RemoteCall.Failure
import RemoteCall.Frame.Basic
import RemoteCall.Frame.Buffer
import RemoteCall.Frame.Incoming
import RemoteCall.Frame.Stream
import RemoteCall.Handshake
import RemoteCall.Message
import RemoteCall.Named
import RemoteCall.Number.Double
import RemoteCall.Projection
import RemoteCall.Schema
import RemoteCall.Server.Basic
import RemoteCall.Server.Dispatch
import RemoteCall.Server.Draining
import RemoteCall.Server.Operations
import RemoteCall.Server.Tracking
import RemoteCall.Session.Basic
import RemoteCall.Session.Drain
import RemoteCall.Session.KeepAlive
import RemoteCall.Session.Schedule
import RemoteCall.Session.State
import RemoteCall.Session.Store
import RemoteCall.Session.Tasks
import RemoteCall.Session.Writer
import RemoteCall.Settings.Client
import RemoteCall.Settings.Document
import RemoteCall.Settings.Environment
import RemoteCall.Settings.File
import RemoteCall.Settings.Server
import RemoteCall.Text.Blank
import RemoteCall.Text.Hex
import RemoteCall.Text.Number
import RemoteCall.Text.Quoted
import RemoteCall.Text.Unseen
import RemoteCall.Text.Utf8
import RemoteCall.Toml.Document
import RemoteCall.Toml.Item
import RemoteCall.Toml.Reading
import RemoteCall.Toml.Scalar
import RemoteCall.Value
import RemoteCall.Version
import RemoteCall.Wire.BigEndian
import RemoteCall.Wire.Graph
import RemoteCall.Wire.Malformed
import RemoteCall.Wire.Reader
import RemoteCall.Wire.Varint
import RemoteCall.Proofs.Steps
import RemoteCall.Proofs.Wire.Reading
import RemoteCall.Proofs.Objects
import RemoteCall.Proofs.Wire.Writing
import RemoteCall.Proofs.Wire.RoundTrip
import RemoteCall.Proofs.Walk
import RemoteCall.Proofs.Projection.Conformance
import RemoteCall.Proofs.Projection.Fitted
import RemoteCall.Proofs.Client.Accounts
import RemoteCall.Proofs.Client.ExactlyOnce
import RemoteCall.Proofs.Client.Independence
import RemoteCall.Proofs.Client.Tasks
import RemoteCall.Proofs.Client.LostSession
import RemoteCall.Server.Answering
import RemoteCall.Proofs.Server.Dispatch
import RemoteCall.Proofs.Server.Answering
import RemoteCall.Proofs.Frame.Chunking
import RemoteCall.Proofs.Named
import RemoteCall.Proofs.Projection.Lockstep
import RemoteCall.Proofs.Projection.Evolution
import RemoteCall.Proofs.Projection.NewerReader
import RemoteCall.Proofs.Context
import RemoteCall.Proofs.Request
import RemoteCall.Proofs.Handshake
import RemoteCall.Proofs.Server.Draining
import RemoteCall.Proofs.Wire.Grammar
import RemoteCall.Proofs.Wire.Canonical
import RemoteCall.Proofs.Sessions
import RemoteCall.Proofs.Server.Connections
import RemoteCall.Proofs.Server.Moves
import RemoteCall.Proofs.Server.Shutdown
import RemoteCall.Proofs.Server.Health
import RemoteCall.Proofs.Client.Supervisors
import RemoteCall.Proofs.Client.OneSession
import RemoteCall.Proofs.Client.Connected
import RemoteCall.Proofs.Text
import RemoteCall.Proofs.Levels
import RemoteCall.Proofs.Wire.Levels
import RemoteCall.Proofs.Projection.Drawn
import RemoteCall.Proofs.Forwarding
import RemoteCall.Proofs.Wire.Refusals
import RemoteCall.Proofs.Projection.Misfits
import RemoteCall.Proofs.Server.Rejection
import RemoteCall.Proofs.Projection.Image
import RemoteCall.Proofs.Projection.Rewriting
import RemoteCall.Proofs.Projection.Faithful
import RemoteCall.Proofs.Projection.Exposed
import RemoteCall.Proofs.Projection.Traversal
import RemoteCall.Proofs.Projection.Idempotence
import RemoteCall.Proofs.Projection.Aliases
import RemoteCall.Proofs.Projection.ByName
import RemoteCall.Proofs.Projection.Strictness
import RemoteCall.Proofs.Truncation
import RemoteCall.Proofs.Frame.Buffer
import RemoteCall.Proofs.Schedule
import RemoteCall.Proofs.Client.Search
import RemoteCall.Proofs.Wire.Trust
import RemoteCall.Proofs.Lifecycle
import RemoteCall.Proofs.Writer
import RemoteCall.Proofs.Heartbeats
import RemoteCall.Proofs.Wire.Words
import RemoteCall.Proofs.Wire.Numerals
