import LiveLayout.Channel.Basic
import LiveLayout.Channel.Published
import LiveLayout.Channel.Queue
import LiveLayout.Channel.Rate
import LiveLayout.Channel.Received
import LiveLayout.Channel.Scripted
import LiveLayout.Channel.Shown
import LiveLayout.CommandLine.Address
import LiveLayout.CommandLine.Arguments
import LiveLayout.CommandLine.Disk
import LiveLayout.CommandLine.Host
import LiveLayout.CommandLine.Path
import LiveLayout.CommandLine.Run
import LiveLayout.CommandLine.Texts
import LiveLayout.Config.Basic
import LiveLayout.Config.Document
import LiveLayout.Document.Datum
import LiveLayout.Document.Json
import LiveLayout.Document.Toml.Lexical
import LiveLayout.Document.Toml.Parser
import LiveLayout.Document.Toml.Printer
import LiveLayout.Document.Toml.Scalar
import LiveLayout.Document.Toml.Tree
import LiveLayout.Error
import LiveLayout.Graph.Clustered
import LiveLayout.Graph.EdgeTable
import LiveLayout.Graph.NodeTable
import LiveLayout.Graph.Rows
import LiveLayout.Layout.Algorithm
import LiveLayout.Layout.Jitter
import LiveLayout.Layout.Recording
import LiveLayout.Main
import LiveLayout.Network.Ipv4
import LiveLayout.Network.Ipv6
import LiveLayout.Numeric.Binary
import LiveLayout.Numeric.Power
import LiveLayout.Position.Buffer
import LiveLayout.Position.Mapper
import LiveLayout.Session.Basic
import LiveLayout.Session.Framing
import LiveLayout.Session.Options
import LiveLayout.Session.State
import LiveLayout.Session.Summary
import LiveLayout.Table.Basic
import LiveLayout.Table.Column
import LiveLayout.Table.Names
import LiveLayout.Table.SchemaError
import LiveLayout.Text.Blank
import LiveLayout.Text.Digits
import LiveLayout.Text.Pieces
import LiveLayout.Text.Utf8
import LiveLayout.Time.Instant
import LiveLayout.Wire.Decode
import LiveLayout.Wire.Encode
import LiveLayout.Wire.Frame
import LiveLayout.Wire.Cursor
import LiveLayout.Wire.Word
import LiveLayout.Proofs.Text.Utf8
import LiveLayout.Proofs.Outcome
import LiveLayout.Proofs.Wire.Reader
import LiveLayout.Proofs.Wire.Column
import LiveLayout.Proofs.Table.Push
import LiveLayout.Proofs.Wire.Frame
import LiveLayout.Proofs.Table.Select
import LiveLayout.Proofs.Graph.Proper
import LiveLayout.Proofs.Channel.Observed
import LiveLayout.Proofs.Channel.Watched
import LiveLayout.Proofs.Session.Framing
import LiveLayout.Proofs.Session.Joined
import LiveLayout.Proofs.Session.Calls
import LiveLayout.Proofs.Session.Contacts
import LiveLayout.Proofs.Session.Transition
import LiveLayout.Proofs.Session.Order
import LiveLayout.Proofs.Channel.Tally
import LiveLayout.Proofs.Session.Effect
import LiveLayout.Proofs.Session.Frames
import LiveLayout.Proofs.Session.EdgeDelivery
import LiveLayout.Proofs.Session.Sentinel
import LiveLayout.Proofs.Session.Backpressure
import LiveLayout.Proofs.Session.Accounting
import LiveLayout.Proofs.Session.Refusal
import LiveLayout.Proofs.Channel.Passage
import LiveLayout.Proofs.Session.Ownership
import LiveLayout.Proofs.Channel.Queue
import LiveLayout.Proofs.Session.Pipeline
import LiveLayout.Proofs.Session.Conservation
import LiveLayout.Proofs.Channel.Delivery
import LiveLayout.Proofs.CommandLine.Consumption
import LiveLayout.Proofs.Wire.Delimited
import LiveLayout.Proofs.Session.Coordinates
import LiveLayout.Proofs.Session.Driven
import LiveLayout.Proofs.Config.Streaming
import LiveLayout.Proofs.Wire.Bounds
import LiveLayout.Proofs.Channel.Cut
import LiveLayout.Proofs.Wire.Peek
import LiveLayout.Proofs.Wire.Sized
import LiveLayout.Proofs.Table.Built
import LiveLayout.Proofs.Channel.Overlong
import LiveLayout.Proofs.Channel.Collected
import LiveLayout.Proofs.Graph.Rows
import LiveLayout.Proofs.Session.Rows
import LiveLayout.Proofs.Table.Algebra
import LiveLayout.Proofs.Graph.Accepted
import LiveLayout.Proofs.Graph.Endpoints
import LiveLayout.Proofs.Graph.Validated
import LiveLayout.Proofs.Position.Shapes
import LiveLayout.Proofs.Channel.Uses
import LiveLayout.Proofs.Session.Undrained
import LiveLayout.Proofs.Layout.Reports
import LiveLayout.Proofs.Numeric.Single
import LiveLayout.Proofs.Layout.Nudges
import LiveLayout.Proofs.Graph.Links
import LiveLayout.Proofs.Graph.Shape
