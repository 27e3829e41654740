import Canvas.CommandLine.Arguments
import Canvas.CommandLine.Console
import Canvas.CommandLine.Files
import Canvas.Decimal.Shortest
import Canvas.Decimal.Text
import Canvas.Dict
import Canvas.Engine
import Canvas.Event
import Canvas.Executor
import Canvas.Graph.BackEdge
import Canvas.Graph.Basic
import Canvas.Graph.Order
import Canvas.Graph.Reach
import Canvas.Graph.Wiring
import Canvas.Http.MediaType
import Canvas.Http.Message
import Canvas.Http.Percent
import Canvas.Issue
import Canvas.Json.Basic
import Canvas.Json.Decoding
import Canvas.Json.Document
import Canvas.Json.Flaw
import Canvas.Json.Numeral
import Canvas.Json.Printer
import Canvas.Json.Reader
import Canvas.Json.Shape
import Canvas.Main
import Canvas.NodeType
import Canvas.Plan
import Canvas.PlanningError
import Canvas.Registry
import Canvas.Resolver
import Canvas.Run.Basic
import Canvas.Run.Execution
import Canvas.Run.Failure
import Canvas.Service.Endpoint
import Canvas.Service.Server
import Canvas.Settings
import Canvas.Stream.Broadcast
import Canvas.Stream.Channel
import Canvas.Stream.Hub
import Canvas.Stream.Sink
import Canvas.Stream.Tracer
import Canvas.Text.Digit
import Canvas.Text.Space
import Canvas.Text.Utf8
import Canvas.Text.Visible
import Canvas.Timestamp
import Canvas.Uuid
import Canvas.Validation
import Canvas.Proofs.CommandLine
import Canvas.Proofs.Connectivity
import Canvas.Proofs.Dangling
import Canvas.Proofs.Dict
import Canvas.Proofs.EdgeId
import Canvas.Proofs.Encoding
import Canvas.Proofs.Event
import Canvas.Proofs.Extension
import Canvas.Proofs.Graph.BackEdge
import Canvas.Proofs.Graph.Building
import Canvas.Proofs.Graph.Counting
import Canvas.Proofs.Graph.CycleReport
import Canvas.Proofs.Graph.Distance
import Canvas.Proofs.Graph.Entries
import Canvas.Proofs.Graph.FinishOrder
import Canvas.Proofs.Graph.Order
import Canvas.Proofs.Graph.Reach
import Canvas.Proofs.Graph.ReleaseOrder
import Canvas.Proofs.Graph.Unplaced
import Canvas.Proofs.Graph.Walk
import Canvas.Proofs.Growth
import Canvas.Proofs.Http.Percent
import Canvas.Proofs.Json.Arrangement
import Canvas.Proofs.Json.Depth
import Canvas.Proofs.Json.Shape
import Canvas.Proofs.Json.Tolerance
import Canvas.Proofs.Lookup
import Canvas.Proofs.MissingAncestor
import Canvas.Proofs.Plan
import Canvas.Proofs.Redrawing
import Canvas.Proofs.Replanning
import Canvas.Proofs.Resolver
import Canvas.Proofs.Run.Concurrency
import Canvas.Proofs.Run.Delivery
import Canvas.Proofs.Run.Dispatch
import Canvas.Proofs.Run.Echo
import Canvas.Proofs.Run.EventStream
import Canvas.Proofs.Run.FirstAndLast
import Canvas.Proofs.Run.FirstEntry
import Canvas.Proofs.Run.Isolation
import Canvas.Proofs.Run.Outcome
import Canvas.Proofs.Run.Outputs
import Canvas.Proofs.Run.Registration
import Canvas.Proofs.Run.Replay
import Canvas.Proofs.Run.Rounds
import Canvas.Proofs.Run.Succession
import Canvas.Proofs.Run.Upstream
import Canvas.Proofs.Service.Endpoint
import Canvas.Proofs.Service.Server
import Canvas.Proofs.Service.StepList
import Canvas.Proofs.Stream.Admission
import Canvas.Proofs.Stream.RunList
import Canvas.Proofs.Stream.Separation
import Canvas.Proofs.Stream.Sink
import Canvas.Proofs.Stream.Tracer
import Canvas.Proofs.Text.Utf8
import Canvas.Proofs.Timeout
import Canvas.Proofs.Timestamp
import Canvas.Proofs.Uuid
import Canvas.Proofs.Validation
