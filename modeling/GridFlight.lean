import GridFlight.Bytes
import GridFlight.Cell
import GridFlight.Channel
import GridFlight.CommandLine.Command
import GridFlight.CommandLine.Grammar
import GridFlight.CommandLine.Help
import GridFlight.Coordinator.Apply
import GridFlight.Coordinator.Basic
import GridFlight.Coordinator.Inbox
import GridFlight.Coordinator.Run
import GridFlight.Detector
import GridFlight.Display
import GridFlight.Error
import GridFlight.Frame.Basic
import GridFlight.Frame.Codec
import GridFlight.Frame.Reader
import GridFlight.Generator
import GridFlight.Generator.Loop
import GridFlight.Handle
import GridFlight.Heartbeat.ControlLink
import GridFlight.Heartbeat.Responder
import GridFlight.Keyboard
import GridFlight.Liveness
import GridFlight.Main
import GridFlight.Membership
import GridFlight.Message
import GridFlight.Number.Binary
import GridFlight.Number.Decimal
import GridFlight.Number.Integer
import GridFlight.Number.Literal
import GridFlight.Physics
import GridFlight.Physics.Loop
import GridFlight.Pid
import GridFlight.Endpoints
import GridFlight.Program
import GridFlight.Proofs.Coordinator.Coherence
import GridFlight.Proofs.Coordinator.Obstruction
import GridFlight.Proofs.Coordinator.Orderly
import GridFlight.Proofs.Detector.Kill
import GridFlight.Proofs.Flight.Barrier
import GridFlight.Proofs.Flight.CleanExit
import GridFlight.Proofs.Frame.Stream
import GridFlight.Proofs.Generator.Overlap
import GridFlight.Proofs.Registry.Turns
import GridFlight.Random
import GridFlight.Registry.Disk
import GridFlight.Registry.Entry
import GridFlight.Registry.File
import GridFlight.Registry.Listing
import GridFlight.Rehearsal.Bench
import GridFlight.Rehearsal.Clock
import GridFlight.Rehearsal.Ensemble
import GridFlight.Rehearsal.Parts
import GridFlight.Role
import GridFlight.Scalar
import GridFlight.Screen
import GridFlight.Session
import GridFlight.Text.Blank
import GridFlight.Text.Document
import GridFlight.Text.Utf8
import GridFlight.Vec
import GridFlight.Wiring
import GridFlight.World
import GridFlight.Proofs.Message.RoundTrip
import GridFlight.Proofs.Coordinator.Interleaving
import GridFlight.Proofs.Coordinator.Isolation
import GridFlight.Proofs.Heartbeat.Exchange
import GridFlight.Proofs.Message.Oversize
import GridFlight.Proofs.Coordinator.Windows
import GridFlight.Proofs.Coordinator.Showing
import GridFlight.Proofs.Wiring.Handles
import GridFlight.Proofs.Wiring.Matching
import GridFlight.Proofs.Registry.Seam
import GridFlight.Proofs.Generator.Scattering
import GridFlight.Proofs.World.Relocation
import GridFlight.Proofs.Coordinator.Numbers
import GridFlight.Proofs.Registry.Withdrawals
import GridFlight.Proofs.Coordinator.Closing
import GridFlight.Proofs.Heartbeat.Deadline
import GridFlight.Proofs.Detector.Notes
import GridFlight.Proofs.Detector.Records
import GridFlight.Proofs.Detector.Timing
import GridFlight.Proofs.Number.Rounding
import GridFlight.Proofs.Text.Tokens
import GridFlight.Proofs.Number.Places
import GridFlight.Proofs.Message.Numbers
import GridFlight.Proofs.Number.Halves
import GridFlight.Proofs.Physics.Position
import GridFlight.Proofs.Number.Exact
import GridFlight.Proofs.Physics.Collision
import GridFlight.Proofs.Screen.Canvas
import GridFlight.Proofs.Screen.Visibility
import GridFlight.Proofs.Frame.Truncation
