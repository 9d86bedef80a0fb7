import MeshFormation.Configuration
import MeshFormation.Direction.Codec
import MeshFormation.Fabric
import MeshFormation.FaultPlan
import MeshFormation.Member.Codec
import MeshFormation.Payload
import MeshFormation.RouterTask
import MeshFormation.Proofs.ControlMessage.RoundTrip
import MeshFormation.Proofs.Cabling
import MeshFormation.Proofs.Node.Frame
import MeshFormation.Proofs.Node.Calls
import MeshFormation.Proofs.Node.Reports
import MeshFormation.Proofs.Router.Knowledge
import MeshFormation.Proofs.Fabric.Start
import MeshFormation.Proofs.Fabric.Delivery
import MeshFormation.Proofs.Fabric.DataPath
import MeshFormation.Proofs.Fabric.Quiescence
import MeshFormation.Proofs.Cabling.Simple
import MeshFormation.Proofs.Topology.Chassis
import MeshFormation.Proofs.Formation.Blueprint
import MeshFormation.Proofs.Formation.Routes
import MeshFormation.Proofs.Ledger.Lookup
import MeshFormation.Proofs.Formation.Requests
import MeshFormation.Proofs.Formation.Rules
import MeshFormation.Proofs.Formation.Steady
import MeshFormation.Proofs.Formation.Discovery
import MeshFormation.Proofs.Formation.Completion
import MeshFormation.Proofs.Formation.Messages
import MeshFormation.Proofs.Formation.Errands
import MeshFormation.Proofs.Formation.Charges
import MeshFormation.Proofs.Formation.Forming
import MeshFormation.Proofs.Formation.Advance
import MeshFormation.Proofs.Formation.Effort
import MeshFormation.Proofs.Formation.Runs
import MeshFormation.Proofs.Formation.Begin
import MeshFormation.Proofs.Formation.Complete
import MeshFormation.Proofs.Formation.AnyOrder
import MeshFormation.Proofs.Router.Step
import MeshFormation.Proofs.Router.Writes
import MeshFormation.Proofs.Router.Routes
import MeshFormation.Proofs.Router.Conservation
import MeshFormation.Proofs.Forwarding.Relays
import MeshFormation.Proofs.Forwarding.Partner
import MeshFormation.Proofs.Ledger.Totals
import MeshFormation.Proofs.Router.Readiness
import MeshFormation.Proofs.Router.Lock
import MeshFormation.Proofs.Router.Failure
import MeshFormation.Proofs.Formation.Stall
import MeshFormation.Proofs.Router.Attachment
import MeshFormation.Proofs.Router.Bindings
import MeshFormation.Proofs.Router.Redelivery
import MeshFormation.Proofs.Router.Announcements
import MeshFormation.Proofs.Node.Transmits
import MeshFormation.Proofs.Router.Relayed
import MeshFormation.Proofs.Router.Cables
import MeshFormation.Proofs.Forwarding.Due
import MeshFormation.Proofs.Cabling.Agreement
import MeshFormation.Proofs.Formation.Parallel
import MeshFormation.Proofs.Formation.Pair
import MeshFormation.Proofs.Formation.Pairing
import MeshFormation.Proofs.Formation.Surplus
import MeshFormation.Proofs.Ledger.Sources
import MeshFormation.Proofs.Router.Entries
import MeshFormation.Proofs.Router.Inputs
import MeshFormation.Proofs.Router.Partition
import MeshFormation.Proofs.Router.Disabling
import MeshFormation.Proofs.ControlMessage.Decoding
import MeshFormation.Proofs.Fabric.Draining
import MeshFormation.Proofs.Json.Grammar
import MeshFormation.Proofs.Json.Literals
import MeshFormation.Proofs.Json.Members
import MeshFormation.Proofs.Json.Reading
import MeshFormation.Proofs.Json.Sound
import MeshFormation.Proofs.Router.Growth
import MeshFormation.Proofs.Router.Answers
import MeshFormation.Proofs.Router.Outgoing
import MeshFormation.Proofs.Router.Sparing
import MeshFormation.Proofs.Topology.Partitions
import MeshFormation.Proofs.Topology.Verdict
import MeshFormation.Proofs.Topology.Structure
import MeshFormation.Proofs.Formation.OuterOrder
import MeshFormation.Proofs.Service.Dispatch
import MeshFormation.Proofs.Router.Forwards
import MeshFormation.Proofs.Router.Proceed
import MeshFormation.Proofs.Router.Fanout
import MeshFormation.Proofs.Router.Repetition
import MeshFormation.Proofs.Node.Mesh
import MeshFormation.Proofs.Router.Independence
import MeshFormation.Proofs.Router.Refusals
import MeshFormation.Proofs.Router.Hostnames
import MeshFormation.Proofs.Forwarding.Shares
import MeshFormation.Proofs.Toml.Documents
import MeshFormation.Proofs.Toml.Writing
import MeshFormation.Proofs.Configuration.Description
import MeshFormation.Proofs.Configuration.Documents
import MeshFormation.Proofs.Cabling.Numbering
import MeshFormation.Proofs.Route.Text
