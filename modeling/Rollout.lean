import Rollout.CommandLine.Folder
import Rollout.Graph.Document
import Rollout.Main
import Rollout.Simulation.Basic
import Rollout.Store.Table
import Rollout.Proofs.Plan.Trace
import Rollout.Proofs.Plan.Rendering
import Rollout.Proofs.Workflow.Engine
import Rollout.Proofs.Store.Table
import Rollout.Proofs.Coordinator.Handling
import Rollout.Proofs.Coordinator.Courses
import Rollout.Proofs.Deployment.Reading
import Rollout.Proofs.Store.Key
import Rollout.Proofs.Store.Refinement
import Rollout.Proofs.Coordinator.Outcomes
import Rollout.Proofs.Coordinator.Admission
import Rollout.Proofs.Coordinator.Redelivery
import Rollout.Proofs.Plan.Order
import Rollout.Proofs.Simulation.Quiet
import Rollout.Proofs.Coordinator.Registry
import Rollout.Proofs.Coordinator.Isolation
import Rollout.Proofs.Store.Contract
import Rollout.Proofs.Store.Legible
import Rollout.Proofs.Simulation.Retrying
import Rollout.Proofs.Simulation.Passing
import Rollout.Proofs.Coordinator.Finding
import Rollout.Proofs.Simulation.Stages
import Rollout.Proofs.Simulation.Aborting
import Rollout.Proofs.Plan.Acceptance
import Rollout.Proofs.Json.Values
import Rollout.Proofs.Plan.Writing
import Rollout.Proofs.Text.Order
import Rollout.Proofs.Graph.Search
import Rollout.Proofs.Plan.Joins
import Rollout.Proofs.Json.RoundTrip
import Rollout.Proofs.Retry
import Rollout.Proofs.Store.Attributes
import Rollout.Proofs.Graph.Renderings
import Rollout.Proofs.CommandLine.Folder
import Rollout.Proofs.CommandLine.Failing
import Rollout.Proofs.CommandLine.Filing
import Rollout.Proofs.Workflow.Ledger
import Rollout.Proofs.Text.Segments
import Rollout.Proofs.Coordinator.Attempts
import Rollout.Proofs.Json.Words
import Rollout.Proofs.Json.Spelling
import Rollout.Proofs.Json.Spelled
import Rollout.Proofs.Decimal.Packing
import Rollout.Proofs.Decimal.Rounding
import Rollout.Proofs.Decimal.Exact
import Rollout.Proofs.Yaml.Portable
import Rollout.Proofs.Yaml.Doubles
import Rollout.Proofs.Yaml.Words
import Rollout.Proofs.Yaml.Flow
import Rollout.Proofs.Yaml.Tokens
import Rollout.Proofs.Yaml.Script
import Rollout.Proofs.Yaml.Nodes
import Rollout.Proofs.Plan.Formats
