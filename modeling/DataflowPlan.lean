import DataflowPlan.Analysis
import DataflowPlan.Arena
import DataflowPlan.Arena.Construction
import DataflowPlan.Arena.Route
import DataflowPlan.Cluster.Config
import DataflowPlan.Cluster.Local
import DataflowPlan.Cluster.Service
import DataflowPlan.Cluster.Watched
import DataflowPlan.CommandLine
import DataflowPlan.CommandLine.Help
import DataflowPlan.Computation
import DataflowPlan.Computation.Kind
import DataflowPlan.Config
import DataflowPlan.Decimal.Plain
import DataflowPlan.Decimal.Reader
import DataflowPlan.Decimal.Shortest
import DataflowPlan.Digest
import DataflowPlan.Digest.Blake3
import DataflowPlan.Encoding.Cluster
import DataflowPlan.Encoding.Config
import DataflowPlan.Encoding.Graph
import DataflowPlan.Encoding.Manifest
import DataflowPlan.Encoding.Plan
import DataflowPlan.Encoding.Session
import DataflowPlan.Encoding.Set
import DataflowPlan.Encoding.Stage
import DataflowPlan.Error
import DataflowPlan.Graph
import DataflowPlan.Graph.Validation
import DataflowPlan.Identifier
import DataflowPlan.Job
import DataflowPlan.Json.Number
import DataflowPlan.Json.Printer
import DataflowPlan.Json.Reader
import DataflowPlan.Json.Record
import DataflowPlan.Json.Value
import DataflowPlan.Main
import DataflowPlan.Manifest
import DataflowPlan.Plan
import DataflowPlan.Plan.Explanation
import DataflowPlan.Record
import DataflowPlan.Scheduler
import DataflowPlan.Session
import DataflowPlan.SetId
import DataflowPlan.Simulation
import DataflowPlan.Stage
import DataflowPlan.Stage.Dispatch
import DataflowPlan.Stage.Draft
import DataflowPlan.Stage.Kind
import DataflowPlan.Statistics
import DataflowPlan.Table
import DataflowPlan.Text.Blank
import DataflowPlan.Text.Printable
import DataflowPlan.Text.Quoted
import DataflowPlan.Yaml.Decoding
import DataflowPlan.Yaml.Node
import DataflowPlan.Yaml.Record
import DataflowPlan.Yaml.Scalar.Block
import DataflowPlan.Yaml.Scalar.Plain
import DataflowPlan.Yaml.Scalar.Quoted
import DataflowPlan.Yaml.Source
import DataflowPlan.Yaml.Tag
import DataflowPlan.Yaml.Token
import DataflowPlan.Yaml.Value
import DataflowPlan.Proofs.Graph.Order
import DataflowPlan.Proofs.Graph.Valid
import DataflowPlan.Proofs.Arena.Node
import DataflowPlan.Proofs.Arena.Growth
import DataflowPlan.Proofs.Arena.Mirror
import DataflowPlan.Proofs.Analysis.Ending
import DataflowPlan.Proofs.Analysis.Pipeline
import DataflowPlan.Proofs.Analysis.Course
import DataflowPlan.Proofs.Analysis.Ledger
import DataflowPlan.Proofs.Session.Attempt
import DataflowPlan.Proofs.Session.Run
import DataflowPlan.Proofs.Session.Descent
import DataflowPlan.Proofs.Session.Completion
import DataflowPlan.Proofs.Session.LiveSources
import DataflowPlan.Proofs.Analysis.Alike
import DataflowPlan.Proofs.Session.Turns
import DataflowPlan.Proofs.Analysis.Failure
import DataflowPlan.Proofs.Session.Stalling
import DataflowPlan.Proofs.Graph.JoinTree
import DataflowPlan.Proofs.Analysis.Arrival
import DataflowPlan.Proofs.Session.Progress
import DataflowPlan.Proofs.Analysis.Visits
import DataflowPlan.Proofs.Analysis.Account
import DataflowPlan.Proofs.Analysis.Accounting
import DataflowPlan.Proofs.Session.OwnSets
import DataflowPlan.Proofs.Session.CompletePlan
import DataflowPlan.Proofs.Plan.Order
import DataflowPlan.Proofs.Analysis.StageOrder
import DataflowPlan.Proofs.Session.PlanOrder
import DataflowPlan.Proofs.Analysis.InPlace
import DataflowPlan.Proofs.Session.Rollback
import DataflowPlan.Proofs.Analysis.JoinStages
import DataflowPlan.Proofs.Analysis.Deposits
import DataflowPlan.Proofs.Session.JoinProtocol
import DataflowPlan.Proofs.Session.SetKeys
import DataflowPlan.Proofs.Session.Turnover
import DataflowPlan.Proofs.Cluster.Holdings
import DataflowPlan.Proofs.Session.Numbering
import DataflowPlan.Proofs.Scheduler.Rounds
import DataflowPlan.Proofs.Scheduler.Holdings
import DataflowPlan.Proofs.Scheduler.Lifecycle
import DataflowPlan.Proofs.Cluster.Executions
import DataflowPlan.Proofs.Cluster.Reports
import DataflowPlan.Proofs.Session.Drops
import DataflowPlan.Proofs.Scheduler.DispatchOrder
import DataflowPlan.Proofs.Scheduler.Ownership
import DataflowPlan.Proofs.Analysis.Costs
import DataflowPlan.Proofs.Session.Costs
import DataflowPlan.Proofs.Session.ScansOnly
import DataflowPlan.Proofs.Cluster.Sizes
import DataflowPlan.Proofs.Scheduler.Foresight
import DataflowPlan.Proofs.Analysis.Placements
import DataflowPlan.Proofs.Session.Places
import DataflowPlan.Proofs.Session.Redirections
import DataflowPlan.Proofs.Session.Sinks
import DataflowPlan.Proofs.Scheduler.Termination
import DataflowPlan.Proofs.Cluster.Recorded
import DataflowPlan.Proofs.Scheduler.Cleanup
import DataflowPlan.Proofs.Analysis.Supply
import DataflowPlan.Proofs.Session.Supply
import DataflowPlan.Proofs.Cluster.Storage
import DataflowPlan.Proofs.Scheduler.Supply
import DataflowPlan.Proofs.Analysis.Declarations
import DataflowPlan.Proofs.Session.Declarations
import DataflowPlan.Proofs.Analysis.Origins
import DataflowPlan.Proofs.Session.SetNames
import DataflowPlan.Proofs.Scheduler.Creation
import DataflowPlan.Proofs.Arena.Renumbering
import DataflowPlan.Proofs.Analysis.Renumbering
import DataflowPlan.Proofs.Table
import DataflowPlan.Proofs.Session.Renumbering
import DataflowPlan.Proofs.Json.Text
import DataflowPlan.Proofs.Json.RoundTrip
import DataflowPlan.Proofs.Json.Record
import DataflowPlan.Proofs.Encoding.Graph
import DataflowPlan.Proofs.Encoding.Stage
import DataflowPlan.Proofs.Encoding.Plan
import DataflowPlan.Proofs.Scheduler.PlanHash
import DataflowPlan.Proofs.Float
import DataflowPlan.Proofs.Analysis.Itinerary
import DataflowPlan.Proofs.Session.Itineraries
import DataflowPlan.Proofs.Analysis.Building
import DataflowPlan.Proofs.Session.Strategies
import DataflowPlan.Proofs.Analysis.Weighing
import DataflowPlan.Proofs.Session.Weighing
import DataflowPlan.Proofs.Analysis.Relay
import DataflowPlan.Proofs.Session.Relay
import DataflowPlan.Proofs.Analysis.HandOver
import DataflowPlan.Proofs.Session.HandOver
import DataflowPlan.Proofs.Session.Outputs
import DataflowPlan.Proofs.Float.Order
import DataflowPlan.Proofs.Float.Rounding
import DataflowPlan.Proofs.Float.Product
import DataflowPlan.Proofs.Session.BestSource
import DataflowPlan.Proofs.Graph.WellFormed
import DataflowPlan.Proofs.Plan.Contract
import DataflowPlan.Proofs.Arena.Reflection
import DataflowPlan.Proofs.Cluster.Seeding
import DataflowPlan.Proofs.Scheduler.FirstRound
import DataflowPlan.Proofs.Session.RoundRobin
