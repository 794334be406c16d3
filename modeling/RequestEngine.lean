import RequestEngine.Address
import RequestEngine.Answer
import RequestEngine.Balancing.Plan
import RequestEngine.Balancing.Policy
import RequestEngine.Cluster.Directory
import RequestEngine.Cluster.Node
import RequestEngine.Duration
import RequestEngine.Failure.Attempt
import RequestEngine.Failure.Database
import RequestEngine.Failure.Execution
import RequestEngine.HostId
import RequestEngine.Level
import RequestEngine.Observation.Collectors
import RequestEngine.Observation.Diagnostics
import RequestEngine.Observation.Histogram
import RequestEngine.Observation.History
import RequestEngine.Observation.History.Structured
import RequestEngine.Observation.Journal
import RequestEngine.Observation.Metrics
import RequestEngine.Observation.Notification
import RequestEngine.Observation.Observer
import RequestEngine.Observation.Recorder
import RequestEngine.Observation.Scene
import RequestEngine.Observation.Simultaneous
import RequestEngine.Observation.Tracer
import RequestEngine.Observation.Tracking
import RequestEngine.Profile
import RequestEngine.Proofs.Balancing.Confined
import RequestEngine.Proofs.Balancing.LocalFirst
import RequestEngine.Proofs.Balancing.Plan
import RequestEngine.Proofs.Balancing.Schedule
import RequestEngine.Proofs.Balancing.SingleTarget
import RequestEngine.Proofs.Cluster.Topology
import RequestEngine.Proofs.Cluster.Traffic
import RequestEngine.Proofs.Cluster.Update
import RequestEngine.Proofs.Execution.Turn
import RequestEngine.Proofs.Failure.WriteType
import RequestEngine.Proofs.Observation.Archive
import RequestEngine.Proofs.Observation.Arrangement
import RequestEngine.Proofs.Observation.Attribution
import RequestEngine.Proofs.Observation.Counting
import RequestEngine.Proofs.Observation.Delivery
import RequestEngine.Proofs.Observation.Guarding
import RequestEngine.Proofs.Observation.Independence
import RequestEngine.Proofs.Observation.Items
import RequestEngine.Proofs.Observation.Keys
import RequestEngine.Proofs.Observation.Latency
import RequestEngine.Proofs.Observation.Ledger
import RequestEngine.Proofs.Observation.Recount
import RequestEngine.Proofs.Observation.SpanLaw
import RequestEngine.Proofs.Observation.Spans
import RequestEngine.Proofs.Observation.Tracked
import RequestEngine.Proofs.Profile.Derivation
import RequestEngine.Proofs.Profile.Settings
import RequestEngine.Proofs.Profile.Workshop
import RequestEngine.Proofs.Request.Announcement
import RequestEngine.Proofs.Request.AtMostOnce
import RequestEngine.Proofs.Request.Chronicle
import RequestEngine.Proofs.Request.Endings
import RequestEngine.Proofs.Request.Exhaustion
import RequestEngine.Proofs.Request.Expiry
import RequestEngine.Proofs.Request.Hooks
import RequestEngine.Proofs.Request.Hosts
import RequestEngine.Proofs.Request.InFlight
import RequestEngine.Proofs.Request.Levels
import RequestEngine.Proofs.Request.Loans
import RequestEngine.Proofs.Request.Move
import RequestEngine.Proofs.Request.Order
import RequestEngine.Proofs.Request.Pacing
import RequestEngine.Proofs.Request.Plans
import RequestEngine.Proofs.Request.Progress
import RequestEngine.Proofs.Request.Protocol
import RequestEngine.Proofs.Request.Punctual
import RequestEngine.Proofs.Request.Reports
import RequestEngine.Proofs.Request.Resending
import RequestEngine.Proofs.Request.Resolution
import RequestEngine.Proofs.Request.Rest
import RequestEngine.Proofs.Request.Run
import RequestEngine.Proofs.Request.Sight
import RequestEngine.Proofs.Request.SingleTarget
import RequestEngine.Proofs.Request.Speculation
import RequestEngine.Proofs.Request.Timeout
import RequestEngine.Proofs.Request.Touched
import RequestEngine.Proofs.Request.Work
import RequestEngine.Proofs.Retry.Caution
import RequestEngine.Proofs.Retry.Comparison
import RequestEngine.Proofs.Retry.Lowering
import RequestEngine.Proofs.Retry.WriteTimeout
import RequestEngine.Proofs.Simulation.Activation
import RequestEngine.Proofs.Simulation.Balance
import RequestEngine.Proofs.Simulation.Company
import RequestEngine.Proofs.Simulation.Course
import RequestEngine.Proofs.Simulation.Informed
import RequestEngine.Proofs.Simulation.Isolation
import RequestEngine.Proofs.Simulation.Keeping
import RequestEngine.Proofs.Simulation.Lockstep
import RequestEngine.Proofs.Simulation.Recorded
import RequestEngine.Proofs.Simulation.Timely
import RequestEngine.Proofs.Simulation.Unaffected
import RequestEngine.Request.Action
import RequestEngine.Request.Execution
import RequestEngine.Request.Machine
import RequestEngine.Request.Report
import RequestEngine.Request.Settings
import RequestEngine.Response
import RequestEngine.Retry.Decision
import RequestEngine.Retry.Policy
import RequestEngine.Scenario.Callbacks
import RequestEngine.Scenario.Clusters
import RequestEngine.Scenario.HistoryView
import RequestEngine.Scenario.Plans
import RequestEngine.Scenario.Profiles
import RequestEngine.Scenario.Sessions
import RequestEngine.Scenario.Statements
import RequestEngine.Scenario.Steps
import RequestEngine.Scenario.Trackings
import RequestEngine.Simulation.Clock
import RequestEngine.Simulation.Configuration
import RequestEngine.Simulation.Observers
import RequestEngine.Simulation.Script
import RequestEngine.Simulation.World
import RequestEngine.Speculation
import RequestEngine.Statement
import RequestEngine.Text.CharClass
import RequestEngine.Text.Digits
import RequestEngine.Text.Quoted
import RequestEngine.Text.Shortest
