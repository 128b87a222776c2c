import MonitorOperator.Agenda
import MonitorOperator.Api
import MonitorOperator.Cache
import MonitorOperator.Child
import MonitorOperator.Child.Settings
import MonitorOperator.Cluster.Decode
import MonitorOperator.Cluster.Encode
import MonitorOperator.Cluster.Key
import MonitorOperator.Cluster.Metadata
import MonitorOperator.Cluster.Monitor
import MonitorOperator.Cluster.Object
import MonitorOperator.Cluster.Pod
import MonitorOperator.Config
import MonitorOperator.Config.Arguments
import MonitorOperator.Config.Setting
import MonitorOperator.Decimal.Magnitude
import MonitorOperator.Decimal.Real
import MonitorOperator.Decimal.Shortest
import MonitorOperator.Deployment
import MonitorOperator.Deployment.Launch
import MonitorOperator.Deployment.Live
import MonitorOperator.Deployment.Snapshot
import MonitorOperator.Duration
import MonitorOperator.Error
import MonitorOperator.Event
import MonitorOperator.Event.Recorder
import MonitorOperator.Health
import MonitorOperator.Intake
import MonitorOperator.Json.Basic
import MonitorOperator.Json.Decode
import MonitorOperator.Json.Outline
import MonitorOperator.Json.Writer
import MonitorOperator.Log
import MonitorOperator.Main
import MonitorOperator.Metrics
import MonitorOperator.Operator
import MonitorOperator.Pass
import MonitorOperator.Pass.Report
import MonitorOperator.Program
import MonitorOperator.Proofs.Cache.Replay
import MonitorOperator.Proofs.Child.Contract
import MonitorOperator.Proofs.Cluster.Key
import MonitorOperator.Proofs.Cluster.Omission
import MonitorOperator.Proofs.Cluster.RoundTrip
import MonitorOperator.Proofs.Config.Denotation
import MonitorOperator.Proofs.Config.Loading
import MonitorOperator.Proofs.Decimal.Reading
import MonitorOperator.Proofs.Decimal.Rounding
import MonitorOperator.Proofs.Decimal.Writing
import MonitorOperator.Proofs.Deployment.Convergence
import MonitorOperator.Proofs.Deployment.Reply
import MonitorOperator.Proofs.Deployment.Retry
import MonitorOperator.Proofs.Deployment.Scene
import MonitorOperator.Proofs.Event.Deduplication
import MonitorOperator.Proofs.Event.Suppression
import MonitorOperator.Proofs.Health.Probes
import MonitorOperator.Proofs.Intake.Cascade
import MonitorOperator.Proofs.Intake.Listing
import MonitorOperator.Proofs.Intake.Routing
import MonitorOperator.Proofs.Intake.Wakes
import MonitorOperator.Proofs.Json.Records
import MonitorOperator.Proofs.Json.Written
import MonitorOperator.Proofs.Pass.Account
import MonitorOperator.Proofs.Pass.Lookups
import MonitorOperator.Proofs.Pass.Scene
import MonitorOperator.Proofs.Pass.Transitions
import MonitorOperator.Proofs.Passes.Address
import MonitorOperator.Proofs.Passes.Careers
import MonitorOperator.Proofs.Passes.Footprint
import MonitorOperator.Proofs.Passes.Independence
import MonitorOperator.Proofs.Passes.Moves
import MonitorOperator.Proofs.Passes.Owners
import MonitorOperator.Proofs.Passes.Records
import MonitorOperator.Proofs.Queue.Closing
import MonitorOperator.Proofs.Queue.Coalescing
import MonitorOperator.Proofs.Queue.Deadlines
import MonitorOperator.Proofs.Queue.Delays
import MonitorOperator.Proofs.Queue.Due
import MonitorOperator.Proofs.Queue.Exclusion
import MonitorOperator.Proofs.Queue.Gate
import MonitorOperator.Proofs.Queue.Line
import MonitorOperator.Proofs.Queue.Lobby
import MonitorOperator.Proofs.Queue.Overtaking
import MonitorOperator.Proofs.Queue.Release
import MonitorOperator.Proofs.Queue.Signals
import MonitorOperator.Proofs.Queue.Spacing
import MonitorOperator.Proofs.Queue.Traffic
import MonitorOperator.Proofs.Service.Moves
import MonitorOperator.Proofs.Service.Startup
import MonitorOperator.Proofs.Store.Differences
import MonitorOperator.Proofs.Store.Feed
import MonitorOperator.Proofs.Store.History
import MonitorOperator.Proofs.Store.Incarnation
import MonitorOperator.Proofs.Store.Operation
import MonitorOperator.Proofs.Store.Ownership
import MonitorOperator.Proofs.Store.Refusal
import MonitorOperator.Proofs.Store.Retention
import MonitorOperator.Proofs.Store.Seeding
import MonitorOperator.Proofs.Store.Version
import MonitorOperator.Proofs.System.Alarms
import MonitorOperator.Proofs.System.Alone
import MonitorOperator.Proofs.System.Bookkeeping
import MonitorOperator.Proofs.System.Books
import MonitorOperator.Proofs.System.Downstream
import MonitorOperator.Proofs.System.Falls
import MonitorOperator.Proofs.System.Following
import MonitorOperator.Proofs.System.Ledger
import MonitorOperator.Proofs.System.Listing
import MonitorOperator.Proofs.System.Mirror
import MonitorOperator.Proofs.System.Moves
import MonitorOperator.Proofs.System.Sound
import MonitorOperator.Proofs.System.Upstream
import MonitorOperator.Proofs.System.WakeUp
import MonitorOperator.Proofs.Text.Integer
import MonitorOperator.Proofs.Text.Spelling
import MonitorOperator.Proofs.Transcript
import MonitorOperator.Proofs.Worker.Crew
import MonitorOperator.Proofs.Worker.Duty
import MonitorOperator.Proofs.Worker.Shutdown
import MonitorOperator.Queue.Backoff
import MonitorOperator.Queue.Desk
import MonitorOperator.Queue.Gate
import MonitorOperator.Queue.WorkQueue
import MonitorOperator.Seed
import MonitorOperator.Store
import MonitorOperator.Store.Drill
import MonitorOperator.Store.Feed
import MonitorOperator.Table
import MonitorOperator.Text.Blank
import MonitorOperator.Text.Integer
import MonitorOperator.Text.Quoted
import MonitorOperator.Text.Unprintable
import MonitorOperator.Worker
