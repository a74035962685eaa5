import TraceRollup.Binary64
import TraceRollup.Binary64.Text
import TraceRollup.Calendar
import TraceRollup.Cluster
import TraceRollup.Cluster.Schedule
import TraceRollup.Cluster.Timeline
import TraceRollup.Collector
import TraceRollup.CommandLine
import TraceRollup.Config
import TraceRollup.Counters
import TraceRollup.Dict
import TraceRollup.Digest.Sha256
import TraceRollup.Duration
import TraceRollup.Duration.Text
import TraceRollup.HashRing
import TraceRollup.Http.Client
import TraceRollup.Http.Endpoint
import TraceRollup.Http.Server
import TraceRollup.Http.Status
import TraceRollup.Http.Url
import TraceRollup.Inbox
import TraceRollup.Intake
import TraceRollup.Json.Basic
import TraceRollup.Json.Number
import TraceRollup.Json.Reader
import TraceRollup.Json.Writer
import TraceRollup.LogFilter
import TraceRollup.Main
import TraceRollup.NameRegistry
import TraceRollup.Ndjson
import TraceRollup.Node
import TraceRollup.ParkedQueue
import TraceRollup.Pipeline
import TraceRollup.Pipeline.Layout
import TraceRollup.Pipeline.Worker
import TraceRollup.Proofs.Account
import TraceRollup.Proofs.Accounting
import TraceRollup.Proofs.Aggregation
import TraceRollup.Proofs.AggregationFirst
import TraceRollup.Proofs.AlarmDelivery
import TraceRollup.Proofs.AnyOrder
import TraceRollup.Proofs.Attempts
import TraceRollup.Proofs.Books
import TraceRollup.Proofs.BucketStart
import TraceRollup.Proofs.Building
import TraceRollup.Proofs.Calls
import TraceRollup.Proofs.ChangingMembership
import TraceRollup.Proofs.Chunks
import TraceRollup.Proofs.ClusterCounts
import TraceRollup.Proofs.ClusterRun
import TraceRollup.Proofs.Conservation
import TraceRollup.Proofs.Consistency
import TraceRollup.Proofs.Decoding
import TraceRollup.Proofs.Delivery
import TraceRollup.Proofs.DirectSites
import TraceRollup.Proofs.Docket
import TraceRollup.Proofs.Draining
import TraceRollup.Proofs.ExactlyOnce
import TraceRollup.Proofs.Expiry
import TraceRollup.Proofs.FixedMembership
import TraceRollup.Proofs.FlowCounters
import TraceRollup.Proofs.FlushIsolation
import TraceRollup.Proofs.FlushOrder
import TraceRollup.Proofs.FlushReports
import TraceRollup.Proofs.Holding
import TraceRollup.Proofs.JsonText
import TraceRollup.Proofs.Keys
import TraceRollup.Proofs.Lateness
import TraceRollup.Proofs.LatestHeartbeat
import TraceRollup.Proofs.Losses
import TraceRollup.Proofs.MessageCounts
import TraceRollup.Proofs.Moves
import TraceRollup.Proofs.NodeRun
import TraceRollup.Proofs.NothingLost
import TraceRollup.Proofs.Orderly
import TraceRollup.Proofs.Outward
import TraceRollup.Proofs.Overflow
import TraceRollup.Proofs.OwnerShares
import TraceRollup.Proofs.Ranges
import TraceRollup.Proofs.Registration
import TraceRollup.Proofs.Regrowth
import TraceRollup.Proofs.Remembered
import TraceRollup.Proofs.Replacing
import TraceRollup.Proofs.Resolution
import TraceRollup.Proofs.Ring
import TraceRollup.Proofs.Routing
import TraceRollup.Proofs.RunningTotals
import TraceRollup.Proofs.Schedule
import TraceRollup.Proofs.SharedQueue
import TraceRollup.Proofs.Shutdown
import TraceRollup.Proofs.Site
import TraceRollup.Proofs.SlowTraces
import TraceRollup.Proofs.SoundClusters
import TraceRollup.Proofs.SoundCollectors
import TraceRollup.Proofs.SoundNodes
import TraceRollup.Proofs.SoundStations
import TraceRollup.Proofs.Standing
import TraceRollup.Proofs.Statistics
import TraceRollup.Proofs.StoredTotals
import TraceRollup.Proofs.Subjects
import TraceRollup.Proofs.Sweeping
import TraceRollup.Proofs.Traffic
import TraceRollup.Proofs.Turns
import TraceRollup.Proofs.Unsigned
import TraceRollup.Proofs.WireText
import TraceRollup.Proofs.Writes
import TraceRollup.Refusal
import TraceRollup.Rollup.Alarm
import TraceRollup.Rollup.Basic
import TraceRollup.Rollup.CallSummary
import TraceRollup.Rollup.Heartbeat
import TraceRollup.Rollup.Kind
import TraceRollup.Rollup.ServiceStats
import TraceRollup.Segment.Basic
import TraceRollup.Segment.Names
import TraceRollup.Segment.Records
import TraceRollup.Service
import TraceRollup.Stage.Accumulator
import TraceRollup.Stage.Dispatcher
import TraceRollup.Stage.Flushing
import TraceRollup.Stage.Ledger
import TraceRollup.StageQueue
import TraceRollup.Store
import TraceRollup.Store.Basic
import TraceRollup.Store.Outage
import TraceRollup.Store.Retention
import TraceRollup.Text.Quoted
import TraceRollup.Text.Unprintable
import TraceRollup.Text.Utf8
import TraceRollup.TimeBucket
import TraceRollup.Timer
import TraceRollup.WireMessage
import TraceRollup.Yaml
import TraceRollup.Yaml.Token
