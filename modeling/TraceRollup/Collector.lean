import TraceRollup.Cluster.Schedule
import TraceRollup.Intake
import TraceRollup.Store.Retention

/-!
# Collectors

A collector is one node with an intake of segments. The records of a segment go into three
pipelines, and a fourth takes the alarms that freshly stored statistics raise. Flushing,
retrying parked segments and purging old rows happen by themselves as time goes by.
-/

namespace TraceRollup

/-! ### Pipelines of a collector -/

namespace Collector

def callPipeline : PipelineId := ⟨1⟩
def servicePipeline : PipelineId := ⟨2⟩
def heartbeatPipeline : PipelineId := ⟨3⟩
def alarmPipeline : PipelineId := ⟨4⟩

/-- Records are totalled here, go to the node that owns them, and are stored there. -/
def layout : Layout := [.aggregate, .dispatch, .persist]

/-- Adds the pipelines to a node. Those of alarms come first, so alarms raised by a flush are
stored by the next one. -/
def buildPipelines (rules : Option AlarmRules) (n : Node) : Except BuildError Node := do
  let add (n : Node) (kind : RecordKind) (id : PipelineId) (feed : Option AlarmFeed) : Except BuildError Node :=
    match n.build kind id layout feed with
    | (.ok _, n) => .ok n
    | (.error e, _) => .error e
  let n ← add n .alarm alarmPipeline none
  let n ← add n .serviceStats servicePipeline (rules.map fun r => ⟨r, alarmPipeline⟩)
  let n ← add n .callSummary callPipeline none
  add n .heartbeat heartbeatPipeline none

/-- Adds the pipelines to a node, as `buildPipelines` does. None when their queues would be too
large. -/
def buildPipelines? (rules : Option AlarmRules) (n : Node) : ExceptT BuildError Option Node := do
  let add (n : Node) (kind : RecordKind) (id : PipelineId) (feed : Option AlarmFeed) : ExceptT BuildError Option Node := do
    match ← (n.build? kind id layout feed : Option (Except BuildError Unit × Node)) with
    | (.ok _, n) => return n
    | (.error e, _) => throw e
  let n ← add n .alarm alarmPipeline none
  let n ← add n .serviceStats servicePipeline (rules.map fun r => ⟨r, alarmPipeline⟩)
  let n ← add n .callSummary callPipeline none
  add n .heartbeat heartbeatPipeline none

/-- Rows are kept by the minute of their bucket; heartbeats by the day. -/
def sweepTargets : List SweepTarget := [
  ⟨CallSummary.tag, .minute⟩, ⟨ServiceStats.tag, .minute⟩, ⟨Alarm.tag, .minute⟩, ⟨Heartbeat.tag, .day⟩]

inductive Job
  | flush
  | retry
  | sweep (retention : Duration)
  deriving DecidableEq

end Collector

/-! ### Collectors -/

/-- A collector: a cluster of which it is the only node, and its intake. -/
structure Collector where
  cluster : Cluster
  intake : Intake
  /-- Nanoseconds on the clock by which the timers run. -/
  elapsed : Nat := 0
  timers : List (Timer × Collector.Job) := []
  running : Bool := true

namespace Collector

def node? (c : Collector) : Option Node := c.cluster.nodes.head?
def store (c : Collector) : Store := (c.node?.map (·.store)).getD .fresh
def counters (c : Collector) : Counters := (c.node?.map Node.counters).getD .fresh
def pending (c : Collector) : Nat := c.intake.pending

def modifyNode (c : Collector) (f : Node → Node) : Collector := { c with cluster := c.cluster.modifyNode 0 f }
def modifyStore (c : Collector) (f : Store → Store) : Collector := c.modifyNode fun n => { n with store := f n.store }

def settle (c : Collector) : Collector := { c with cluster := c.cluster.settle }

/-! ### Intake -/

def offer (c : Cluster) (r : SegmentRecords) : Cluster :=
  let c := (Cluster.submitAll 0 .callSummary callPipeline c r.calls).2
  let c := (Cluster.submitAll 0 .serviceStats servicePipeline c r.services).2
  (Cluster.submitAll 0 .heartbeat heartbeatPipeline c r.heartbeat.toList).2

/-- Lets the intake work, then offers the records that came of it. -/
def withIntake {β : Type} (c : Collector) (f : Intake.Session → Int64 → Option (β × Intake.Session)) :
    Option (β × Collector) := do
  let (answer, s) ← f { intake := c.intake, store := c.store, counters := c.counters } c.cluster.clock.millis
  let c := { c with intake := s.intake }.modifyNode fun n =>
    { n with store := s.store, shared := { n.shared with counters := s.counters } }
  return (answer, { c with cluster := s.offered.foldl offer c.cluster })

def ingest (c : Collector) (segment : Segment) : Option (IntakeOutcome × Collector) :=
  c.withIntake fun s now => s.ingest segment now

def ingestAll (c : Collector) (segments : List Segment) : Option (Nat × Collector) :=
  c.withIntake fun s now => s.ingestAll segments now

def retry (c : Collector) : Option (IntakeReport × Collector) := c.withIntake fun s now => s.retry now
def finish (c : Collector) : Option (IntakeReport × Collector) := c.withIntake fun s now => s.finish now

/-! ### Flushing and sweeping -/

/-- Flushes the ledgers; no report after a shutdown. -/
def flush (c : Collector) : Option (Option FlushReport × Collector) :=
  if c.running then do
    let (report, cluster) ← c.cluster.flush 0
    return (some report, { c with cluster })
  else some (none, c)

/-- Shuts the pipelines down, once. None also when the time by which they are to be down cannot be
told. -/
def shutDown (c : Collector) : Option (Option FlushReport × Collector) :=
  if c.running then do
    let _ ← (← c.node?).options.shutdownTimeout.deadline? c.elapsed
    let (report, cluster) ← c.cluster.shutDown 0
    return (some report, { c with cluster, running := false, timers := c.timers.filter fun t => t.2 ≠ .flush })
  else some (none, c)

/-- Purges the rows that are older than the retention period. -/
def sweepNow (c : Collector) (retention : Duration) : Collector :=
  c.modifyNode fun n =>
    let r := sweep c.cluster.clock retention sweepTargets n.store n.counters
    { n with store := r.store, shared := { n.shared with counters := r.counters } }

/-! ### Time -/

def startTimer (c : Collector) (interval : Duration) (job : Job) : Collector :=
  { c with timers := c.timers ++ [(⟨c.elapsed, interval⟩, job)] }

/-- Starts flushing by itself, unless it does so already. -/
def startFlushing (c : Collector) : Collector :=
  match c.node? with
  | none => c
  | some n =>
    if c.running ∧ c.timers.all fun t => t.2 ≠ .flush then c.startTimer n.options.flushInterval .flush else c

def stopTimers (c : Collector) (job : Job) : Collector := { c with timers := c.timers.filter fun t => t.2 ≠ job }

def perform (c : Collector) : Job → Option Collector
  | .flush => do return (← c.flush).2.settle
  | .retry => do return (← c.retry).2.settle
  | .sweep retention => some (c.sweepNow retention)

def advance (c : Collector) (d : Duration) : Option Collector := do
  let upTo := c.elapsed + d.nanos
  let s ← (Timer.dueJobs c.timers c.elapsed upTo).foldlM perform c
  return { s with elapsed := upTo, cluster := { s.cluster with clock := s.cluster.clock.add d } }

/-- A collector alone: all records are its own. -/
def sole (o : PipelineOptions) (rules : Option AlarmRules) (parked : ParkedQueue Segment) (hash : PointHash)
    (clock : Instant) : ExceptT BuildError Option Collector := do
  let n ← buildPipelines? rules (Node.sole o .fresh)
  return { cluster := { nodes := [n], hash, attached := [], clock }, intake := { parked } }

end Collector
end TraceRollup
