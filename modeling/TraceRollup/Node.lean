import TraceRollup.Pipeline
import TraceRollup.Stage.Flushing

/-!
# Nodes

A node runs pipelines side by side over one store, one router and one set of counters. Each
pipeline has a number of its own, under which other nodes reach it. Statistics that were just
stored may raise alarms, which go to a pipeline of their own.
-/

namespace TraceRollup

/-! ### Pipelines of any kind -/

/-- Where alarms go that are raised on stored statistics. -/
structure AlarmFeed where
  rules : AlarmRules
  target : PipelineId

structure AnyPipeline where
  kind : RecordKind
  pipeline : Pipeline kind.Carrier
  feed : Option AlarmFeed := none

/-- Only statistics of services are judged by the alarm rules. -/
def RecordKind.statistics? : (k : RecordKind) → k.Carrier → Option ServiceStats
  | .serviceStats, m => some m
  | .callSummary, _ | .heartbeat, _ | .alarm, _ => none

namespace AnyPipeline

def id (a : AnyPipeline) : PipelineId := a.pipeline.id

/-- The alarms that stored rows raise, with the pipeline that they go to; none if a mean
duration has no value. -/
def raise? (a : AnyPipeline) (now : Instant) (rows : List a.kind.Carrier) : Option (List (PipelineId × Alarm)) :=
  match a.feed with
  | none => some []
  | some feed => do
    let alarms ← (rows.filterMap a.kind.statistics?).mapM fun m => feed.rules.evaluate m now.millis
    return alarms.flatten.map fun alarm => (feed.target, alarm)

end AnyPipeline

/-! ### Nodes -/

structure Node where
  name : String
  options : PipelineOptions
  store : Store
  shared : Shared
  /-- In order of building. -/
  pipelines : List AnyPipeline := []

namespace Node

def counters (n : Node) : Counters := n.shared.counters

/-- The name of a node that is alone. -/
def soleName : String := "local"

/-- A node that owns all records. The size of its cluster of one is not reported. -/
def sole (options : PipelineOptions) (store : Store) : Node :=
  { name := soleName, options, store
    shared := ⟨{ members := ⟨[soleName], 0⟩, virtualNodes := 1, reports := false }, .fresh⟩ }

def position? (n : Node) (id : PipelineId) : Option Nat := n.pipelines.findIdx? fun a => a.id = id
def contains (n : Node) (id : PipelineId) : Bool := (n.position? id).isSome

def find? (n : Node) (id : PipelineId) : Option AnyPipeline := n.pipelines.find? fun a => a.id = id

/-- The pipeline with a number, if it carries records of that kind. -/
def pipeline? (n : Node) (k : RecordKind) (id : PipelineId) : Option (Pipeline k.Carrier) := do
  let a ← n.find? id
  if h : a.kind = k then some (h ▸ a.pipeline) else none

/-! ### Building -/

/-- Adds a pipeline, if its layout is sound and its number is free. -/
def build (n : Node) (kind : RecordKind) (id : PipelineId) (kinds : Layout) (feed : Option AlarmFeed) :
    Except BuildError Unit × Node :=
  match checkLayout id kinds with
  | .error e => (.error e, n)
  | .ok _ =>
    if n.contains id then (.error (.duplicatePipeline id), n)
    else
      (.ok (), { n with pipelines := n.pipelines ++ [⟨kind, Pipeline.create n.options n.name id kinds, feed⟩] })

/-- Adds a pipeline, or tells why not. None when its queues would be too large. -/
def build? (n : Node) (kind : RecordKind) (id : PipelineId) (kinds : Layout) (feed : Option AlarmFeed) :
    Option (Except BuildError Unit × Node) := do
  if let .ok _ := checkLayout id kinds then
    let _ ← kinds.mapM fun k =>
      (StageQueue.create? (StageId.of id k) n.options.queueCapacity n.options.policy :
        Option (StageQueue (Snapshot kind.Carrier)))
  return n.build kind id kinds feed

/-! ### Records from outside -/

def submit (n : Node) (kind : RecordKind) (id : PipelineId) (record : kind.Carrier) :
    Except Refusal Unit × Node :=
  match n.position? id with
  | none => (.error (.unknownPipeline id), n)
  | some i =>
    match n.pipelines[i]? with
    | none => (.error (.unknownPipeline id), n)
    | some a =>
      if h : kind = a.kind then
        let r := a.pipeline.submit n.name (h ▸ record) n.shared
        (r.1, { n with pipelines := n.pipelines.set i { a with pipeline := r.2.1 }, shared := r.2.2 })
      else (.error (.wrongTag id a.kind.tag kind.tag), n)

/-- Takes in a message from another node. Its outcome is counted once the pipeline is known. -/
def deliver (n : Node) (m : WireMessage) : Except Refusal Unit × Node :=
  match n.position? m.pipeline with
  | none => (.error (.unknownPipeline m.pipeline), n)
  | some i =>
    match n.pipelines[i]? with
    | none => (.error (.unknownPipeline m.pipeline), n)
    | some a =>
      let r := a.pipeline.deliver m
      (r.1, { n with
        pipelines := n.pipelines.set i { a with pipeline := r.2 }
        shared := n.shared.count (.wireMessages (if r.1.isOk then "received" else "rejected")) 1 })

/-- The members of the cluster as this node knows them. -/
def updateMembers (n : Node) (nodes : List String) : Node :=
  { n with shared := { n.shared with router := n.shared.router.update nodes } }

/-! ### Steps of the workers -/

/-- Worker `j` of pipeline `i` takes a batch. -/
def begin (env : Conditions) (n : Node) (i j : Nat) : Node :=
  match n.pipelines[i]? with
  | none => n
  | some a =>
    let r := a.pipeline.begin env j n.shared
    { n with pipelines := n.pipelines.set i { a with pipeline := r.1 }, shared := r.2 }

/-- Worker `j` of pipeline `i` gives its next message out of hand. -/
def takeMail (n : Node) (i j : Nat) : Option (String × WireMessage) × Node :=
  match n.pipelines[i]? with
  | none => (none, n)
  | some a =>
    let r := a.pipeline.takeMail j
    (r.1, { n with pipelines := n.pipelines.set i { a with pipeline := r.2 } })

/-- Worker `j` of pipeline `i` hands on its next record. -/
def handOn (n : Node) (i j : Nat) : Node :=
  match n.pipelines[i]? with
  | none => n
  | some a =>
    let r := a.pipeline.handOn j n.shared
    { n with pipelines := n.pipelines.set i { a with pipeline := r.1 }, shared := r.2 }

/-! ### Flushing and closing -/

structure Flushed where
  report : FlushReport
  /-- The alarms raised, each with the pipeline that it goes to. -/
  alarms : List (PipelineId × Alarm)
  node : Node

def countAlarms (alarms : List (PipelineId × Alarm)) (c : Counters) : Counters :=
  alarms.foldl (fun c a => c.add (.alarmsRaised a.2.kind.name) 1) c

/-- Flushes the ledger of pipeline `i`, if there is one, and raises alarms on the rows written.
None when the arithmetic leaves its range. -/
def flushAt (now : Instant) (n : Node) (i : Nat) : Option Flushed :=
  match n.pipelines[i]? with
  | none => some ⟨{}, [], n⟩
  | some a =>
    match a.pipeline.ledger? with
    | none => some ⟨{}, [], n⟩
    | some l => do
      let f ← l.flushCounted n.store now n.counters
      let alarms ← a.raise? now f.told
      return ⟨f.report, alarms, { n with
        store := f.store
        shared := { n.shared with counters := countAlarms alarms f.counters }
        pipelines := n.pipelines.set i { a with pipeline := a.pipeline.withLedger f.ledger } }⟩

def mapPipelines (f : {α : Type} → Pipeline α → Pipeline α) (n : Node) : Node :=
  { n with pipelines := n.pipelines.map fun a => { a with pipeline := f a.pipeline } }

/-- Closes the stages of a kind to further records. -/
def cancel (kind : StageKind) (n : Node) : Node := n.mapPipelines (Pipeline.cancel kind)

/-- Gives up the stuck workers of a kind. -/
def abandonStuck (kind : StageKind) (n : Node) : Node := n.mapPipelines (Pipeline.abandonStuck kind)

end Node
end TraceRollup
