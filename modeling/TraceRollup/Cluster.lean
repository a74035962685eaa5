import TraceRollup.Node

/-!
# Clusters

A cluster is a list of nodes that can send each other messages. All that happens in it is made
of small steps: a record is submitted, a worker takes a batch, a worker sends its next message
or hands on its next record, a ledger is flushed. `Cluster.Schedule` puts the steps in order.
-/

namespace TraceRollup

/-- Where a worker stands: the node, the pipeline in the node and the stage in the pipeline. -/
structure Place where
  node : Nat
  pipeline : Nat
  stage : Nat
  deriving DecidableEq

structure Cluster where
  nodes : List Node
  hash : PointHash
  /-- The nodes that can be reached. -/
  attached : List String
  stalled : Bool := false
  clock : Instant

namespace Cluster

/-! ### Ways and places -/

def links (c : Cluster) : Links := fun node =>
  if c.stalled then .stalled
  else if node ∈ c.attached then .up
  else .down "not attached"

def conditions (c : Cluster) : Conditions := ⟨c.clock, c.hash, c.links⟩

def attach (c : Cluster) (node : String) : Cluster := { c with attached := c.attached ++ [node] }
def detach (c : Cluster) (node : String) : Cluster := { c with attached := c.attached.filter (· ≠ node) }

def nodeIndex? (c : Cluster) (name : String) : Option Nat := c.nodes.findIdx? fun n => n.name = name

def placeOf? (c : Cluster) (name : String) (m : WireMessage) : Option Place := do
  let k ← c.nodeIndex? name
  let n ← c.nodes[k]?
  let i ← n.position? m.pipeline
  let a ← n.pipelines[i]?
  return ⟨k, i, ← a.pipeline.position? m.stage⟩

/-- Whether the worker at a place, if there is one, satisfies a condition. -/
def workerSatisfies (c : Cluster) (f : {α : Type} → Worker α → Bool) (p : Place) : Bool :=
  match c.nodes[p.node]? with
  | none => false
  | some n =>
    match n.pipelines[p.pipeline]? with
    | none => false
    | some a =>
      match a.pipeline.workers[p.stage]? with
      | none => false
      | some w => f w

def sumWorkers (c : Cluster) (f : {α : Type} → Worker α → Nat) : Nat :=
  c.nodes.foldr (fun n t =>
    n.pipelines.foldr (fun a t => a.pipeline.workers.foldr (fun w t => f w + t) t) t) 0

def countAt (c : Cluster) (f : {α : Type} → Worker α → Nat) (p : Place) : Nat :=
  match c.nodes[p.node]? with
  | none => 0
  | some n =>
    match n.pipelines[p.pipeline]? with
    | none => 0
    | some a => ((a.pipeline.workers[p.stage]?).map f).getD 0

def places (c : Cluster) : List Place :=
  c.nodes.zipIdx.flatMap fun (n, k) =>
    n.pipelines.zipIdx.flatMap fun (a, i) => (List.range a.pipeline.workers.length).map fun j => ⟨k, i, j⟩

/-! ### Steps -/

def modifyNode (c : Cluster) (k : Nat) (f : Node → Node) : Cluster := { c with nodes := c.nodes.modify k f }

def submitNow (c : Cluster) (k : Nat) (kind : RecordKind) (id : PipelineId) (record : kind.Carrier) :
    Except Refusal Unit × Cluster :=
  match c.nodes[k]? with
  | none => (.error .closed, c)
  | some n =>
    let r := n.submit kind id record
    (r.1, { c with nodes := c.nodes.set k r.2 })

def deliverNow (c : Cluster) (k : Nat) (m : WireMessage) : Except Refusal Unit × Cluster :=
  match c.nodes[k]? with
  | none => (.error .closed, c)
  | some n =>
    let r := n.deliver m
    (r.1, { c with nodes := c.nodes.set k r.2 })

def begin (c : Cluster) (p : Place) : Cluster := c.modifyNode p.node fun n => n.begin c.conditions p.pipeline p.stage

def nextMail? (c : Cluster) (p : Place) : Option (String × WireMessage) := do
  ((← c.nodes[p.node]?).takeMail p.pipeline p.stage).1

/-- A worker sends its next message, which arrives at once. -/
def sendMail (c : Cluster) (p : Place) : Cluster :=
  match c.nodes[p.node]? with
  | none => c
  | some n =>
    let r := n.takeMail p.pipeline p.stage
    let c := { c with nodes := c.nodes.set p.node r.2 }
    match r.1 with
    | none => c
    | some (name, m) =>
      match c.nodeIndex? name with
      | none => c
      | some k => (c.deliverNow k m).2

def handOn (c : Cluster) (p : Place) : Cluster := c.modifyNode p.node fun n => n.handOn p.pipeline p.stage

/-- A ledger is flushed; the alarms raised are still to be submitted. -/
def flushAt (c : Cluster) (k i : Nat) : Option (FlushReport × List (PipelineId × Alarm) × Cluster) :=
  match c.nodes[k]? with
  | none => some ({}, [], c)
  | some n => do
    let f ← n.flushAt c.clock i
    return (f.report, f.alarms, { c with nodes := c.nodes.set k f.node })

end Cluster
end TraceRollup
