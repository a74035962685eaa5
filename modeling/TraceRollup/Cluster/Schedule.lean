import TraceRollup.Cluster
import TraceRollup.Timer

/-!
# Running a cluster

One thread runs a whole cluster. Workers take their turns while nothing new comes in, and a
worker's turn ends when all that it made of a batch is handed on. Only a sender that is
willing to wait for room in a full queue lets the reader of that queue go first.
-/

namespace TraceRollup

namespace Worker
variable {α : Type}

/-- A sender would wait, and the worker would make room. -/
def letsWait (w : Worker α) : Bool :=
  w.queue.isFull && !w.queue.refusesAll && decide (0 < w.queue.patience) && !w.stuck

end Worker

namespace Cluster

/-! ### Turns -/

/-- Lets the reader of a full queue take its turn if senders wait for it. -/
def makeRoom (turn : Cluster → Place → Cluster) (c : Cluster) (p : Place) : Cluster :=
  if c.workerSatisfies Worker.letsWait p then turn c p else c

/-- Sends a worker's next message, when there is room for it. -/
def sendMailWaiting (turn : Cluster → Place → Cluster) (c : Cluster) (p : Place) : Cluster :=
  let c :=
    match (c.nextMail? p).bind fun m => c.placeOf? m.1 m.2 with
    | some q => c.makeRoom turn q
    | none => c
  c.sendMail p

/-- Hands on a worker's next record, when there is room for it. -/
def handOnWaiting (turn : Cluster → Place → Cluster) (c : Cluster) (p : Place) : Cluster :=
  (c.makeRoom turn { p with stage := p.stage + 1 }).handOn p

/-- A turn of a worker: a batch is taken, and all that comes of it is handed on. `depth` bounds
how many full queues in a row may have to be worked on first. -/
def turn : Nat → Cluster → Place → Cluster
  | 0, c, _ => c
  | depth + 1, c, p =>
    let c := c.begin p
    let c := (List.range (c.countAt (fun w => w.mail.length) p)).foldl (fun c _ => c.sendMailWaiting (turn depth) p) c
    (List.range (c.countAt (fun w => w.ready.length) p)).foldl (fun c _ => c.handOnWaiting (turn depth) p) c

/-- A record passes three stages at the most, so there are no more full queues in a row. -/
def maxDepth : Nat := 4

/-- Takes turns while there is a worker that can begin one; `fuel` bounds their number. -/
def settleWithin : Nat → Cluster → Cluster
  | 0, c => c
  | fuel + 1, c =>
    match c.places.find? (c.workerSatisfies Worker.canBegin) with
    | none => c
    | some p => settleWithin fuel (c.turn maxDepth p)

/-- Takes turns until nothing queued can move. Every turn takes a record one stage further, and
no record has more than three stages before it. -/
def settle (c : Cluster) : Cluster := settleWithin (3 * c.sumWorkers (fun w => w.queue.length)) c

/-! ### Senders from outside -/

def submit (c : Cluster) (k : Nat) (kind : RecordKind) (id : PipelineId) (record : kind.Carrier) :
    Except Refusal Unit × Cluster :=
  let c :=
    match (c.nodes[k]?).bind fun n => n.position? id with
    | some i => c.makeRoom (turn maxDepth) ⟨k, i, 0⟩
    | none => c
  c.submitNow k kind id record

def submitAll (k : Nat) (kind : RecordKind) (id : PipelineId) :
    Cluster → List kind.Carrier → List (Except Refusal Unit) × Cluster
  | c, [] => ([], c)
  | c, record :: rest =>
    let r := c.submit k kind id record
    let t := submitAll k kind id r.2 rest
    (r.1 :: t.1, t.2)

def deliver (c : Cluster) (k : Nat) (m : WireMessage) : Except Refusal Unit × Cluster :=
  let c :=
    match (c.nodes[k]?).bind fun n => c.placeOf? n.name m with
    | some p => c.makeRoom (turn maxDepth) p
    | none => c
  c.deliverNow k m

/-! ### Flushing and closing -/

/-- Flushes one ledger of a node and submits the alarms raised. -/
def flushStep (k : Nat) (r : FlushReport × Cluster) (i : Nat) : Option (FlushReport × Cluster) := do
  let (report, alarms, c) ← r.2.flushAt k i
  return (r.1.add report, alarms.foldl (fun c a => (c.submit k .alarm a.1 a.2).2) c)

/-- Flushes the ledgers of a node in the order of their pipelines. The clock has gone on since
the last flush. -/
def flush (c : Cluster) (k : Nat) : Option (FlushReport × Cluster) :=
  let c := { c with clock := c.clock.add (.ofMillis 1) }
  (List.range (((c.nodes[k]?).map fun n => n.pipelines.length).getD 0)).foldlM (flushStep k) ({}, c)

/-- Closes the stages of a kind, lets their workers finish and gives up those that cannot. -/
def closeStages (k : Nat) (c : Cluster) (kind : StageKind) : Cluster :=
  ((c.modifyNode k (Node.cancel kind)).settle).modifyNode k (Node.abandonStuck kind)

/-- Shuts a node down: its stages are closed from the first to the last, then what its ledgers
hold is flushed. -/
def shutDown (c : Cluster) (k : Nat) : Option (FlushReport × Cluster) :=
  flush (StageKind.closingOrder.foldl (closeStages k) c) k

end Cluster
end TraceRollup
