import TraceRollup.Pipeline.Layout
import TraceRollup.Pipeline.Worker

/-!
# Pipelines

A pipeline is a chain of workers, each with its queue. Records enter at the first stage, or
from another node at any stage. Every operation here is one small step of one worker, or of
someone who sends a record to a queue; who acts next is decided elsewhere.
-/

namespace TraceRollup

/-- How the pipelines of a node are set up. -/
structure PipelineOptions where
  queueCapacity : Nat := 1024
  policy : QueuePolicy := .drop
  window : Duration := .ofSeconds 600
  flushInterval : Duration := .ofSeconds 3
  batchSize : Nat := 2000
  shutdownTimeout : Duration := .ofSeconds 10
  deriving DecidableEq

structure Pipeline (α : Type) where
  id : PipelineId
  workers : List (Worker α)

namespace Pipeline
variable {α : Type}

/-! ### Building -/

/-- The state in which a stage begins; a dispatch stage sends to the stage after it. -/
def initialState (o : PipelineOptions) (here : String) (id : PipelineId) (next : Option StageKind) :
    StageKind → StageState α
  | .aggregate => .aggregate { window := o.window }
  | .dispatch => .dispatch ⟨id, StageId.of id (next.getD .dispatch), here⟩
  | .persist => .persist (Ledger.create id o.window o.batchSize)

def createWorkers (o : PipelineOptions) (here : String) (id : PipelineId) : Layout → List (Worker α)
  | [] => []
  | k :: rest =>
    { queue := .create (StageId.of id k) o.queueCapacity o.policy, state := initialState o here id rest.head? k } ::
      createWorkers o here id rest

/-- A pipeline with empty queues, on the node `here`. -/
def create (o : PipelineOptions) (here : String) (id : PipelineId) (kinds : Layout) : Pipeline α :=
  ⟨id, createWorkers o here id kinds⟩

theorem stages_createWorkers (o : PipelineOptions) (here : String) (id : PipelineId) (kinds : Layout) :
    (createWorkers (α := α) o here id kinds).map Worker.stage = kinds.map (StageId.of id) := by
  induction kinds with
  | nil => rfl
  | cons k rest ih => simp [createWorkers, ih, Worker.stage, StageQueue.create]

/-! ### Queues -/

def entry? (p : Pipeline α) : Option (StageQueue (Snapshot α)) := p.workers.head?.map (·.queue)

def position? (p : Pipeline α) (stage : StageId) : Option Nat := p.workers.findIdx? fun w => w.stage = stage

def sendAt (p : Pipeline α) (i : Nat) (s : Snapshot α) : Except Refusal Unit × Pipeline α :=
  match p.workers[i]? with
  | none => (.error .closed, p)
  | some w =>
    let r := w.queue.send s
    (r.1, { p with workers := p.workers.set i { w with queue := r.2 } })

/-- No more records are taken at the stages of a kind; those queued are still worked on. -/
def cancel (kind : StageKind) (p : Pipeline α) : Pipeline α :=
  { p with workers := p.workers.map fun w =>
      if w.state.kind = kind then { w with queue := w.queue.cancel } else w }

/-- Gives up the workers of a kind that are stuck, and what is queued before them. -/
def abandonStuck (kind : StageKind) (p : Pipeline α) : Pipeline α :=
  { p with workers := p.workers.map fun w =>
      if w.state.kind = kind ∧ w.stuck then { w with queue := w.queue.dropReader } else w }

/-! ### The ledger -/

def ledger? (p : Pipeline α) : Option (Ledger α) := p.workers.findSome? Worker.ledger?

def withLedger (p : Pipeline α) (l : Ledger α) : Pipeline α :=
  { p with workers := p.workers.map fun w =>
      match w.state with
      | .persist _ => { w with state := .persist l }
      | _ => w }

/-! ### Steps -/

variable [Rollup α]

def begin (env : Conditions) (p : Pipeline α) (i : Nat) (sh : Shared) : Pipeline α × Shared :=
  match p.workers[i]? with
  | none => (p, sh)
  | some w =>
    let r := w.begin env (decide (p.workers.length ≤ i + 1)) sh
    ({ p with workers := p.workers.set i r.1 }, r.2)

/-- The worker at a position gives its next message out of hand. -/
def takeMail (p : Pipeline α) (i : Nat) : Option (String × WireMessage) × Pipeline α :=
  match p.workers[i]? with
  | none => (none, p)
  | some w => (w.mail.head?, { p with workers := p.workers.set i { w with mail := w.mail.tail } })

/-- The worker at a position hands its next record to the stage after it. -/
def handOn (p : Pipeline α) (i : Nat) (sh : Shared) : Pipeline α × Shared :=
  match p.workers[i]?, p.workers[i + 1]? with
  | some w, some next =>
    match w.ready with
    | [] => (p, sh)
    | s :: rest =>
      let r := next.queue.send s
      ({ p with workers := (p.workers.set i { w with ready := rest }).set (i + 1) { next with queue := r.2 } },
        w.showLength (sh.countRefusal (Rollup.tag α) next.stage r.1))
  | _, _ => (p, sh)

/-- Takes in a message from another node: its tag must be the one of this pipeline, its stage one
of the stages here, its record readable, and the queue has to take it. -/
def deliver (p : Pipeline α) (m : WireMessage) : Except Refusal Unit × Pipeline α :=
  if m.tag ≠ Rollup.tag α then (.error (.wrongTag p.id (Rollup.tag α) m.tag), p)
  else
    match p.position? m.stage with
    | none => (.error (.unknownStage p.id m.stage), p)
    | some i =>
      match (m.snapshot : Except Refusal (Snapshot α)) with
      | .error e => (.error e, p)
      | .ok s => p.sendAt i s

/-- Takes in a record at the first stage, with this node as its origin. -/
def submit (p : Pipeline α) (here : String) (record : α) (sh : Shared) :
    Except Refusal Unit × Pipeline α × Shared :=
  let sh := sh.count (.submitted (Rollup.tag α)) 1
  match p.workers.head? with
  | none => (.error .closed, p, sh)
  | some w =>
    let r := p.sendAt 0 ⟨here, record⟩
    (r.1, r.2, sh.countRefusal (Rollup.tag α) w.stage r.1)

end Pipeline
end TraceRollup
