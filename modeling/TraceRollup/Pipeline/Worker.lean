import TraceRollup.Stage.Accumulator
import TraceRollup.Stage.Dispatcher
import TraceRollup.Stage.Ledger
import TraceRollup.StageQueue

/-!
# Stage workers

A worker reads the queue of one stage. It takes a batch, gives it to the stage, and then hands
on what the stage made of it piece by piece: messages to other nodes, then records to the next
stage. These are separate steps, so that other workers may act in between.
-/

namespace TraceRollup

/-! ### Surroundings -/

/-- What a step depends on and cannot change: the clock, where keys lie on the circle, and the
ways to other nodes. -/
structure Conditions where
  now : Instant
  hash : PointHash
  links : Links

/-- What the workers of a node share: the router and the counters. -/
structure Shared where
  router : Router
  counters : Counters
  deriving DecidableEq

namespace Shared

def count (sh : Shared) (s : Series) (n : Nat) : Shared := { sh with counters := sh.counters.add s n }
def gauge (sh : Shared) (s : Series) (n : Nat) : Shared := { sh with counters := sh.counters.put s n }

/-- Counts records dropped at a stage; a reason appears only when it has struck. -/
def countDropped (sh : Shared) (tag : String) (stage : StageId) (reason : String) (n : Nat) : Shared :=
  if n = 0 then sh else sh.count (.dropped tag stage.number.toNat reason) n

/-- Counts a refused record at the stage that refused it. -/
def countRefusal (sh : Shared) (tag : String) (stage : StageId) : Except Refusal Unit → Shared
  | .ok _ => sh
  | .error e => sh.countDropped tag stage e.reason 1

end Shared

/-! ### Stages -/

/-- What a stage keeps from batch to batch. -/
inductive StageState (α : Type)
  | aggregate (totals : Accumulator α)
  | dispatch (routing : Dispatcher)
  | persist (ledger : Ledger α)

/-- What a stage makes of a batch. -/
structure StageOutput (α : Type) where
  state : StageState α
  /-- Records for the next stage. -/
  forward : List (Snapshot α) := []
  /-- Messages for other nodes. -/
  parcels : List Parcel := []
  reason : String
  dropped : Nat

namespace StageState
variable {α : Type}

def kind : StageState α → StageKind
  | .aggregate _ => .aggregate
  | .dispatch _ => .dispatch
  | .persist _ => .persist

variable [Rollup α]

/-- Gives a batch to a stage. None when the stage never comes to an end with it. -/
def process (env : Conditions) (s : StageState α) (batch : List (Snapshot α)) (sh : Shared) :
    Option (StageOutput α) × Shared :=
  match s with
  | .aggregate totals =>
    let r := totals.acceptBatch batch env.now
    (some { state := .aggregate r.2, forward := r.1.snapshots, reason := "late", dropped := r.1.late }, sh)
  | .dispatch routing =>
    let a := sh.router.ring env.hash sh.counters
    match routing.route env.hash a.ring env.links batch a.counters with
    | none => (none, ⟨a.router, a.counters⟩)
    | some r =>
      (some { state := s, forward := r.kept, parcels := r.parcels, reason := "remote_unreachable",
              dropped := r.failed }, ⟨a.router, r.counters⟩)
  | .persist ledger =>
    let r := ledger.acceptBatch batch env.now
    (some { state := .persist r.2, reason := "late", dropped := r.1 }, sh)

theorem kind_process {env : Conditions} {s : StageState α} {batch : List (Snapshot α)} {sh : Shared}
    {out : StageOutput α} (h : (s.process env batch sh).1 = some out) : out.state.kind = s.kind := by
  cases s with
  | aggregate totals => simp only [process, Option.some.injEq] at h; subst h; rfl
  | persist ledger => simp only [process, Option.some.injEq] at h; subst h; rfl
  | dispatch routing =>
    simp only [process] at h
    split at h
    · cases h
    · simp only [Option.some.injEq] at h; subst h; rfl

end StageState

/-! ### Workers -/

/-- A stage with its queue and what its worker has in hand. -/
structure Worker (α : Type) where
  queue : StageQueue (Snapshot α)
  state : StageState α
  /-- Messages to be sent, each with the node that it is for. -/
  mail : List (String × WireMessage) := []
  /-- Records to be handed to the next stage. -/
  ready : List (Snapshot α) := []
  /-- The worker is waiting for a send that never ends. -/
  stuck : Bool := false

namespace Worker
variable {α : Type}

def batchLimit : Nat := 256

def stage (w : Worker α) : StageId := w.queue.stage

/-- The worker has handed on everything of its last batch. -/
def isIdle (w : Worker α) : Bool := w.mail.isEmpty && w.ready.isEmpty

def canBegin (w : Worker α) : Bool := !w.stuck && w.isIdle && !w.queue.isEmpty

/-- The messages of parcels, each with its node. -/
def mailOf (parcels : List Parcel) : List (String × WireMessage) :=
  parcels.flatMap fun p => p.messages.map fun m => (p.node, m)

def ledger? (w : Worker α) : Option (Ledger α) :=
  match w.state with
  | .persist l => some l
  | _ => none

variable [Rollup α]

/-- Shows the length of the worker's queue on its gauge. -/
def showLength (w : Worker α) (sh : Shared) : Shared :=
  sh.gauge (.queueLength (Rollup.tag α) w.stage.number.toNat) w.queue.length

/-- Takes a batch and gives it to the stage. What a last stage would pass on is discarded. -/
def begin (env : Conditions) (isLast : Bool) (w : Worker α) (sh : Shared) : Worker α × Shared :=
  if w.canBegin then
    let taken := w.queue.receiveMany batchLimit
    let sh := sh.count (.processed (Rollup.tag α) w.stage.number.toNat) taken.1.length
    match w.state.process env taken.1 sh with
    | (none, sh) => ({ w with queue := taken.2, stuck := true }, sh)
    | (some out, sh) =>
      let w := { w with
        queue := taken.2, state := out.state, mail := mailOf out.parcels
        ready := if isLast then [] else out.forward }
      (w, w.showLength (sh.countDropped (Rollup.tag α) w.stage out.reason out.dropped))
  else (w, sh)

end Worker
end TraceRollup
