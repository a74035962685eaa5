import TraceRollup.Refusal
import TraceRollup.Duration

/-!
# Stage queues

The queue in front of a stage holds a bounded number of items, first in, first out. A full
queue refuses an item, at once or after waiting for room, and counts the refusal. A closed
queue takes nothing more; what it holds can still be taken out, unless its reader is gone.
-/

namespace TraceRollup

inductive QueuePolicy
  | drop
  | block (timeout : Duration)
  deriving DecidableEq

/-- What has become of the reading side. -/
inductive ReaderState
  | reading | closed | gone
  deriving DecidableEq, Repr

structure StageQueue (α : Type) where
  stage : StageId
  capacity : Nat
  policy : QueuePolicy
  items : List α := []
  dropped : Nat := 0
  cancelled : Bool := false
  reader : ReaderState := .reading
  deriving DecidableEq

namespace StageQueue
variable {α : Type}

/-- An empty queue with room for at least one item. -/
def create (stage : StageId) (capacity : Nat) (policy : QueuePolicy) : StageQueue α :=
  { stage, capacity := max capacity 1, policy }

/-- The greatest capacity that a queue can have. -/
def maxCapacity : Nat := 2305843009213693951

/-- An empty queue, unless it would be too large. -/
def create? (stage : StageId) (capacity : Nat) (policy : QueuePolicy) : Option (StageQueue α) :=
  if max capacity 1 ≤ maxCapacity then some (create stage capacity policy) else none

def length (q : StageQueue α) : Nat := q.items.length
def isEmpty (q : StageQueue α) : Bool := q.items.isEmpty

/-- Nothing more is taken in. -/
def refusesAll (q : StageQueue α) : Bool := q.cancelled || decide (q.reader ≠ .reading)

def isFull (q : StageQueue α) : Bool := decide (q.capacity ≤ q.items.length)

/-! ### Sending -/

/-- Counts an item that found no room. -/
def saturate (q : StageQueue α) : Except Refusal Unit × StageQueue α :=
  (.error (.saturated q.stage), { q with dropped := q.dropped + 1 })

/-- Sends an item while nobody reads: waiting would not help. -/
def send (q : StageQueue α) (item : α) : Except Refusal Unit × StageQueue α :=
  if q.refusesAll then (.error .closed, q)
  else if q.isFull then q.saturate
  else (.ok (), { q with items := q.items ++ [item] })

def receive (q : StageQueue α) : Option α × StageQueue α :=
  match q.items with
  | [] => (none, q)
  | a :: rest => (some a, { q with items := rest })

/-- Takes out up to `n` of the oldest items. -/
def receiveMany (q : StageQueue α) (n : Nat) : List α × StageQueue α :=
  (q.items.take n, { q with items := q.items.drop n })

/-- The time that a sender waits for room. -/
def patience (q : StageQueue α) : Nat :=
  match q.policy with
  | .drop => 0
  | .block t => t.nanos

/-- Sends an item, and `delay` later takes one out: a sender that waits longer than that gets
the room. -/
def sendWhileReading (q : StageQueue α) (item : α) (delay : Duration) :
    Except Refusal Unit × Option α × StageQueue α :=
  if q.isFull ∧ q.refusesAll = false ∧ delay.nanos < q.patience then
    let r := q.receive
    (.ok (), r.1, { r.2 with items := r.2.items ++ [item] })
  else
    let s := q.send item
    let r := s.2.receive
    (s.1, r.1, r.2)

/-! ### Closing -/

def cancel (q : StageQueue α) : StageQueue α := { q with cancelled := true }

def closeReader (q : StageQueue α) : StageQueue α :=
  { q with reader := if q.reader = .gone then .gone else .closed }

/-- The items still queued are gone with the reader. -/
def dropReader (q : StageQueue α) : StageQueue α := { q with reader := .gone, items := [] }

/-! ### Laws -/

theorem items_send (q : StageQueue α) (item : α) :
    (q.send item).2.items = q.items ++ (if (q.send item).1.isOk then [item] else []) := by
  unfold send
  split
  · simp [Except.isOk, Except.toBool]
  · split <;> simp [saturate, Except.isOk, Except.toBool]

end StageQueue
end TraceRollup
