import TraceRollup.WireMessage
import TraceRollup.Dict

/-!
# Running totals

The accumulator keeps a running total per key and answers every record with the new total of
its key. A record whose bucket has left the window is late and not taken. Totals that have
left the window are evicted from time to time, which nobody can tell: no record for them can
be taken any more.
-/

namespace TraceRollup

structure Accumulator (α : Type) where
  window : Duration
  totals : Dict String α := Dict.empty
  lastEviction : Instant := Instant.epoch

/-- What a batch of records comes to: the total after each record taken, and the number of late
ones. -/
structure Accumulated (α : Type) where
  snapshots : List (Snapshot α)
  late : Nat

namespace Accumulator
variable {α : Type} [Rollup α]

/-- Time between two evictions. -/
def evictEvery : Nat := 30000000000

def isLate (a : Accumulator α) (now : Instant) (record : α) : Bool :=
  (Rollup.bucket record).isExpired now a.window

/-- Takes a record: the new total of its key; none if the record is late. -/
def accept (a : Accumulator α) (record : α) (now : Instant) : Option α × Accumulator α :=
  if a.isLate now record then (none, a)
  else
    let total :=
      match a.totals.get? (Rollup.id record) with
      | some t => Rollup.merge t record
      | none => record
    (some total, { a with totals := a.totals.set (Rollup.id record) total })

/-- Forgets the totals that have left the window. -/
def evict (a : Accumulator α) (now : Instant) : Accumulator α :=
  { a with totals := a.totals.filter fun _ t => !a.isLate now t }

/-- An eviction is due after the set time, and also when the clock went back. -/
def evictionDue (a : Accumulator α) (now : Instant) : Bool :=
  match now.since? a.lastEviction with
  | some elapsed => decide (evictEvery ≤ elapsed)
  | none => true

def evictIfDue (a : Accumulator α) (now : Instant) : Accumulator α :=
  if a.evictionDue now then { a.evict now with lastEviction := now } else a

def acceptAll (now : Instant) : Accumulator α → List (Snapshot α) → Accumulated α × Accumulator α
  | a, [] => (⟨[], 0⟩, a)
  | a, s :: rest =>
    let r := a.accept s.record now
    let t := acceptAll now r.2 rest
    match r.1 with
    | some total => (⟨⟨s.origin, total⟩ :: t.1.snapshots, t.1.late⟩, t.2)
    | none => (⟨t.1.snapshots, t.1.late + 1⟩, t.2)

/-- Takes a batch, after an eviction if one is due. Every total keeps the origin of its
record. -/
def acceptBatch (a : Accumulator α) (batch : List (Snapshot α)) (now : Instant) :
    Accumulated α × Accumulator α :=
  acceptAll now (a.evictIfDue now) batch

theorem length_acceptAll (now : Instant) (a : Accumulator α) (batch : List (Snapshot α)) :
    (acceptAll now a batch).1.snapshots.length + (acceptAll now a batch).1.late = batch.length := by
  induction batch generalizing a with
  | nil => rfl
  | cons s rest ih =>
    have := ih (a.accept s.record now).2
    simp only [acceptAll]
    cases h : (a.accept s.record now).1 <;> simp only [List.length_cons] <;> omega

end Accumulator
end TraceRollup
