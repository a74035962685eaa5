import TraceRollup.Stage.Ledger
import TraceRollup.Rollup.Kind
import TraceRollup.Counters

/-!
# Flushing several ledgers

The ledgers of a node are flushed one after another. One that fails does not stop the rest;
it is counted as failed, and its rows do not count as flushed.
-/

namespace TraceRollup

/-- A ledger with the kind of its records. -/
structure AnyLedger where
  kind : RecordKind
  ledger : Ledger kind.Carrier

/-- Rows written and ledgers that failed in a round of flushes. -/
structure FlushReport where
  rows : Nat := 0
  failed : Nat := 0
  deriving DecidableEq, Inhabited

def FlushReport.add (r s : FlushReport) : FlushReport := ⟨r.rows + s.rows, r.failed + s.failed⟩

def Counters.countFlush (tag : String) (r : FlushReport) (c : Counters) : Counters :=
  if r.failed ≠ 0 then c.add (.flushErrors tag) r.failed
  else if r.rows ≠ 0 then c.add (.rowsFlushed tag) r.rows
  else c

namespace Ledger
variable {α : Type} [Rollup α]

structure Counted (α : Type) where
  report : FlushReport
  /-- The rows that a listener is told of: those of a flush without fault. -/
  told : List α
  ledger : Ledger α
  store : Store
  counters : Counters

/-- Flushes and counts. None when the arithmetic leaves its range. -/
def flushCounted (l : Ledger α) (store : Store) (now : Instant) (c : Counters) : Option (Counted α) :=
  let f := l.flush store now
  match f.fault with
  | some .overflow => none
  | some (.storage _) =>
    let report : FlushReport := ⟨0, 1⟩
    some ⟨report, [], f.ledger, f.store, c.countFlush (Rollup.tag α) report⟩
  | none =>
    let report : FlushReport := ⟨f.written.length, 0⟩
    some ⟨report, f.written, f.ledger, f.store, c.countFlush (Rollup.tag α) report⟩

end Ledger

/-- What a round of flushes leaves. `told` has the tag and the ids of the rows of each flush
that wrote some. -/
structure FlushRound where
  report : FlushReport
  told : List (String × List String)
  ledgers : List AnyLedger
  store : Store
  counters : Counters

def FlushRound.step (now : Instant) (r : FlushRound) (l : AnyLedger) : Option FlushRound := do
  let f ← l.ledger.flushCounted r.store now r.counters
  return {
    report := r.report.add f.report
    told := if f.told.isEmpty then r.told else r.told ++ [(l.kind.tag, f.told.map Rollup.id)]
    ledgers := r.ledgers ++ [⟨l.kind, f.ledger⟩]
    store := f.store
    counters := f.counters }

def flushAll (now : Instant) (ledgers : List AnyLedger) (store : Store) (c : Counters) : Option FlushRound :=
  ledgers.foldlM (FlushRound.step now) ⟨{}, [], [], store, c⟩

end TraceRollup
