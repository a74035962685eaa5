import TraceRollup.Store
import TraceRollup.Counters
import TraceRollup.TimeBucket

/-!
# Retention

A sweep deletes, table by table, the rows whose bucket is older than the retention period. A
table that cannot be purged is passed over.
-/

namespace TraceRollup

/-- A table with the granularity of its buckets. -/
structure SweepTarget where
  table : String
  granularity : Granularity
  deriving DecidableEq

/-- What a sweep leaves: the number of rows deleted, the store and the counters. -/
structure SweepResult where
  deleted : Nat
  store : Store
  counters : Counters

def sweepTable (now : Instant) (retention : Duration) (r : SweepResult) (t : SweepTarget) : SweepResult :=
  match r.store.deleteExpired t.table (TimeBucket.cutoff now retention t.granularity).value with
  | (.ok n, store) => ⟨r.deleted + n, store, r.counters.add (.rowsExpired t.table) n⟩
  | (.error _, store) => { r with store }

def sweep (now : Instant) (retention : Duration) (targets : List SweepTarget) (store : Store)
    (counters : Counters) : SweepResult :=
  targets.foldl (sweepTable now retention) ⟨0, store, counters⟩

end TraceRollup
