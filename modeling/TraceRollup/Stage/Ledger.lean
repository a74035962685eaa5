import TraceRollup.WireMessage
import TraceRollup.Dict

/-!
# Folding totals into stored rows

The ledger buffers the latest snapshot of every origin and key. A flush folds what is
buffered into the stored rows, key by key in order and in chunks that are each read and
written by one call. Of an additive record only the growth since the last snapshot written
for the same origin (the baseline) is added, so each origin counts exactly once however
often its totals arrive. A replacing record overwrites the row.
-/

namespace TraceRollup

/-- A buffer key: the origin and the record's id. -/
abbrev OriginKey := String × String

structure Ledger (α : Type) where
  pipeline : PipelineId
  window : Duration
  batchSize : Nat
  buffer : Dict OriginKey α := Dict.empty
  /-- The last snapshot written per origin and key. -/
  baselines : Dict OriginKey α := Dict.empty

namespace Ledger
variable {α : Type} [Rollup α]

def create (pipeline : PipelineId) (window : Duration) (batchSize : Nat) : Ledger α :=
  { pipeline, window, batchSize := max batchSize 1 }

/-! ### Buffering -/

/-- Buffers a snapshot in place of the one before, unless it is late. -/
def accept (now : Instant) (l : Ledger α) (s : Snapshot α) : Ledger α :=
  if (Rollup.bucket s.record).isExpired now l.window then l
  else { l with buffer := l.buffer.set (s.origin, Rollup.id s.record) s.record }

/-- Buffers a batch and tells how many snapshots were late. -/
def acceptBatch (l : Ledger α) (batch : List (Snapshot α)) (now : Instant) : Nat × Ledger α :=
  (batch.countP fun s => (Rollup.bucket s.record).isExpired now l.window, batch.foldl (accept now) l)

def buffered? (l : Ledger α) (origin id : String) : Option α := l.buffer.get? (origin, id)

/-! ### Combining -/

abbrev Entry (α : Type) := OriginKey × α

/-- What a snapshot adds to its row: its growth since its baseline when it is additive, and all
of it otherwise. None if a growth does not fit its counter. -/
def contribution? (baselines : Dict OriginKey α) (e : Entry α) : Option α :=
  match Rollup.mode α with
  | .replace => some e.2
  | .additive =>
    match baselines.get? e.1 with
    | some base => Rollup.since? e.2 base
    | none => some e.2

/-- The contributions of all origins to one id, folded into one record. -/
def combine? (baselines : Dict OriginKey α) (entries : List (Entry α)) : Option (Option α) := do
  return Rollup.mergeAll (← entries.mapM (contribution? baselines))

/-- The new row of an id: folded into the stored one when that can be read. -/
def mergedRow (stored : Option Json) (value : α) : α :=
  match stored.bind Rollup.decode? with
  | some existing => Rollup.merge existing value
  | none => value

/-! ### Flushing -/

/-- How a flush ended. `overflow` is arithmetic beyond the numbers' range: the window has no
double, or a counter no growth. -/
inductive FlushFault
  | storage (e : StoreError)
  | overflow
  deriving DecidableEq

/-- What writing leaves: the rows written, the baselines, the store, and the fault that ended it
early. -/
structure Writing (α : Type) where
  written : List α
  baselines : Dict OriginKey α
  store : Store
  fault : Option FlushFault

/-- The ids of a list of entries, in order and without repetitions. -/
def sortedIds (entries : List (Entry α)) : List String :=
  let rec insert (id : String) : List String → List String
    | [] => [id]
    | j :: rest => if id < j then id :: j :: rest else if id = j then j :: rest else j :: insert id rest
  entries.foldl (fun ids e => insert e.1.2 ids) []

def entriesOf (entries : List (Entry α)) (id : String) : List (Entry α) := entries.filter fun e => e.1.2 = id

/-- Consecutive chunks of a list (`fuel` bounds their number). -/
def chunks {β : Type} (size : Nat) : Nat → List β → List (List β)
  | 0, _ => []
  | fuel + 1, xs => if xs.isEmpty then [] else xs.take size :: chunks size fuel (xs.drop size)

/-- The rows that a chunk of ids writes. -/
def rowsOf? (entries : List (Entry α)) (baselines : Dict OriginKey α) (stored : List (String × Json))
    (ids : List String) : Option (List (String × α)) :=
  ids.mapM fun id => do
    let value ← (← combine? baselines (entriesOf entries id))
    return (id, mergedRow (stored.lookup id) value)

/-- Reads the stored rows of a chunk; replacing records need none. -/
def readChunk (store : Store) (ids : List String) : Except StoreError (List (String × Json)) × Store :=
  match Rollup.mode α with
  | .additive => store.getMany (Rollup.tag α) ids
  | .replace => (.ok [], store)

/-- The baselines after a chunk was written. -/
def advance (entries : List (Entry α)) (ids : List String) (baselines : Dict OriginKey α) : Dict OriginKey α :=
  match Rollup.mode α with
  | .additive => (entries.filter fun e => decide (e.1.2 ∈ ids)).foldl (fun b e => b.set e.1 e.2) baselines
  | .replace => baselines

/-- Writes one chunk of ids, unless an earlier one ended the writing. -/
def writeChunk (entries : List (Entry α)) (w : Writing α) (ids : List String) : Writing α :=
  match w.fault with
  | some _ => w
  | none =>
    match readChunk (α := α) w.store ids with
    | (.error e, store) => { w with store, fault := some (.storage e) }
    | (.ok stored, store) =>
      match rowsOf? entries w.baselines stored ids with
      | none => { w with store, fault := some .overflow }
      | some rows =>
        match store.upsert (Rollup.tag α) (rows.map fun r => (r.1, Rollup.encode r.2)) with
        | (.error e, store) => { w with store, fault := some (.storage e) }
        | (.ok _, store) =>
          { written := w.written ++ rows.map Prod.snd, baselines := advance entries ids w.baselines, store,
            fault := none }

/-- Writes entries chunk by chunk, in order of their ids. -/
def write (batchSize : Nat) (entries : List (Entry α)) (baselines : Dict OriginKey α) (store : Store) : Writing α :=
  let ids := sortedIds entries
  (chunks batchSize ids.length ids).foldl (writeChunk entries) ⟨[], baselines, store, none⟩

/-- Baselines are kept, and buffered snapshots written, for twice the window. -/
def retention? (l : Ledger α) : Option Duration := l.window.double?

/-- What a flush leaves: the rows written or the fault that ended it, the ledger, the store. -/
structure Flush (α : Type) where
  written : List α
  fault : Option FlushFault
  ledger : Ledger α
  store : Store

/-- The baselines that are kept after a writing. One that arithmetic ended does not come to drop any. -/
def Writing.keep (w : Writing α) (live : α → Bool) : Dict OriginKey α :=
  match w.fault with
  | some .overflow => w.baselines
  | some (.storage _) | none => w.baselines.filter fun _ base => live base

/-- Empties the buffer into the store. On a fault the snapshots not yet written are lost; the
baselines of those that were stay. -/
def flush (l : Ledger α) (store : Store) (now : Instant) : Flush α :=
  match l.retention? with
  | none => ⟨[], some .overflow, l, store⟩
  | some retention =>
    let live (a : α) : Bool := !(Rollup.bucket a).isExpired now retention
    let w := write l.batchSize (l.buffer.toList.filter fun e => live e.2) l.baselines store
    { written := w.written, fault := w.fault, store := w.store
      ledger := { l with buffer := Dict.empty, baselines := w.keep live } }

end Ledger
end TraceRollup
