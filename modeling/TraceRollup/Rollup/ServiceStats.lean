import TraceRollup.Rollup.Basic

/-!
# Statistics of a service

The calls that a service answered within a minute: how many, how many failed, how long they
took, and the traces of the slowest ones. `topTraces` keeps one entry per trace and the five
slowest of them, so merging does not depend on the order in which traces come in.
-/

namespace TraceRollup

/-! ### Slow traces -/

structure SlowTrace where
  millis : Int64
  traceId : String
  deriving DecidableEq, Inhabited

namespace SlowTrace

def kept : Nat := 5

/-- Slower traces come first; the trace id breaks ties. -/
def before (a b : SlowTrace) : Bool :=
  decide (b.millis < a.millis) || (decide (a.millis = b.millis) && decide (a.traceId ≤ b.traceId))

/-- Adds a trace to a list with one entry per trace, which keeps the longer duration. -/
def keepLongest (t : SlowTrace) : List SlowTrace → List SlowTrace
  | [] => [t]
  | s :: rest =>
    if s.traceId = t.traceId then { s with millis := max s.millis t.millis } :: rest
    else s :: keepLongest t rest

/-- One entry per trace, with its longest duration. -/
def longest (ts : List SlowTrace) : List SlowTrace := ts.foldl (fun acc t => keepLongest t acc) []

/-- The slowest traces in order, one entry per trace. -/
def topTraces (ts : List SlowTrace) : List SlowTrace := ((longest ts).mergeSort before).take kept

theorem length_topTraces (ts : List SlowTrace) : (topTraces ts).length ≤ kept := by
  rw [topTraces, List.length_take]
  exact Nat.min_le_left _ _

def encode (t : SlowTrace) : Json := .obj [("duration_ms", .ofInt64 t.millis), ("trace_id", .str t.traceId)]

def decode? (j : Json) : Option SlowTrace := do
  match ← j.record? ["duration_ms", "trace_id"] with
  | [millis, traceId] => return ⟨← (← millis).int64?, ← (← traceId).string?⟩
  | _ => none

theorem decode?_encode (t : SlowTrace) : decode? t.encode = some t := by
  simp [decode?, encode, Json.record?, Json.valuesOf, Json.int64?_ofInt64, Json.string?]

end SlowTrace

/-! ### Statistics -/

/-- The calls that a service of an application answered in a bucket. -/
structure ServiceStats where
  service : Int32
  application : Int32
  bucket : TimeBucket
  calls : Int64
  errorCalls : Int64
  durationSum : Int64
  minDuration : Int64
  maxDuration : Int64
  slowTraces : List SlowTrace
  deriving DecidableEq, Inhabited

namespace ServiceStats

/-- The statistics of one call. A negative duration counts as none. -/
def ofCall (service application : Int32) (bucket : TimeBucket) (millis : Int64) (isError : Bool)
    (traceId : String) : ServiceStats :=
  let d := max millis 0
  { service, application, bucket
    calls := 1
    errorCalls := if isError then 1 else 0
    durationSum := d
    minDuration := d
    maxDuration := d
    slowTraces := [⟨d, traceId⟩] }

def id (m : ServiceStats) : String := toString m.bucket ++ "_" ++ toString m.service.toInt

/-- The mean duration, rounded towards zero; 0 without calls. There is none in the one case
where the quotient does not fit 64 bits. -/
def average? (m : ServiceStats) : Option Int64 :=
  if m.calls = 0 then some 0
  else
    let q := m.durationSum.toInt.tdiv m.calls.toInt
    if q ≤ 9223372036854775807 then some (Int64.ofInt q) else none

/-- The share of calls that failed; 0 without calls. -/
def errorRate (m : ServiceStats) : Binary64 :=
  if m.calls = 0 then Binary64.zero false
  else (Binary64.ofInt m.errorCalls.toInt).div (Binary64.ofInt m.calls.toInt)

/-- The least duration of two records: a record without calls has none of its own. -/
def mergeMin (a b : ServiceStats) : Int64 :=
  if a.calls = 0 then b.minDuration
  else if 0 < b.calls then min a.minDuration b.minDuration
  else a.minDuration

/-- Adds up the counters and keeps the extremes and the slowest traces. -/
def merge (a b : ServiceStats) : ServiceStats :=
  { a with
    calls := Counter.add a.calls b.calls
    errorCalls := Counter.add a.errorCalls b.errorCalls
    durationSum := Counter.add a.durationSum b.durationSum
    minDuration := mergeMin a b
    maxDuration := max a.maxDuration b.maxDuration
    slowTraces := SlowTrace.topTraces (a.slowTraces ++ b.slowTraces) }

/-- The counters' advance since an earlier total, compared in order. Extremes and slow traces
are kept whole, for merging them once more changes nothing. -/
def advance (now base : ServiceStats) : Except Counter.Stop ServiceStats := do
  let calls ← Counter.advance now.calls base.calls
  let errorCalls ← Counter.advance now.errorCalls base.errorCalls
  let durationSum ← Counter.advance now.durationSum base.durationSum
  return { now with calls, errorCalls, durationSum }

def since? (now base : ServiceStats) : Option ServiceStats :=
  match advance now base with
  | .ok d => some d
  | .error .restarted => some now
  | .error .overflow => none

def tag : String := "service_metric"

def encode (m : ServiceStats) : Json :=
  .obj [
    ("application_id", .ofInt32 m.application),
    ("calls", .ofInt64 m.calls),
    ("duration_sum", .ofInt64 m.durationSum),
    ("error_calls", .ofInt64 m.errorCalls),
    ("max_duration", .ofInt64 m.maxDuration),
    ("min_duration", .ofInt64 m.minDuration),
    ("service_id", .ofInt32 m.service),
    ("slow_traces", .arr (m.slowTraces.map SlowTrace.encode)),
    ("time_bucket", .ofUInt64 m.bucket.value)]

def fieldNames : List String :=
  ["service_id", "application_id", "time_bucket", "calls", "error_calls", "duration_sum", "min_duration",
    "max_duration", "slow_traces"]

def decode? (j : Json) : Option ServiceStats := do
  match ← j.record? fieldNames with
  | [service, application, bucket, calls, errors, sum, least, most, traces] =>
    return {
      service := ← (← service).int32?
      application := ← (← application).int32?
      bucket := ⟨← (← bucket).uint64?⟩
      calls := ← (← calls).int64?
      errorCalls := ← (← errors).int64?
      durationSum := ← (← sum).int64?
      minDuration := ← (← least).int64?
      maxDuration := ← (← most).int64?
      slowTraces := ← (← (← traces).list?).mapM SlowTrace.decode? }
  | _ => none

instance : Rollup ServiceStats where
  tag := tag
  mode := .additive
  id := id
  bucket := bucket
  merge := merge
  since? := since?
  encode := encode
  decode? := decode?

theorem decode?_encode (m : ServiceStats) : decode? m.encode = some m := by
  have traces : ∀ ts : List SlowTrace, (ts.map SlowTrace.encode).mapM SlowTrace.decode? = some ts := by
    intro ts
    induction ts with
    | nil => rfl
    | cons t rest ih => simp [List.mapM_cons, SlowTrace.decode?_encode, ih]
  have fields : m.encode.record? fieldNames = some [some (.ofInt32 m.service), some (.ofInt32 m.application),
      some (.ofUInt64 m.bucket.value), some (.ofInt64 m.calls), some (.ofInt64 m.errorCalls),
      some (.ofInt64 m.durationSum), some (.ofInt64 m.minDuration), some (.ofInt64 m.maxDuration),
      some (.arr (m.slowTraces.map SlowTrace.encode))] := by rfl
  simp only [decode?, fields, ↓Json.some_bind, ↓Json.int64?_bind, ↓Json.int32?_bind, ↓Json.uint64?_bind,
    Json.list?, traces]
  rfl

end ServiceStats
end TraceRollup
