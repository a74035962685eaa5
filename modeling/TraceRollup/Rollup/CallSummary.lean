import TraceRollup.Rollup.Basic

/-!
# Calls between two applications

A call summary counts the calls from one application to another within a minute, by how
long they took: up to one second, three, five, or longer.
-/

namespace TraceRollup

/-- The calls of the front application that the one behind it answered. -/
structure CallSummary where
  front : Int32
  behind : Int32
  bucket : TimeBucket
  withinOne : Int64
  withinThree : Int64
  withinFive : Int64
  slower : Int64
  errors : Int64
  calls : Int64
  costSum : Int64
  deriving DecidableEq, Inhabited

namespace CallSummary

/-- The summary of one call. A negative duration costs nothing. -/
def ofCall (front behind : Int32) (bucket : TimeBucket) (millis : Int64) (isError : Bool) : CallSummary :=
  let band (inside : Bool) : Int64 := if inside then 1 else 0
  { front, behind, bucket
    withinOne := band (millis ≤ 1000)
    withinThree := band (1000 < millis ∧ millis ≤ 3000)
    withinFive := band (3000 < millis ∧ millis ≤ 5000)
    slower := band (5000 < millis)
    errors := if isError then 1 else 0
    calls := 1
    costSum := max millis 0 }

def id (m : CallSummary) : String := toString m.bucket ++ "_" ++ toString m.front.toInt ++ "_" ++ toString m.behind.toInt

def merge (a b : CallSummary) : CallSummary :=
  { a with
    withinOne := Counter.add a.withinOne b.withinOne
    withinThree := Counter.add a.withinThree b.withinThree
    withinFive := Counter.add a.withinFive b.withinFive
    slower := Counter.add a.slower b.slower
    errors := Counter.add a.errors b.errors
    calls := Counter.add a.calls b.calls
    costSum := Counter.add a.costSum b.costSum }

/-- Every counter's advance since an earlier total, the counters being compared in order. -/
def advance (now base : CallSummary) : Except Counter.Stop CallSummary := do
  let withinOne ← Counter.advance now.withinOne base.withinOne
  let withinThree ← Counter.advance now.withinThree base.withinThree
  let withinFive ← Counter.advance now.withinFive base.withinFive
  let slower ← Counter.advance now.slower base.slower
  let errors ← Counter.advance now.errors base.errors
  let calls ← Counter.advance now.calls base.calls
  let costSum ← Counter.advance now.costSum base.costSum
  return { now with withinOne, withinThree, withinFive, slower, errors, calls, costSum }

def since? (now base : CallSummary) : Option CallSummary :=
  match advance now base with
  | .ok d => some d
  | .error .restarted => some now
  | .error .overflow => none

def tag : String := "node_reference_metric"

def encode (m : CallSummary) : Json :=
  .obj [
    ("behind_application_id", .ofInt32 m.behind),
    ("cost_sum", .ofInt64 m.costSum),
    ("error", .ofInt64 m.errors),
    ("front_application_id", .ofInt32 m.front),
    ("s1_lte", .ofInt64 m.withinOne),
    ("s3_lte", .ofInt64 m.withinThree),
    ("s5_gt", .ofInt64 m.slower),
    ("s5_lte", .ofInt64 m.withinFive),
    ("summary", .ofInt64 m.calls),
    ("time_bucket", .ofUInt64 m.bucket.value)]

def fieldNames : List String :=
  ["front_application_id", "behind_application_id", "time_bucket", "s1_lte", "s3_lte", "s5_lte", "s5_gt",
    "error", "summary", "cost_sum"]

def decode? (j : Json) : Option CallSummary := do
  match ← j.record? fieldNames with
  | [front, behind, bucket, one, three, five, slower, errors, calls, costSum] =>
    return {
      front := ← (← front).int32?
      behind := ← (← behind).int32?
      bucket := ⟨← (← bucket).uint64?⟩
      withinOne := ← (← one).int64?
      withinThree := ← (← three).int64?
      withinFive := ← (← five).int64?
      slower := ← (← slower).int64?
      errors := ← (← errors).int64?
      calls := ← (← calls).int64?
      costSum := ← (← costSum).int64? }
  | _ => none

instance : Rollup CallSummary where
  tag := tag
  mode := .additive
  id := id
  bucket := bucket
  merge := merge
  since? := since?
  encode := encode
  decode? := decode?

theorem decode?_encode (m : CallSummary) : decode? m.encode = some m := by
  have fields : m.encode.record? fieldNames = some [some (.ofInt32 m.front), some (.ofInt32 m.behind),
      some (.ofUInt64 m.bucket.value), some (.ofInt64 m.withinOne), some (.ofInt64 m.withinThree),
      some (.ofInt64 m.withinFive), some (.ofInt64 m.slower), some (.ofInt64 m.errors),
      some (.ofInt64 m.calls), some (.ofInt64 m.costSum)] := by rfl
  simp only [decode?, fields, ↓Json.some_bind, ↓Json.int64?_bind, ↓Json.int32?_bind, ↓Json.uint64?_bind]
  rfl

end CallSummary
end TraceRollup
