import TraceRollup.Rollup.Basic

/-!
# Heartbeats

The last sign of life of an agent instance on a day.
-/

namespace TraceRollup

structure Heartbeat where
  instanceId : Int32
  application : Int32
  bucket : TimeBucket
  time : Int64
  deriving DecidableEq, Inhabited

namespace Heartbeat

def id (m : Heartbeat) : String := toString m.bucket ++ "_" ++ toString m.instanceId.toInt

/-- The later time counts. -/
def merge (a b : Heartbeat) : Heartbeat := { a with time := max a.time b.time }

def tag : String := "instance_heartbeat"

def encode (m : Heartbeat) : Json :=
  .obj [
    ("application_id", .ofInt32 m.application),
    ("heartbeat_time", .ofInt64 m.time),
    ("instance_id", .ofInt32 m.instanceId),
    ("time_bucket", .ofUInt64 m.bucket.value)]

def decode? (j : Json) : Option Heartbeat := do
  match ← j.record? ["instance_id", "application_id", "time_bucket", "heartbeat_time"] with
  | [instanceId, application, bucket, time] =>
    return ⟨← (← instanceId).int32?, ← (← application).int32?, ⟨← (← bucket).uint64?⟩, ← (← time).int64?⟩
  | _ => none

instance : Rollup Heartbeat where
  tag := tag
  mode := .replace
  id := id
  bucket := bucket
  merge := merge
  since? now _ := some now
  encode := encode
  decode? := decode?

theorem decode?_encode (m : Heartbeat) : decode? m.encode = some m := by
  simp [decode?, encode, Json.record?, Json.valuesOf, Json.int64?_ofInt64, Json.int32?_ofInt32,
    Json.uint64?_ofUInt64]

end Heartbeat
end TraceRollup
