import TraceRollup.Rollup.Basic
import TraceRollup.Rollup.ServiceStats
import TraceRollup.Binary64.Text

/-!
# Alarms

An alarm says that a service crossed a threshold within a minute. `AlarmRules.evaluate`
raises them from the statistics of a service; of two alarms of one key the later one counts.
-/

namespace TraceRollup

/-! ### Alarms -/

inductive AlarmScope
  | application | service | agentInstance
  deriving DecidableEq, Repr, Inhabited

def AlarmScope.name : AlarmScope → String
  | .application => "application"
  | .service => "service"
  | .agentInstance => "instance"

def AlarmScope.ofName? (s : String) : Option AlarmScope :=
  [AlarmScope.application, .service, .agentInstance].find? fun x => x.name == s

inductive AlarmKind
  | errorRate | slowResponse
  deriving DecidableEq, Repr, Inhabited

def AlarmKind.name : AlarmKind → String
  | .errorRate => "error_rate"
  | .slowResponse => "slow_response"

def AlarmKind.ofName? (s : String) : Option AlarmKind :=
  [AlarmKind.errorRate, .slowResponse].find? fun x => x.name == s

/-- An alarm with the value that crossed the threshold and the time when it was last seen to. -/
structure Alarm where
  scope : AlarmScope
  source : Int32
  kind : AlarmKind
  bucket : TimeBucket
  lastTime : Int64
  value : Binary64
  content : String
  deriving DecidableEq, Inhabited

namespace Alarm

def id (a : Alarm) : String :=
  toString a.bucket ++ "_" ++ a.scope.name ++ "_" ++ toString a.source.toInt ++ "_" ++ a.kind.name

/-- The other alarm is to be preferred: it is later, or as late with a greater text. -/
def yieldsTo (a b : Alarm) : Bool :=
  decide (a.lastTime < b.lastTime) || (decide (a.lastTime = b.lastTime) && decide (a.content < b.content))

def merge (a b : Alarm) : Alarm :=
  if a.yieldsTo b then { a with lastTime := b.lastTime, value := b.value, content := b.content } else a

def tag : String := "alarm"

def encode (a : Alarm) : Json :=
  .obj [
    ("content", .str a.content),
    ("kind", .str a.kind.name),
    ("last_time", .ofInt64 a.lastTime),
    ("scope", .str a.scope.name),
    ("source_id", .ofInt32 a.source),
    ("time_bucket", .ofUInt64 a.bucket.value),
    ("value", .float a.value)]

def decode? (j : Json) : Option Alarm := do
  match ← j.record? ["scope", "source_id", "kind", "time_bucket", "last_time", "value", "content"] with
  | [scope, source, kind, bucket, lastTime, value, content] =>
    return {
      scope := ← AlarmScope.ofName? (← (← scope).alternative?)
      source := ← (← source).int32?
      kind := ← AlarmKind.ofName? (← (← kind).alternative?)
      bucket := ⟨← (← bucket).uint64?⟩
      lastTime := ← (← lastTime).int64?
      value := ← (← value).double?
      content := ← (← content).string? }
  | _ => none

instance : Rollup Alarm where
  tag := tag
  mode := .replace
  id := id
  bucket := bucket
  merge := merge
  since? now _ := some now
  encode := encode
  decode? := decode?

theorem decode?_encode (a : Alarm) : decode? a.encode = some a := by
  have scope : AlarmScope.ofName? a.scope.name = some a.scope := by cases a.scope <;> decide
  have kind : AlarmKind.ofName? a.kind.name = some a.kind := by cases a.kind <;> decide
  have fields : a.encode.record? ["scope", "source_id", "kind", "time_bucket", "last_time", "value", "content"] =
      some [some (.str a.scope.name), some (.ofInt32 a.source), some (.str a.kind.name),
        some (.ofUInt64 a.bucket.value), some (.ofInt64 a.lastTime), some (.float a.value),
        some (.str a.content)] := by rfl
  simp only [decode?, fields, ↓Json.some_bind, ↓Json.int64?_bind, ↓Json.int32?_bind, ↓Json.uint64?_bind,
    Json.alternative?, Json.double?, Json.string?, scope, kind]
  rfl

end Alarm

/-! ### Rules -/

/-- Thresholds for the statistics of a service. -/
structure AlarmRules where
  minCalls : Int64
  errorRateThreshold : Binary64
  latency : Duration
  deriving DecidableEq

namespace AlarmRules

/-- The latency threshold in milliseconds, at most the largest 64-bit number. -/
def latencyMillis (r : AlarmRules) : Int64 := Int64.ofIntClamp r.latency.wholeMillis

/-- The rules look at statistics with enough calls, and at least one. -/
def applies (r : AlarmRules) (m : ServiceStats) : Bool := !(decide (m.calls < r.minCalls) || decide (m.calls = 0))

def errorRateAlarm? (r : AlarmRules) (m : ServiceStats) (now : Int64) : Option Alarm :=
  if r.errorRateThreshold.le m.errorRate then
    some {
      scope := .service, source := m.service, kind := .errorRate, bucket := m.bucket, lastTime := now
      value := m.errorRate
      content := "service " ++ toString m.service.toInt ++ " error rate " ++ m.errorRate.fixed 2 ++
        " reached threshold " ++ r.errorRateThreshold.fixed 2 }
  else none

def slowAlarm? (r : AlarmRules) (m : ServiceStats) (average now : Int64) : Option Alarm :=
  if r.latencyMillis ≤ average then
    some {
      scope := .service, source := m.service, kind := .slowResponse, bucket := m.bucket, lastTime := now
      value := Binary64.ofInt average.toInt
      content := "service " ++ toString m.service.toInt ++ " average response " ++ toString average.toInt ++
        "ms reached threshold " ++ toString r.latencyMillis.toInt ++ "ms" }
  else none

/-- The alarms that the statistics raise at a time; none if their mean duration has no value. -/
def evaluate (r : AlarmRules) (m : ServiceStats) (now : Int64) : Option (List Alarm) :=
  if r.applies m then do
    let average ← m.average?
    return (r.errorRateAlarm? m now).toList ++ (r.slowAlarm? m average now).toList
  else some []

end AlarmRules
end TraceRollup
