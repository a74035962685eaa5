import TraceRollup.Rollup.CallSummary
import TraceRollup.Rollup.ServiceStats
import TraceRollup.Rollup.Heartbeat
import TraceRollup.Rollup.Alarm

/-!
# Kinds of record

The four kinds of record that pipelines carry, each with its type.
-/

namespace TraceRollup

inductive RecordKind
  | callSummary | serviceStats | heartbeat | alarm
  deriving DecidableEq, Repr, Inhabited

namespace RecordKind

@[reducible] def Carrier : RecordKind → Type
  | .callSummary => CallSummary
  | .serviceStats => ServiceStats
  | .heartbeat => Heartbeat
  | .alarm => Alarm

instance instRollup : (k : RecordKind) → Rollup k.Carrier
  | .callSummary => inferInstanceAs (Rollup CallSummary)
  | .serviceStats => inferInstanceAs (Rollup ServiceStats)
  | .heartbeat => inferInstanceAs (Rollup Heartbeat)
  | .alarm => inferInstanceAs (Rollup Alarm)

def tag (k : RecordKind) : String := Rollup.tag k.Carrier
def all : List RecordKind := [.callSummary, .serviceStats, .heartbeat, .alarm]

def ofTag? (s : String) : Option RecordKind := all.find? fun k => k.tag == s

theorem decode?_encode (k : RecordKind) (r : k.Carrier) : Rollup.decode? (Rollup.encode r) = some r := by
  cases k
  · exact CallSummary.decode?_encode r
  · exact ServiceStats.decode?_encode r
  · exact Heartbeat.decode?_encode r
  · exact Alarm.decode?_encode r

end RecordKind
end TraceRollup
