import TraceRollup.Segment.Basic
import TraceRollup.Rollup.CallSummary
import TraceRollup.Rollup.ServiceStats
import TraceRollup.Rollup.Heartbeat

/-!
# Records of a segment

A resolved segment yields a call summary for each exit span with a known peer, statistics for
each entry span with a known operation, both for the minute in which the span starts, and a
heartbeat of its instance for the day of the latest end of a span.
-/

namespace TraceRollup

structure SegmentRecords where
  calls : List CallSummary := []
  services : List ServiceStats := []
  heartbeat : Option Heartbeat := none
  deriving DecidableEq, Inhabited

namespace Segment

def minuteOf (s : Span) : TimeBucket := TimeBucket.ofMillis s.start .minute

/-- The call summary of an exit span, wrapped twice: none for other spans, and no value when
its duration has none. -/
def callOf (s : Segment) (span : Span) : Option (Option CallSummary) :=
  if span.kind = .exit ∧ span.peerId ≠ 0 then do
    let millis ← span.millis?
    return some (CallSummary.ofCall s.applicationId span.peerId (minuteOf span) millis span.isError)
  else some none

/-- The statistics of an entry span, likewise. -/
def serviceOf (s : Segment) (span : Span) : Option (Option ServiceStats) :=
  if span.kind = .entry ∧ span.operationId ≠ 0 then do
    let millis ← span.millis?
    return some
      (ServiceStats.ofCall span.operationId s.applicationId (minuteOf span) millis span.isError s.traceSegmentId)
  else some none

/-- The latest end of a span; `now` without spans. -/
def lastSeen (s : Segment) (now : Int64) : Int64 :=
  match s.spans with
  | [] => now
  | first :: rest => rest.foldl (fun t span => max t span.stop) first.stop

def heartbeatOf (s : Segment) (now : Int64) : Option Heartbeat :=
  if s.instanceId = 0 then none
  else
    let time := s.lastSeen now
    some ⟨s.instanceId, s.applicationId, TimeBucket.ofMillis time .day, time⟩

/-- All records of a segment; none when a duration that is needed has no value. -/
def records? (s : Segment) (now : Int64) : Option SegmentRecords := do
  let calls ← s.spans.mapM s.callOf
  let services ← s.spans.mapM s.serviceOf
  return ⟨calls.filterMap (fun c => c), services.filterMap (fun c => c), s.heartbeatOf now⟩

end Segment
end TraceRollup
