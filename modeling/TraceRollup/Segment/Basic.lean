import TraceRollup.Json.Basic

/-!
# Trace segments

A segment is what one agent recorded of a trace within one process: a list of spans, with
names for the application, the agent instance, and the peer and operation of each span. A
name that has been resolved is replaced by its id; id 0 means that it has not.
-/

namespace TraceRollup

/-! ### Spans -/

/-- The part that a span plays: answering a call, making one, or neither. -/
inductive SpanKind
  | entry | exit | localWork
  deriving DecidableEq, Repr, Inhabited

def SpanKind.name : SpanKind → String
  | .entry => "entry"
  | .exit => "exit"
  | .localWork => "local"

def SpanKind.ofName? (s : String) : Option SpanKind :=
  [SpanKind.entry, .exit, .localWork].find? fun k => k.name == s

structure Span where
  spanId : Int32
  parent : Int32 := -1
  kind : SpanKind
  start : Int64
  stop : Int64
  operationName : String := ""
  operationId : Int32 := 0
  peer : String := ""
  peerId : Int32 := 0
  isError : Bool := false
  deriving DecidableEq, Inhabited

/-- A field that may be left out. -/
def Json.fieldOr {α : Type} (fallback : α) (read : Json → Option α) : Option Json → Option α
  | none => some fallback
  | some j => read j

namespace Span

/-- How long the span took, at least 0 milliseconds. There is none when the difference of its
times does not fit 64 bits. -/
def millis? (s : Span) : Option Int64 :=
  let d := s.stop.toInt - s.start.toInt
  if -9223372036854775808 ≤ d ∧ d ≤ 9223372036854775807 then some (Int64.ofInt (max d 0)) else none

def encode (s : Span) : Json :=
  .obj [
    ("end_time", .ofInt64 s.stop),
    ("is_error", .bool s.isError),
    ("operation_id", .ofInt32 s.operationId),
    ("operation_name", .str s.operationName),
    ("parent_span_id", .ofInt32 s.parent),
    ("peer", .str s.peer),
    ("peer_id", .ofInt32 s.peerId),
    ("span_id", .ofInt32 s.spanId),
    ("span_type", .str s.kind.name),
    ("start_time", .ofInt64 s.start)]

def fieldNames : List String :=
  ["span_id", "parent_span_id", "span_type", "start_time", "end_time", "operation_name", "operation_id", "peer",
    "peer_id", "is_error"]

def decode? (j : Json) : Option Span := do
  match ← j.record? fieldNames with
  | [spanId, parent, kind, start, stop, operationName, operationId, peer, peerId, isError] =>
    return {
      spanId := ← (← spanId).int32?
      parent := ← Json.fieldOr (-1) Json.int32? parent
      kind := ← SpanKind.ofName? (← (← kind).alternative?)
      start := ← (← start).int64?
      stop := ← (← stop).int64?
      operationName := ← Json.fieldOr "" Json.string? operationName
      operationId := ← Json.fieldOr 0 Json.int32? operationId
      peer := ← Json.fieldOr "" Json.string? peer
      peerId := ← Json.fieldOr 0 Json.int32? peerId
      isError := ← Json.fieldOr false Json.bool? isError }
  | _ => none

end Span

/-! ### Segments -/

structure Segment where
  traceSegmentId : String
  applicationCode : String
  applicationId : Int32 := 0
  instanceUuid : String
  instanceId : Int32 := 0
  spans : List Span := []
  deriving DecidableEq, Inhabited

namespace Segment

def encode (s : Segment) : Json :=
  .obj [
    ("application_code", .str s.applicationCode),
    ("application_id", .ofInt32 s.applicationId),
    ("instance_id", .ofInt32 s.instanceId),
    ("instance_uuid", .str s.instanceUuid),
    ("spans", .arr (s.spans.map Span.encode)),
    ("trace_segment_id", .str s.traceSegmentId)]

def fieldNames : List String :=
  ["trace_segment_id", "application_code", "application_id", "instance_uuid", "instance_id", "spans"]

def decode? (j : Json) : Option Segment := do
  match ← j.record? fieldNames with
  | [traceId, code, application, uuid, agent, spans] =>
    return {
      traceSegmentId := ← (← traceId).string?
      applicationCode := ← (← code).string?
      applicationId := ← Json.fieldOr 0 Json.int32? application
      instanceUuid := ← (← uuid).string?
      instanceId := ← Json.fieldOr 0 Json.int32? agent
      spans := ← Json.fieldOr [] (fun j => do (← j.list?).mapM Span.decode?) spans }
  | _ => none

end Segment
end TraceRollup
