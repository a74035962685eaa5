import TraceRollup.Dict

/-!
# Counters

What a node counts while it works. Each kind of event has its own series, told apart by
labels; a series appears once it was touched, even by 0, except for the two without labels,
which always do. Records are labelled by their tag and by the number of the stage.
-/

namespace TraceRollup

inductive Series
  | submitted (tag : String)
  | processed (tag : String) (stage : Nat)
  | dropped (tag : String) (stage : Nat) (reason : String)
  | queueLength (tag : String) (stage : Nat)
  | wireMessages (outcome : String)
  | segmentsReceived
  | nameOutcomes (outcome : String)
  | rowsFlushed (tag : String)
  | flushErrors (tag : String)
  | rowsExpired (table : String)
  | clusterNodes
  | alarmsRaised (kind : String)
  deriving DecidableEq

namespace Series

def name : Series → String
  | .submitted _ => "records_submitted_total"
  | .processed _ _ => "records_processed_total"
  | .dropped _ _ _ => "records_dropped_total"
  | .queueLength _ _ => "stage_queue_length"
  | .wireMessages _ => "remote_messages_total"
  | .segmentsReceived => "segments_received_total"
  | .nameOutcomes _ => "exchange_outcomes_total"
  | .rowsFlushed _ => "rows_flushed_total"
  | .flushErrors _ => "flush_errors_total"
  | .rowsExpired _ => "ttl_rows_deleted_total"
  | .clusterNodes => "cluster_nodes"
  | .alarmsRaised _ => "alarms_raised_total"

/-- The labels with their values, in order of label name. -/
def labels : Series → List (String × String)
  | .submitted t | .rowsFlushed t | .flushErrors t => [("graph", t)]
  | .processed t s | .queueLength t s => [("graph", t), ("stage", toString s)]
  | .dropped t s r => [("graph", t), ("reason", r), ("stage", toString s)]
  | .wireMessages o | .nameOutcomes o => [("outcome", o)]
  | .rowsExpired t => [("entity_type", t)]
  | .alarmsRaised k => [("kind", k)]
  | .segmentsReceived | .clusterNodes => []

/-- A label value on the metrics page: backslash, quote and line feed are escaped. -/
def escapeLabel (s : String) : String :=
  String.ofList (s.toList.flatMap fun c =>
    match c with
    | '\\' => ['\\', '\\']
    | '"' => ['\\', '"']
    | '\n' => ['\\', 'n']
    | c => [c])

def render (s : Series) : String :=
  match s.labels with
  | [] => s.name
  | ls =>
    s.name ++ "\x7b" ++ String.intercalate "," (ls.map fun l => l.1 ++ "=\"" ++ escapeLabel l.2 ++ "\"") ++
      "\x7d"

end Series

/-- The value of every series that was touched. -/
structure Counters where
  values : Dict Series Nat
  deriving DecidableEq

namespace Counters

def fresh : Counters := ⟨(Dict.empty.set .segmentsReceived 0).set .clusterNodes 0⟩
instance : Inhabited Counters := ⟨fresh⟩

/-- The value of a series; 0 if it was not touched. -/
def get (c : Counters) (s : Series) : Nat := (c.values.get? s).getD 0

def add (c : Counters) (s : Series) (n : Nat) : Counters := ⟨c.values.set s (c.get s + n)⟩

def put (c : Counters) (s : Series) (n : Nat) : Counters := ⟨c.values.set s n⟩

theorem get_add (c : Counters) (s t : Series) (n : Nat) :
    (c.add s n).get t = c.get t + if t = s then n else 0 := by
  by_cases h : t = s
  · subst h; simp [get, add]
  · simp [get, add, Dict.get?_set, h]

theorem get_put (c : Counters) (s t : Series) (n : Nat) :
    (c.put s n).get t = if t = s then n else c.get t := by
  by_cases h : t = s <;> simp [get, put, Dict.get?_set, h]

/-- Every touched series as it stands on the metrics page, with its value. -/
def samples (c : Counters) : List (String × Nat) := c.values.toList.map fun e => (e.1.render, e.2)

end Counters
end TraceRollup
