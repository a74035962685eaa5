import TraceRollup.Segment.Names
import TraceRollup.Segment.Records
import TraceRollup.ParkedQueue
import TraceRollup.Counters

/-!
# Intake of segments

A segment that comes in has its names resolved and then yields records, which are offered to
the pipelines. While a name cannot be resolved the segment is parked, and tried again later
until it has failed too often. So a segment is submitted, parked or discarded, and its
records are offered at most once.
-/

namespace TraceRollup

inductive IntakeOutcome
  | submitted | deferred | discarded
  deriving DecidableEq, Repr

def IntakeOutcome.name : IntakeOutcome → String
  | .submitted => "submitted"
  | .deferred => "deferred"
  | .discarded => "discarded"

/-- How many segments of a round were submitted, parked again, or discarded. -/
structure IntakeReport where
  submitted : Nat := 0
  deferred : Nat := 0
  discarded : Nat := 0
  deriving DecidableEq, Inhabited

def IntakeReport.note (r : IntakeReport) : IntakeOutcome → IntakeReport
  | .submitted => { r with submitted := r.submitted + 1 }
  | .deferred => { r with deferred := r.deferred + 1 }
  | .discarded => { r with discarded := r.discarded + 1 }

/-- What an intake keeps: the ids known and the parked segments. -/
structure Intake where
  registry : NameRegistry := {}
  parked : ParkedQueue Segment

namespace Intake

def pending (i : Intake) : Nat := i.parked.length

/-- An intake at work: with the store behind it, the counters, and the records offered so far,
one entry for each segment submitted. -/
structure Session where
  intake : Intake
  store : Store
  counters : Counters
  offered : List SegmentRecords := []

namespace Session

def count (s : Session) (outcome : String) (n : Nat) : Session :=
  { s with counters := s.counters.add (.nameOutcomes outcome) n }

/-! ### One segment -/

/-- What an attempt comes to: the records of the segment, or the segment as far as it is
resolved. -/
inductive Attempt
  | resolved (records : SegmentRecords)
  | unresolved (segment : Segment)

/-- Tries to resolve a segment. None when a duration that is needed has no value. -/
def attempt (s : Session) (segment : Segment) (now : Int64) : Option (Attempt × Session) :=
  let r := segment.resolve ⟨s.intake.registry, s.store⟩
  let s := { s with intake := { s.intake with registry := r.naming.registry }, store := r.naming.store }
  match r.refusal with
  | some _ => some (.unresolved r.value, s)
  | none => (r.value.records? now).map fun records => (.resolved records, s)

/-- Parks a segment after its failed attempts, or discards it. -/
def defer (s : Session) (segment : Segment) (attempts : Nat) : IntakeOutcome × Session :=
  match s.intake.parked.push segment attempts with
  | (.ok _, parked) => (.deferred, { s with intake := { s.intake with parked } }.count "deferred" 1)
  | (.error _, parked) => (.discarded, { s with intake := { s.intake with parked } }.count "discarded" 1)

/-- An attempt at a segment that has failed `failed` times before, with what follows from it. -/
def handle (s : Session) (segment : Segment) (failed : Nat) (now : Int64) : Option (IntakeOutcome × Session) :=
  (s.attempt segment now).map fun
    | (.resolved records, s) => (.submitted, { s with offered := s.offered ++ [records] }.count "resolved" 1)
    | (.unresolved segment, s) => s.defer segment (failed + 1)

def ingest (s : Session) (segment : Segment) (now : Int64) : Option (IntakeOutcome × Session) :=
  s.handle segment 0 now

/-- Takes in segments and tells how many were not discarded. -/
def ingestAll (s : Session) (segments : List Segment) (now : Int64) : Option (Nat × Session) :=
  segments.foldlM (fun (n, s) segment => do
    let (outcome, s) ← s.ingest segment now
    return (if outcome = .discarded then n else n + 1, s)) (0, s)

/-! ### Parked segments -/

/-- Tries a parked segment once more. -/
def retryOne (now : Int64) (r : IntakeReport × Session) (p : Parked Segment) : Option (IntakeReport × Session) :=
  ((r.2.count "retried" 1).handle p.item p.attempts now).map fun h => (r.1.note h.1, h.2)

/-- Tries every parked segment once, oldest first. -/
def retry (s : Session) (now : Int64) : Option (IntakeReport × Session) :=
  let taken := s.intake.parked.takeAll
  taken.1.foldlM (retryOne now) ({}, { s with intake := { s.intake with parked := taken.2 } })

/-- Tries every parked segment a last time and discards those still unresolved. -/
def finish (s : Session) (now : Int64) : Option (IntakeReport × Session) := do
  let (report, s) ← s.retry now
  let (left, parked) := s.intake.parked.takeAll
  let s := { s with intake := { s.intake with parked } }
  if left.isEmpty then return (report, s)
  else
    return ({ report with deferred := report.deferred - left.length, discarded := report.discarded + left.length },
      s.count "discarded" left.length)

end Session
end Intake
end TraceRollup
