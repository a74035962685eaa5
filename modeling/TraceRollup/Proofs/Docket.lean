import TraceRollup.Intake

/-!
# Dockets

A docket keeps a case for every segment that an intake took in: how often it was tried, what was
offered of it and what became of it. It goes along with the intake and changes nothing in its
work (`Docket.perform_session`).
-/

namespace TraceRollup.Intake

/-! ### Dockets -/

/-- The case of a segment: as it came in, how often it was tried, the records offered of it, and
what became of it; a segment that is deferred is parked. -/
structure Case where
  segment : Segment
  tried : Nat := 0
  offered : List SegmentRecords := []
  outcome : IntakeOutcome := .deferred

def Case.note (c : Case) (o : IntakeOutcome) (records : List SegmentRecords) : Case :=
  { c with tried := c.tried + 1, offered := c.offered ++ records, outcome := o }

/-- An intake at work with the cases of all segments that it took in, which are numbered from 0. -/
structure Docket where
  session : Session
  cases : List Case := []
  /-- The numbers of the parked segments, in the order in which they are parked. -/
  waiting : List Nat := []
  /-- The numbers of the segments tried, one for each attempt. -/
  tried : List Nat := []

namespace Docket

/-- Notes what came of an attempt at a segment. -/
def note (d : Docket) (i : Nat) (o : IntakeOutcome) (s : Session) : Docket where
  session := s
  cases := d.cases.modify i fun c => c.note o (s.offered.drop d.session.offered.length)
  waiting := if o = .deferred then d.waiting ++ [i] else d.waiting
  tried := d.tried ++ [i]

def handle (d : Docket) (i : Nat) (segment : Segment) (failed : Nat) (now : Int64) : Option (IntakeOutcome × Docket) :=
  (d.session.handle segment failed now).map fun r => (r.1, d.note i r.1 r.2)

/-- The segments taken in so far, in the order in which they came. -/
def segments (d : Docket) : List Segment := d.cases.map Case.segment

/-- Opens a case for a segment that has come in. -/
def enter (d : Docket) (segment : Segment) : Docket := { d with cases := d.cases ++ [{ segment }] }

def ingest (d : Docket) (segment : Segment) (now : Int64) : Option (IntakeOutcome × Docket) :=
  (d.enter segment).handle d.cases.length segment 0 now

def countRetried (d : Docket) : Docket := { d with session := d.session.count "retried" 1 }

def retryOne (now : Int64) (r : IntakeReport × Docket) (e : Nat × Parked Segment) : Option (IntakeReport × Docket) :=
  (r.2.countRetried.handle e.1 e.2.item e.2.attempts now).map fun h => (r.1.note h.1, h.2)

/-- The parked segments with their numbers. -/
def queue (d : Docket) : List (Nat × Parked Segment) := d.waiting.zip d.session.intake.parked.items

/-- The docket without the parked segments, which are in hand now. -/
def taken (d : Docket) : Docket :=
  { d with
    session := { d.session with intake := { d.session.intake with parked := d.session.intake.parked.takeAll.2 } }
    waiting := [] }

def retry (d : Docket) (now : Int64) : Option (IntakeReport × Docket) := d.queue.foldlM (retryOne now) ({}, d.taken)

/-- Notes that a segment in hand is given up. -/
def giveUp (d : Docket) (i : Nat) : Docket :=
  { d with cases := d.cases.modify i fun c => { c with outcome := .discarded } }

/-- Gives up all parked segments. -/
def abandon (d : Docket) : Docket := d.waiting.foldl giveUp d.taken

def finish (d : Docket) (now : Int64) : Option (IntakeReport × Docket) := do
  let (report, d) ← d.retry now
  let left := d.session.intake.parked.items
  let d := d.abandon
  if left.isEmpty then return (report, d)
  else
    return ({ report with deferred := report.deferred - left.length, discarded := report.discarded + left.length },
      { d with session := d.session.count "discarded" left.length })

end Docket

/-! ### Calls -/

/-- What is asked of an intake; `elsewhere` is whatever else happens to its store. -/
inductive IntakeCall
  | ingest (segment : Segment) (now : Int64)
  | retry (now : Int64)
  | finish (now : Int64)
  | elsewhere (store : Store)

/-- The segments that calls bring in. -/
def segmentsOf (calls : List IntakeCall) : List Segment :=
  calls.filterMap fun
    | .ingest segment _ => some segment
    | _ => none

inductive IntakeAnswer
  | outcome (o : IntakeOutcome)
  | report (r : IntakeReport)
  | done

def Session.perform (s : Session) : IntakeCall → Option (IntakeAnswer × Session)
  | .ingest segment now => (s.ingest segment now).map fun r => (.outcome r.1, r.2)
  | .retry now => (s.retry now).map fun r => (.report r.1, r.2)
  | .finish now => (s.finish now).map fun r => (.report r.1, r.2)
  | .elsewhere store => some (.done, { s with store })

def Docket.perform (d : Docket) : IntakeCall → Option (IntakeAnswer × Docket)
  | .ingest segment now => (d.ingest segment now).map fun r => (.outcome r.1, r.2)
  | .retry now => (d.retry now).map fun r => (.report r.1, r.2)
  | .finish now => (d.finish now).map fun r => (.report r.1, r.2)
  | .elsewhere store => some (.done, { d with session := { d.session with store } })

/-- The answers to calls in order and the state at the end, unless there is none. -/
def answersOf {σ : Type} (perform : σ → IntakeCall → Option (IntakeAnswer × σ)) :
    σ → List IntakeCall → Option (List IntakeAnswer × σ)
  | s, [] => some ([], s)
  | s, c :: rest =>
    (perform s c).bind fun r => (answersOf perform r.2 rest).map fun t => (r.1 :: t.1, t.2)

namespace Docket

/-- What a docket's steps come to for the intake. -/
def view {β : Type} (r : β × Docket) : β × Session := (r.1, r.2.session)

theorem handle_session (d : Docket) (i : Nat) (segment : Segment) (failed : Nat) (now : Int64) :
    (d.handle i segment failed now).map view = d.session.handle segment failed now := by
  unfold handle
  rw [Option.map_map]
  exact congrFun Option.map_id _

theorem foldlM_session (now : Int64) (is : List Nat) (ps : List (Parked Segment)) (hlen : is.length = ps.length)
    (r : IntakeReport × Docket) :
    ((is.zip ps).foldlM (retryOne now) r).map view = ps.foldlM (Session.retryOne now) (view r) := by
  induction ps generalizing is r with
  | nil =>
    rw [List.zip_nil_right]
    rfl
  | cons p ps ih =>
    cases is with
    | nil => cases hlen
    | cons i is =>
      have hhandle : _ = (r.2.session.count "retried" 1).handle p.item p.attempts now :=
        handle_session r.2.countRetried i p.item p.attempts now
      rw [List.zip_cons_cons, List.foldlM_cons, List.foldlM_cons]
      unfold Session.retryOne retryOne view
      dsimp only
      rw [← hhandle]
      cases r.2.countRetried.handle i p.item p.attempts now with
      | none => rfl
      | some h => exact ih is (Nat.succ.inj hlen) (r.1.note h.1, h.2)

theorem retry_session {d : Docket} (h : d.waiting.length = d.session.intake.parked.items.length) (now : Int64) :
    (d.retry now).map view = d.session.retry now :=
  foldlM_session now d.waiting d.session.intake.parked.items h ({}, d.taken)

theorem session_abandon (d : Docket) : d.abandon.session = d.taken.session := by
  have key : ∀ (is : List Nat) (d : Docket), (is.foldl giveUp d).session = d.session := by
    intro is
    induction is with
    | nil => exact fun d => rfl
    | cons i is ih => exact fun d => ih (d.giveUp i)
  exact key d.waiting d.taken

theorem finish_session {d : Docket} (h : d.waiting.length = d.session.intake.parked.items.length) (now : Int64) :
    (d.finish now).map view = d.session.finish now := by
  unfold finish Session.finish
  rw [← retry_session h]
  cases d.retry now with
  | none => rfl
  | some r =>
    show Option.map view (if _ then _ else _) = if _ then _ else _
    dsimp only [view]
    split
    · exact congrArg some (Prod.ext rfl r.2.session_abandon)
    · exact congrArg some (Prod.ext rfl (congrArg (Session.count · "discarded" _) r.2.session_abandon))

theorem perform_session {d : Docket} (h : d.waiting.length = d.session.intake.parked.items.length) (c : IntakeCall) :
    (d.perform c).map view = d.session.perform c := by
  have hmap : ∀ {β : Type} (o : Option (β × Docket)) (f : β → IntakeAnswer),
      (o.map fun r => (f r.1, r.2)).map view = (o.map view).map fun r => (f r.1, r.2) := by
    intro β o f
    cases o <;> rfl
  cases c with
  | ingest segment now =>
    refine (hmap _ _).trans (congrArg _ ?_)
    exact handle_session (d.enter segment) d.cases.length segment 0 now
  | retry now => exact (hmap _ _).trans (congrArg _ (retry_session h now))
  | finish now => exact (hmap _ _).trans (congrArg _ (finish_session h now))
  | elsewhere store => rfl

end Docket

end TraceRollup.Intake
