import TraceRollup.Proofs.Losses

/-!
# Counters of records on their way

Three series follow the records of a tag: how many were submitted, processed and dropped. A batch
shows in the series of the worker's own stage (`Worker.get_begin_of_output`), and a refused record
in that of the stage which refused it; nothing else that a node counts touches them.
-/

namespace TraceRollup

/-- The tag of the records that a series follows. -/
def Series.flow? : Series → Option String
  | .submitted t | .processed t _ | .dropped t _ _ => some t
  | .queueLength _ _ | .wireMessages _ | .segmentsReceived | .nameOutcomes _ | .rowsFlushed _ | .flushErrors _
  | .rowsExpired _ | .clusterNodes | .alarmsRaised _ => none

namespace Counters
variable {s : Series}

theorem get_add_of_ne (c : Counters) {t : Series} (h : s.flow? ≠ t.flow?) (n : Nat) : (c.add t n).get s = c.get s := by
  rw [get_add, if_neg fun heq => h (by rw [heq]), Nat.add_zero]

theorem get_put_of_ne (c : Counters) {t : Series} (h : s.flow? ≠ t.flow?) (n : Nat) : (c.put t n).get s = c.get s := by
  rw [get_put, if_neg fun heq => h (by rw [heq])]

theorem get_countFlush (hs : s.flow? ≠ none) (tag : String) (r : FlushReport) (c : Counters) :
    (c.countFlush tag r).get s = c.get s := by
  unfold countFlush
  split
  · exact get_add_of_ne c hs _
  · split
    · exact get_add_of_ne c hs _
    · rfl

theorem get_countParcels (hs : s.flow? ≠ none) (outcome : String) (parcels : List Parcel) (c : Counters) :
    (Dispatcher.countParcels outcome parcels c).get s = c.get s := by
  unfold Dispatcher.countParcels
  induction parcels generalizing c with
  | nil => rfl
  | cons q rest ih => exact (ih _).trans (get_add_of_ne c hs _)

theorem get_countAlarms (hs : s.flow? ≠ none) (alarms : List (PipelineId × Alarm)) (c : Counters) :
    (Node.countAlarms alarms c).get s = c.get s := by
  unfold Node.countAlarms
  induction alarms generalizing c with
  | nil => rfl
  | cons a rest ih => exact (ih _).trans (get_add_of_ne c hs 1)

theorem get_ring (hs : s.flow? ≠ none) (hash : PointHash) (r : Router) (c : Counters) :
    (r.ring hash c).counters.get s = c.get s := by
  unfold Router.ring
  split
  · rfl
  · dsimp only
    split
    · exact get_put_of_ne c hs _
    · rfl

end Counters

theorem Ledger.get_flushCounted {α : Type} [Rollup α] {s : Series} (hs : s.flow? ≠ none) {l : Ledger α} {store : Store}
    {now : Instant} {c : Counters} {f : Ledger.Counted α} (hf : l.flushCounted store now c = some f) :
    f.counters.get s = c.get s := by
  simp only [flushCounted] at hf
  split at hf
  · cases hf
  · cases hf
    exact Counters.get_countFlush hs _ _ c
  · cases hf
    exact Counters.get_countFlush hs _ _ c

/-! ### What a worker counts -/

namespace Shared

theorem get_countDropped (sh : Shared) (tag : String) (stage : StageId) (reason : String) (n : Nat) (s : Series) :
    (sh.countDropped tag stage reason n).counters.get s =
      sh.counters.get s + if s = .dropped tag stage.number.toNat reason then n else 0 := by
  unfold countDropped
  split
  · rename_i hn
    rw [hn, ite_self, Nat.add_zero]
  · exact Counters.get_add _ _ _ _

/-- What the answer to a send adds to a series. -/
def refusalIn (tag : String) (stage : StageId) (s : Series) : Except Refusal Unit → Nat
  | .ok _ => 0
  | .error e => if s = .dropped tag stage.number.toNat e.reason then 1 else 0

theorem get_countRefusal (sh : Shared) (tag : String) (stage : StageId) (answer : Except Refusal Unit) (s : Series) :
    (sh.countRefusal tag stage answer).counters.get s = sh.counters.get s + refusalIn tag stage s answer := by
  cases answer with
  | ok _ => rfl
  | error e => exact sh.get_countDropped tag stage e.reason 1 s

end Shared

namespace Worker
variable {α : Type} [Rollup α] {s : Series}

theorem get_showLength (w : Worker α) (sh : Shared) (hs : s.flow? ≠ none) :
    (w.showLength sh).counters.get s = sh.counters.get s := Counters.get_put_of_ne sh.counters hs _

theorem get_countBatch (w : Worker α) (sh : Shared) (s : Series) :
    (w.countBatch sh).counters.get s =
      sh.counters.get s + if s = .processed (Rollup.tag α) w.stage.number.toNat then w.nextBatch.length else 0 :=
  Counters.get_add _ _ _ _

theorem get_process (env : Conditions) (state : StageState α) (batch : List (Snapshot α)) (sh : Shared)
    (hs : s.flow? ≠ none) : (state.process env batch sh).2.counters.get s = sh.counters.get s := by
  cases state with
  | aggregate totals => rfl
  | persist ledger => rfl
  | dispatch routing =>
    have hring := Counters.get_ring hs env.hash sh.router sh.counters
    simp only [StageState.process, Dispatcher.route]
    split
    · exact hring
    · rename_i r h
      split at h
      · cases h
      · cases h
        exact (Counters.get_countParcels hs _ _ _).trans ((Counters.get_countParcels hs _ _ _).trans hring)

theorem get_begin_of_output (env : Conditions) {w : Worker α} (h : w.canBegin = true) (isLast : Bool) (sh : Shared)
    (out : StageOutput α) (hout : (w.state.process env w.nextBatch (w.countBatch sh)).1 = some out)
    (hs : s.flow? ≠ none) :
    (w.begin env isLast sh).2.counters.get s =
      sh.counters.get s + (if s = .processed (Rollup.tag α) w.stage.number.toNat then w.nextBatch.length else 0) +
        if s = .dropped (Rollup.tag α) w.stage.number.toNat out.reason then out.dropped else 0 := by
  have hprocess := get_process env w.state w.nextBatch (w.countBatch sh) hs
  have hpair : w.state.process env w.nextBatch (w.countBatch sh) =
      (some out, (w.state.process env w.nextBatch (w.countBatch sh)).2) := Prod.ext hout rfl
  generalize (w.state.process env w.nextBatch (w.countBatch sh)).2 = after at hprocess hpair
  rw [← get_countBatch, ← hprocess, ← Shared.get_countDropped]
  simp only [nextBatch, countBatch] at hpair
  unfold begin
  rw [if_pos h]
  simp only
  rw [hpair]
  exact get_showLength _ _ hs

/-- A worker touches no series of other tags. -/
theorem get_begin_of_ne (env : Conditions) (isLast : Bool) (w : Worker α) (sh : Shared) (hs : s.flow? ≠ none)
    (hne : s.flow? ≠ some (Rollup.tag α)) : (w.begin env isLast sh).2.counters.get s = sh.counters.get s := by
  have hcount : (w.countBatch sh).counters.get s = sh.counters.get s := Counters.get_add_of_ne sh.counters hne _
  by_cases hcan : w.canBegin = true
  · have hprocess := get_process env w.state w.nextBatch (w.countBatch sh) hs
    cases hout : (w.state.process env w.nextBatch (w.countBatch sh)).1 with
    | some out =>
      have hprocessed : ¬ s = .processed (Rollup.tag α) w.stage.number.toNat := fun heq => hne (by rw [heq]; rfl)
      have hdropped : ¬ s = .dropped (Rollup.tag α) w.stage.number.toNat out.reason := fun heq => hne (by rw [heq]; rfl)
      rw [get_begin_of_output env hcan isLast sh out hout hs, if_neg hprocessed, if_neg hdropped, Nat.add_zero]
    | none =>
      have hpair : w.state.process env w.nextBatch (w.countBatch sh) =
          (none, (w.state.process env w.nextBatch (w.countBatch sh)).2) := Prod.ext hout rfl
      simp only [nextBatch, countBatch] at hpair hprocess hcount
      unfold begin
      rw [if_pos hcan]
      simp only
      rw [hpair]
      exact hprocess.trans hcount
  · rw [begin_of_not hcan]

end Worker
end TraceRollup
