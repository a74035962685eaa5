import TraceRollup.Proofs.Expiry
import TraceRollup.Proofs.Keys
import TraceRollup.Stage.Accumulator

/-!
# Eviction cannot be observed

A recorder keeps every record that it ever took and answers with merges of them. An
accumulator forgets the totals that have left its window, but no record of such a key is taken
any more, so the two give the same answers (`Recalls.perform`), over every run with a clock
that does not go back (`Accumulator.answers_eq`).
-/

namespace TraceRollup

/-! ### Recorders -/

/-- Takes records one by one and forgets none. -/
structure Recorder (α : Type) where
  window : Duration
  /-- The records taken, oldest first. -/
  taken : List α := []

namespace Recorder
variable {α : Type} [Rollup α]

def under (r : Recorder α) (id : String) : List α := r.taken.filter fun a => decide (Rollup.id a = id)

/-- The merge of all records of a key, from the left. -/
def total? (r : Recorder α) (id : String) : Option α := Rollup.mergeAll (r.under id)

/-- Takes a record unless it is late, and answers with the merge of all records of its key. -/
def accept (r : Recorder α) (record : α) (now : Instant) : Option α × Recorder α :=
  if (Rollup.bucket record).isExpired now r.window then (none, r)
  else
    let s := { r with taken := r.taken ++ [record] }
    (s.total? (Rollup.id record), s)

def acceptAll (now : Instant) : Recorder α → List (Snapshot α) → Accumulated α × Recorder α
  | r, [] => (⟨[], 0⟩, r)
  | r, s :: rest =>
    let a := r.accept s.record now
    let t := acceptAll now a.2 rest
    match a.1 with
    | some total => (⟨⟨s.origin, total⟩ :: t.1.snapshots, t.1.late⟩, t.2)
    | none => (⟨t.1.snapshots, t.1.late + 1⟩, t.2)

end Recorder

/-! ### Calls -/

/-- What is asked of an accumulator. -/
inductive AccumulatorCall (α : Type)
  | accept (record : α) (now : Instant)
  | acceptBatch (batch : List (Snapshot α)) (now : Instant)
  | evict (now : Instant)

def AccumulatorCall.now {α : Type} : AccumulatorCall α → Instant
  | .accept _ now | .acceptBatch _ now | .evict now => now

inductive AccumulatorAnswer (α : Type)
  | total (t : Option α)
  | batch (a : Accumulated α)
  | done

/-- The answers to calls in order, and the state at the end. -/
def answers {σ α : Type} (perform : σ → AccumulatorCall α → AccumulatorAnswer α × σ) :
    σ → List (AccumulatorCall α) → List (AccumulatorAnswer α) × σ
  | s, [] => ([], s)
  | s, c :: rest =>
    let r := perform s c
    let t := answers perform r.2 rest
    (r.1 :: t.1, t.2)

def Accumulator.perform {α : Type} [Rollup α] (a : Accumulator α) : AccumulatorCall α → AccumulatorAnswer α × Accumulator α
  | .accept record now => let r := a.accept record now; (.total r.1, r.2)
  | .acceptBatch batch now => let r := a.acceptBatch batch now; (.batch r.1, r.2)
  | .evict now => (.done, a.evict now)

def Recorder.perform {α : Type} [Rollup α] (r : Recorder α) : AccumulatorCall α → AccumulatorAnswer α × Recorder α
  | .accept record now => let a := r.accept record now; (.total a.1, a.2)
  | .acceptBatch batch now => let a := r.acceptAll now batch; (.batch a.1, a.2)
  | .evict _ => (.done, r)

/-! ### Totals -/

namespace Rollup
variable {α : Type} [Rollup α]

theorem mergeAll_concat (xs : List α) (x : α) :
    mergeAll (xs ++ [x]) = some (match mergeAll xs with | some t => merge t x | none => x) := by
  cases xs with
  | nil => rfl
  | cons a rest =>
    simp only [List.cons_append, mergeAll, List.foldl_append, List.foldl_cons, List.foldl_nil]

theorem id_mergeAll [LawfulKey α] {id : String} {xs : List α} {m : α} (h : ∀ x ∈ xs, Rollup.id x = id)
    (hm : mergeAll xs = some m) : Rollup.id m = id := by
  have key : ∀ (xs : List α) (t : α), Rollup.id (xs.foldl merge t) = Rollup.id t := by
    intro xs
    induction xs with
    | nil => exact fun t => rfl
    | cons x rest ih => exact fun t => (ih (merge t x)).trans (LawfulKey.id_merge t x)
  cases xs with
  | nil => cases hm
  | cons a rest =>
    cases hm
    rw [key]
    exact h a (List.mem_cons_self ..)

end Rollup

namespace Recorder
variable {α : Type} [Rollup α]

theorem total?_concat (r : Recorder α) (record : α) (id : String) :
    { r with taken := r.taken ++ [record] }.total? id =
      if Rollup.id record = id then
        some (match r.total? id with | some t => Rollup.merge t record | none => record)
      else r.total? id := by
  simp only [total?, under, List.filter_append]
  split
  · rename_i hid
    rw [List.filter_cons_of_pos (by simp [hid]), List.filter_nil, Rollup.mergeAll_concat]
  · rename_i hid
    rw [List.filter_cons_of_neg (by simp [hid]), List.filter_nil, List.append_nil]

theorem id_total [LawfulKey α] {r : Recorder α} {id : String} {t : α} (h : r.total? id = some t) :
    Rollup.id t = id := by
  refine Rollup.id_mergeAll (fun x hx => ?_) h
  simpa [under, List.mem_filter] using (List.mem_filter.1 hx).2

end Recorder

/-! ### Forgetting -/

/-- Every record of a key is late. -/
def Past (α : Type) [Rollup α] (now : Instant) (window : Duration) (id : String) : Prop :=
  ∀ record : α, Rollup.id record = id → (Rollup.bucket record).isExpired now window = true

/-- The totals are those of the recorder, but for keys whose records are all late. -/
structure Recalls {α : Type} [Rollup α] (window : Duration) (now : Instant) (a : Accumulator α)
    (r : Recorder α) : Prop where
  window_accumulator : a.window = window
  window_recorder : r.window = window
  total : ∀ id, a.totals.get? id = r.total? id ∨ a.totals.get? id = none ∧ Past α now window id

namespace Recalls
variable {α : Type} [Rollup α] {window : Duration} {now later : Instant} {a : Accumulator α} {r : Recorder α}

theorem create : Recalls (α := α) window now { window } { window } := ⟨rfl, rfl, fun _ => Or.inl rfl⟩

theorem mono (h : Recalls window now a r) (hn : now.InEra) (hl : later.InEra) (hle : now.nanos ≤ later.nanos) :
    Recalls window later a r := by
  refine ⟨h.window_accumulator, h.window_recorder, fun id => ?_⟩
  rcases h.total id with hsame | ⟨hnone, hpast⟩
  · exact Or.inl hsame
  · exact Or.inr ⟨hnone, fun record hid => TimeBucket.isExpired_mono hn hl hle (hpast record hid)⟩

/-- A record that is not late has a total that is not forgotten. -/
theorem accept (h : Recalls window now a r) (record : α) :
    (a.accept record now).1 = (r.accept record now).1 ∧
      Recalls window now (a.accept record now).2 (r.accept record now).2 := by
  have ha : (Rollup.bucket record).isExpired now a.window = (Rollup.bucket record).isExpired now window := by
    rw [h.window_accumulator]
  have hr : (Rollup.bucket record).isExpired now r.window = (Rollup.bucket record).isExpired now window := by
    rw [h.window_recorder]
  unfold Accumulator.accept Recorder.accept Accumulator.isLate
  rw [ha, hr]
  cases hlate : (Rollup.bucket record).isExpired now window with
  | true => exact ⟨rfl, h⟩
  | false =>
    have hget : a.totals.get? (Rollup.id record) = r.total? (Rollup.id record) := by
      rcases h.total (Rollup.id record) with hsame | ⟨_, hpast⟩
      · exact hsame
      · rw [hpast record rfl] at hlate
        cases hlate
    simp only [if_neg Bool.false_ne_true]
    refine ⟨?_, h.window_accumulator, h.window_recorder, fun id => ?_⟩
    · have htotal := Recorder.total?_concat r record (Rollup.id record)
      rw [if_pos rfl, ← hget] at htotal
      exact htotal.symm
    · rw [Recorder.total?_concat, Dict.get?_set]
      by_cases hid : Rollup.id record = id
      · subst hid
        rw [if_pos rfl, if_pos rfl, hget]
        exact Or.inl rfl
      · rw [if_neg hid, if_neg (Ne.symm hid)]
        exact h.total id

theorem acceptAll (h : Recalls window now a r) (batch : List (Snapshot α)) :
    (a.acceptAll now batch).1 = (r.acceptAll now batch).1 ∧
      Recalls window now (a.acceptAll now batch).2 (r.acceptAll now batch).2 := by
  induction batch generalizing a r with
  | nil => exact ⟨rfl, h⟩
  | cons s rest ih =>
    obtain ⟨hanswer, hstep⟩ := h.accept s.record
    obtain ⟨hanswers, hrest⟩ := ih hstep
    simp only [Accumulator.acceptAll, Recorder.acceptAll, hanswer, hanswers]
    cases (r.accept s.record now).1 with
    | none => exact ⟨rfl, hrest⟩
    | some total => exact ⟨rfl, hrest⟩

variable [LawfulKey α]

/-- Only totals of keys whose records are all late are evicted. -/
theorem evict (h : Recalls window now a r) : Recalls window now (a.evict now) r := by
  refine ⟨h.window_accumulator, h.window_recorder, fun id => ?_⟩
  simp only [Accumulator.evict, Accumulator.isLate, Dict.get?_filter, h.window_accumulator]
  rcases h.total id with hsame | ⟨hnone, hpast⟩
  · rw [hsame]
    cases ht : r.total? id with
    | none => exact Or.inl rfl
    | some t =>
      cases hlate : (Rollup.bucket t).isExpired now window with
      | false => exact Or.inl (by simp [Option.filter, hlate])
      | true =>
        refine Or.inr ⟨by simp [Option.filter, hlate], fun record hid => ?_⟩
        rw [LawfulKey.bucket_of_id (hid.trans (Recorder.id_total ht).symm)]
        exact hlate
  · rw [hnone]
    exact Or.inr ⟨rfl, hpast⟩

theorem acceptBatch (h : Recalls window now a r) (batch : List (Snapshot α)) :
    (a.acceptBatch batch now).1 = (r.acceptAll now batch).1 ∧
      Recalls window now (a.acceptBatch batch now).2 (r.acceptAll now batch).2 := by
  have hevicted : Recalls window now (a.evictIfDue now) r := by
    unfold Accumulator.evictIfDue
    split
    · exact ⟨h.evict.window_accumulator, h.window_recorder, h.evict.total⟩
    · exact h
  exact hevicted.acceptAll batch

/-- No call tells an accumulator from a recorder. -/
theorem perform (h : Recalls window now a r) {c : AccumulatorCall α} (hc : c.now = now) :
    (a.perform c).1 = (r.perform c).1 ∧ Recalls window now (a.perform c).2 (r.perform c).2 := by
  cases c with
  | accept record t =>
    subst hc
    obtain ⟨hanswer, hstep⟩ := h.accept record
    exact ⟨congrArg _ hanswer, hstep⟩
  | acceptBatch batch t =>
    subst hc
    obtain ⟨hanswer, hstep⟩ := h.acceptBatch batch
    exact ⟨congrArg _ hanswer, hstep⟩
  | evict t =>
    subst hc
    exact ⟨rfl, h.evict⟩

theorem answers {calls : List (AccumulatorCall α)} (h : Recalls window now a r) (hn : now.InEra)
    (hera : ∀ c ∈ calls, c.now.InEra ∧ now.nanos ≤ c.now.nanos)
    (hclock : calls.Pairwise fun c d => c.now.nanos ≤ d.now.nanos) :
    (answers Accumulator.perform a calls).1 = (answers Recorder.perform r calls).1 ∧
      ∃ last : Instant, last.InEra ∧ (∀ t : Instant, now.nanos ≤ t.nanos → (∀ c ∈ calls, c.now.nanos ≤ t.nanos) →
          last.nanos ≤ t.nanos) ∧
        Recalls window last (TraceRollup.answers Accumulator.perform a calls).2
          (TraceRollup.answers Recorder.perform r calls).2 := by
  induction calls generalizing a r now with
  | nil => exact ⟨rfl, now, hn, fun _ ht _ => ht, h⟩
  | cons c rest ih =>
    obtain ⟨hcn, hle⟩ := hera c (List.mem_cons_self ..)
    obtain ⟨hlater, hrest⟩ := List.pairwise_cons.1 hclock
    obtain ⟨hanswer, hstep⟩ := (h.mono hn hcn hle).perform (c := c) rfl
    obtain ⟨hanswers, last, hlast, hbound, hend⟩ :=
      ih hstep hcn (fun d hd => ⟨(hera d (List.mem_cons_of_mem _ hd)).1, hlater d hd⟩) hrest
    refine ⟨?_, last, hlast, fun t _ ht => ?_, hend⟩
    · simp only [TraceRollup.answers, hanswer, hanswers]
    · exact hbound t (ht c (List.mem_cons_self ..)) fun d hd => ht d (List.mem_cons_of_mem _ hd)

end Recalls
/-- Whenever totals are evicted and however records are divided into calls, an accumulator answers
like a recorder. A key that it has forgotten never comes back: all its records are late. -/
theorem Accumulator.answers_eq (k : RecordKind) (window : Duration) (calls : List (AccumulatorCall k.Carrier))
    (hera : ∀ c ∈ calls, c.now.InEra) (hclock : calls.Pairwise fun c d => c.now.nanos ≤ d.now.nanos) :
    (answers Accumulator.perform { window } calls).1 = (answers Recorder.perform { window } calls).1 ∧
      ∀ (record : k.Carrier) (now : Instant), now.InEra → (∀ c ∈ calls, c.now.nanos ≤ now.nanos) →
        ((answers Recorder.perform { window } calls).2.total? (Rollup.id record)).isSome = true →
        (answers Accumulator.perform { window } calls).2.totals.get? (Rollup.id record) = none →
        (Rollup.bucket record).isExpired now window = true := by
  have hstart : Recalls (α := k.Carrier) window .epoch { window } { window } := .create
  obtain ⟨hanswers, last, hlast, hbound, hend⟩ :=
    hstart.answers Instant.inEra_epoch (fun c hc => ⟨hera c hc, (hera c hc).1⟩) hclock
  refine ⟨hanswers, fun record now hnow hlater hsome hnone => ?_⟩
  rcases (hend.mono hlast hnow (hbound now hnow.1 hlater)).total (Rollup.id record) with hsame | ⟨_, hpast⟩
  · rw [← hsame, hnone] at hsome
    cases hsome
  · exact hpast record rfl

/-- A heartbeat of the first day, which is evicted two days later and then comes again. -/
theorem Accumulator.answers_evicted_heartbeat :
    let beat : Heartbeat := ⟨1, 1, ⟨19700101⟩, 5⟩
    let later : Instant := ⟨172800000000000⟩
    let calls : List (AccumulatorCall Heartbeat) := [.accept beat .epoch, .evict later, .acceptBatch [⟨"a", beat⟩] later]
    (answers Accumulator.perform { window := .ofSeconds 600 } calls).1 =
        (answers Recorder.perform { window := .ofSeconds 600 } calls).1 ∧
      beat.bucket.isExpired later (.ofSeconds 600) = true := by
  intro beat later calls
  have hera : ∀ c ∈ calls, c.now.InEra := by
    intro c hc
    simp only [calls, List.mem_cons, List.not_mem_nil, or_false] at hc
    rcases hc with rfl | rfl | rfl <;> exact ⟨by decide, by decide⟩
  obtain ⟨hanswers, hlate⟩ := answers_eq .heartbeat (.ofSeconds 600) calls hera (by decide)
  exact ⟨hanswers, hlate beat later ⟨by decide, by decide⟩ (by decide) (by decide +kernel) (by decide +kernel)⟩

end TraceRollup
