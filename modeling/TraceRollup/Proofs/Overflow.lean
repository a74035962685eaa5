import TraceRollup.Proofs.ExactlyOnce
import TraceRollup.Proofs.Resolution

/-!
# Where 64 bits end

Durations and growths of counters are differences, and a difference may not fit 64 bits. A
segment has records unless a call in it spans more than that (`Segment.records?_eq_none_iff`),
two totals have a growth unless one of their counters is further from the other
(`RecordKind.since?_eq_none_iff`), and a flush comes to its end unless two snapshots of one
origin and key have none (`LedgerRun.torn_of_overflow`).
-/

namespace TraceRollup

/-! ### Growths of counters -/

namespace Counter

/-- What a comparison comes to, by the distance of the readings. -/
theorem advance_cases (now base : Int64) :
    (now.toInt < base.toInt ∧ advance now base = .error .restarted) ∨
    (base.toInt ≤ now.toInt ∧ now.toInt - base.toInt ≤ 9223372036854775807 ∧
      advance now base = .ok (Int64.ofInt (now.toInt - base.toInt))) ∨
    (9223372036854775807 < now.toInt - base.toInt ∧ advance now base = .error .overflow) := by
  unfold advance
  by_cases hlt : now < base
  · exact Or.inl ⟨Int64.lt_iff_toInt_lt.1 hlt, if_pos hlt⟩
  · have hle : base.toInt ≤ now.toInt := by
      rw [Int64.lt_iff_toInt_lt] at hlt
      omega
    simp only [if_neg hlt]
    by_cases hfits : now.toInt - base.toInt ≤ 9223372036854775807
    · exact Or.inr (Or.inl ⟨hle, hfits, if_pos hfits⟩)
    · exact Or.inr (Or.inr ⟨by omega, if_neg hfits⟩)

theorem discard_eq_error_iff {α : Type} {x : Except Stop α} {e : Stop} : discard x = .error e ↔ x = .error e := by
  cases x with
  | error e' =>
    show Except.error e' = Except.error e ↔ _
    simp
  | ok a => exact ⟨fun h => (by cases h), fun h => (by cases h)⟩

/-- Counters that are compared in order overflow when the first of them without a growth does. -/
theorem mapM_advance_eq_overflow_iff (n : Nat) (now base : Nat → Int64) :
    ((List.range n).mapM fun i => advance (now i) (base i)) = .error .overflow ↔
      ∃ i < n, 9223372036854775807 < (now i).toInt - (base i).toInt ∧ ∀ j < i, (base j).toInt ≤ (now j).toInt := by
  induction n generalizing now base with
  | zero => exact ⟨fun h => (by cases h), fun ⟨i, hi, _⟩ => absurd hi (Nat.not_lt_zero i)⟩
  | succ n ih =>
    rw [List.range_succ_eq_map, List.mapM_cons, List.mapM_map]
    rcases advance_cases (now 0) (base 0) with ⟨hlt, h0⟩ | ⟨hle, hfits, h0⟩ | ⟨hover, h0⟩
    · rw [h0]
      refine ⟨fun h => (by cases h), ?_⟩
      rintro ⟨i, _, hover, hbefore⟩
      cases i with
      | zero => omega
      | succ i =>
        have hle := hbefore 0 (Nat.succ_pos i)
        omega
    · have hrest := ih (fun i => now (i + 1)) (fun i => base (i + 1))
      have htail : ((.ok (Int64.ofInt ((now 0).toInt - (base 0).toInt)) : Except Stop Int64) >>= fun a => do
          let rest ← (List.range n).mapM ((fun i => advance (now i) (base i)) ∘ Nat.succ)
          pure (a :: rest)) = .error .overflow ↔
          ((List.range n).mapM fun i => advance (now (i + 1)) (base (i + 1))) = .error .overflow := by
        show ((List.range n).mapM (fun i => advance (now (i + 1)) (base (i + 1))) >>= fun rest =>
          pure (_ :: rest)) = .error .overflow ↔ _
        cases (List.range n).mapM fun i => advance (now (i + 1)) (base (i + 1)) with
        | error e => rfl
        | ok rest => exact ⟨fun h => (by cases h), fun h => (by cases h)⟩
      rw [h0, htail, hrest]
      constructor
      · rintro ⟨i, hi, hover, hbefore⟩
        refine ⟨i + 1, Nat.succ_lt_succ hi, hover, fun j hj => ?_⟩
        cases j with
        | zero => exact hle
        | succ j => exact hbefore j (Nat.lt_of_succ_lt_succ hj)
      · rintro ⟨i, hi, hover, hbefore⟩
        cases i with
        | zero => omega
        | succ i =>
          exact ⟨i, Nat.lt_of_succ_lt_succ hi, hover, fun j hj => hbefore (j + 1) (Nat.succ_lt_succ hj)⟩
    · rw [h0]
      refine ⟨fun _ => ⟨0, Nat.succ_pos n, hover, fun j hj => absurd hj (Nat.not_lt_zero j)⟩, fun _ => rfl⟩

end Counter

/-- A counter lies so far beyond its base that the growth does not fit, and none before it fell
back. -/
def Overgrown (now base : Nat → Int64) : Prop :=
  ∃ i, 9223372036854775807 < (now i).toInt - (base i).toInt ∧ ∀ j < i, (base j).toInt ≤ (now j).toInt

theorem Overgrown.iff_lt {n : Nat} {now base : Nat → Int64} (h : ∀ i, n ≤ i → now i = base i) :
    Overgrown now base ↔
      ∃ i < n, 9223372036854775807 < (now i).toInt - (base i).toInt ∧ ∀ j < i, (base j).toInt ≤ (now j).toInt := by
  constructor
  · rintro ⟨i, hover, hbefore⟩
    refine ⟨i, ?_, hover, hbefore⟩
    by_cases hi : n ≤ i
    · rw [h i hi] at hover
      omega
    · omega
  · rintro ⟨i, _, hover, hbefore⟩
    exact ⟨i, hover, hbefore⟩

theorem CallSummary.since?_eq_none_iff {now base : CallSummary} :
    since? now base = none ↔ Overgrown now.tally base.tally := by
  have hsteps : discard (advance now base) =
      discard ((List.range 7).mapM fun i => Counter.advance (now.tally i) (base.tally i)) := by
    simp only [advance, List.range, List.range.loop, List.mapM_cons, List.mapM_nil, tally]
    generalize Counter.advance now.withinOne base.withinOne = c₀
    generalize Counter.advance now.withinThree base.withinThree = c₁
    generalize Counter.advance now.withinFive base.withinFive = c₂
    generalize Counter.advance now.slower base.slower = c₃
    generalize Counter.advance now.errors base.errors = c₄
    generalize Counter.advance now.calls base.calls = c₅
    generalize Counter.advance now.costSum base.costSum = c₆
    rcases c₀ with e | d
    · rfl
    rcases c₁ with e | d
    · rfl
    rcases c₂ with e | d
    · rfl
    rcases c₃ with e | d
    · rfl
    rcases c₄ with e | d
    · rfl
    rcases c₅ with e | d
    · rfl
    rcases c₆ with e | d
    · rfl
    rfl
  have hnone : since? now base = none ↔ advance now base = .error .overflow := by
    unfold since?
    rcases advance now base with (_ | _) | d <;> simp
  rw [hnone, ← Counter.discard_eq_error_iff, hsteps, Counter.discard_eq_error_iff, Counter.mapM_advance_eq_overflow_iff, Overgrown.iff_lt]
  intro i hi
  obtain ⟨j, rfl⟩ := Nat.exists_eq_add_of_le' hi
  rfl

theorem ServiceStats.since?_eq_none_iff {now base : ServiceStats} :
    since? now base = none ↔ Overgrown now.tally base.tally := by
  have hsteps : discard (advance now base) =
      discard ((List.range 3).mapM fun i => Counter.advance (now.tally i) (base.tally i)) := by
    simp only [advance, List.range, List.range.loop, List.mapM_cons, List.mapM_nil, tally]
    generalize Counter.advance now.calls base.calls = c₀
    generalize Counter.advance now.errorCalls base.errorCalls = c₁
    generalize Counter.advance now.durationSum base.durationSum = c₂
    rcases c₀ with e | d
    · rfl
    rcases c₁ with e | d
    · rfl
    rcases c₂ with e | d
    · rfl
    rfl
  have hnone : since? now base = none ↔ advance now base = .error .overflow := by
    unfold since?
    rcases advance now base with (_ | _) | d <;> simp
  rw [hnone, ← Counter.discard_eq_error_iff, hsteps, Counter.discard_eq_error_iff, Counter.mapM_advance_eq_overflow_iff, Overgrown.iff_lt]
  intro i hi
  obtain ⟨j, rfl⟩ := Nat.exists_eq_add_of_le' hi
  rfl

/-- Two totals have no growth exactly when a counter overflows before any fell back. -/
theorem RecordKind.since?_eq_none_iff {k : RecordKind} (now base : k.Carrier) :
    Rollup.since? now base = none ↔ Overgrown (k.tally now) (k.tally base) := by
  have hnever : ¬ Overgrown (fun _ => 0) (fun _ => 0) := by
    rintro ⟨i, hover, _⟩
    simp at hover
  cases k with
  | callSummary => exact CallSummary.since?_eq_none_iff
  | serviceStats => exact ServiceStats.since?_eq_none_iff
  | heartbeat => exact ⟨fun h => (by cases h), fun h => absurd h hnever⟩
  | alarm => exact ⟨fun h => (by cases h), fun h => absurd h hnever⟩

/-! ### Flushes -/

section
variable {α : Type} [Rollup α]

/-- Everything in a dictionary was taken in under its key. -/
def TakenIn (taken : OriginKey → List α) (d : Dict OriginKey α) : Prop := ∀ k b, d.get? k = some b → b ∈ taken k

/-- Two snapshots of one origin and key have no growth from one to the other. -/
def Torn (taken : OriginKey → List α) : Prop :=
  ∃ k, ∃ now ∈ taken k, ∃ base ∈ taken k, Rollup.since? now base = none

variable {taken : OriginKey → List α} {baselines : Dict OriginKey α} {entries : List (Ledger.Entry α)}

theorem torn_of_contribution (h : TakenIn taken baselines) {e : Ledger.Entry α} (he : e.2 ∈ taken e.1)
    (hnone : Ledger.contribution? baselines e = none) : Torn taken := by
  unfold Ledger.contribution? at hnone
  split at hnone
  · cases hnone
  · split at hnone
    · rename_i base hbase
      exact ⟨e.1, e.2, he, base, h _ _ hbase, hnone⟩
    · cases hnone

theorem torn_of_combine (h : TakenIn taken baselines) (he : ∀ e ∈ entries, e.2 ∈ taken e.1) (hne : entries ≠ [])
    (hnone : ∀ v, Ledger.combine? baselines entries ≠ some (some v)) : Torn taken := by
  have hparts : entries.mapM (Ledger.contribution? baselines) = none := by
    cases hm : entries.mapM (Ledger.contribution? baselines) with
    | none => rfl
    | some parts =>
      cases parts with
      | cons part rest => exact absurd (by rw [Ledger.combine?, hm]; rfl) (hnone (rest.foldl Rollup.merge part))
      | nil =>
        obtain ⟨e, rest, rfl⟩ := List.exists_cons_of_ne_nil hne
        rw [List.mapM_cons] at hm
        cases hfirst : Ledger.contribution? baselines e <;>
          cases hrest : rest.mapM (Ledger.contribution? baselines) <;> simp [hfirst, hrest] at hm
  obtain ⟨e, hmem, hcontribution⟩ := mapM_eq_none_iff.1 hparts
  exact torn_of_contribution h (he e hmem) hcontribution

theorem torn_of_fresh (h : TakenIn taken baselines) (he : ∀ e ∈ entries, e.2 ∈ taken e.1) {stored : Option Json}
    {e : Ledger.Entry α} (hmem : e ∈ entries) (hnone : Ledger.freshRow? entries baselines stored e.1.2 = none) :
    Torn taken := by
  have hne : Ledger.entriesOf entries e.1.2 ≠ [] := List.ne_nil_of_mem (List.mem_filter.2 ⟨hmem, decide_eq_true rfl⟩)
  have hof : ∀ x ∈ Ledger.entriesOf entries e.1.2, x.2 ∈ taken x.1 := fun x hx => he x (List.mem_of_mem_filter hx)
  refine torn_of_combine h hof hne fun v hv => ?_
  rw [Ledger.freshRow?, hv] at hnone
  cases hnone

namespace LedgerRun
variable {r : LedgerRun α}

omit [Rollup α] in
theorem mem_taken_of_buffer (h : Trails r.written r.ledger.buffer r.taken) {e : Ledger.Entry α}
    (he : e ∈ r.ledger.buffer.toList) : e.2 ∈ r.taken e.1 := by
  have hget : r.ledger.buffer.get? e.1 = some e.2 := (Entries.find_eq_some_iff r.ledger.buffer.distinct).2 he
  apply (h e.1).subset
  rw [hget]
  exact List.mem_append_right _ (List.mem_singleton_self _)

theorem explained_flush (h : Trails r.written r.ledger.buffer r.taken) (hb : TakenIn r.taken r.ledger.baselines)
    {now : Instant} : TakenIn r.taken (r.ledger.flush r.store now).ledger.baselines ∧
      ((r.ledger.flush r.store now).fault = some .overflow → r.ledger.retention? = none ∨ Torn r.taken) := by
  cases hret : r.ledger.retention? with
  | none =>
    rw [Ledger.flush, hret]
    exact ⟨hb, fun _ => Or.inl rfl⟩
  | some d =>
    have hof : ∀ e ∈ r.ledger.due now d, e.2 ∈ r.taken e.1 := fun e he => mem_taken_of_buffer h (List.mem_of_mem_filter he)
    have hd := r.ledger.nodup_due now d
    obtain ⟨_, _, _, _, -, hw, -⟩ := Ledger.progress_write hd r.ledger.batchSize r.ledger.baselines r.store
    rw [Ledger.flush_eq hret]
    refine ⟨fun k b hkb => ?_, fun hfault => Or.inr ?_⟩
    · have hkept := Ledger.Writing.get?_of_keep hkb
      rw [hw.kept] at hkept
      rcases Ledger.mem_of_baselinesAfter hd hkept with ⟨hmem, -⟩ | hold
      · exact hof _ hmem
      · exact hb k b hold
    · obtain ⟨e, he, hnone⟩ := hw.stuck hfault
      exact torn_of_fresh hb hof he hnone

theorem takenIn_step (h : Trails r.written r.ledger.buffer r.taken) (hb : TakenIn r.taken r.ledger.baselines)
    (e : LedgerEvent α) : TakenIn (r.step e).taken (r.step e).ledger.baselines := by
  cases e with
  | accept batch now =>
    intro k b hkb
    simp only [step, (window_acceptBatch r.ledger batch now).2.2] at hkb ⊢
    exact List.mem_append_left _ (hb k b hkb)
  | flush now => exact (explained_flush h hb).1
  | elsewhere other => exact hb

theorem takenIn_run (h : Trails r.written r.ledger.buffer r.taken) (hb : TakenIn r.taken r.ledger.baselines)
    (events : List (LedgerEvent α)) : TakenIn (r.run events).taken (r.run events).ledger.baselines := by
  induction events generalizing r with
  | nil => exact hb
  | cons e rest ih => exact ih (trails_step h e) (takenIn_step h hb e)

/-- In every run a flush comes to its end, as far as arithmetic goes, unless the ledger has no
bound for its memory or took in two snapshots without a growth. -/
theorem torn_of_overflow (pipeline : PipelineId) (window : Duration) (batchSize : Nat) (store : Store)
    (events : List (LedgerEvent α)) {now : Instant}
    (h : (((create pipeline window batchSize store).run events).ledger.flush
      ((create pipeline window batchSize store).run events).store now).fault = some .overflow) :
    ((create pipeline window batchSize store).run events).ledger.retention? = none ∨
      Torn ((create pipeline window batchSize store).run events).taken := by
  have hstart := trails_create (α := α) pipeline window batchSize store
  have hbaselines : TakenIn (create (α := α) pipeline window batchSize store).taken
      (create (α := α) pipeline window batchSize store).ledger.baselines := fun k b hkb => by cases hkb
  exact (explained_flush (trails_run hstart events) (takenIn_run hstart hbaselines events)).2 h

end LedgerRun
end

/-! ### Where 64 bits end -/

theorem Span.toInt_millis {s : Span} {d : Int64} (h : s.millis? = some d) :
    d.toInt = max 0 (s.stop.toInt - s.start.toInt) := by
  unfold millis? at h
  simp only at h
  split at h
  · cases h
    rw [Int64.toInt_ofInt_of_le (by omega) (by omega)]
    omega
  · cases h

theorem Span.millis?_eq_none_iff {s : Span} : s.millis? = none ↔
    ¬ (-9223372036854775808 ≤ s.stop.toInt - s.start.toInt ∧ s.stop.toInt - s.start.toInt ≤ 9223372036854775807) := by
  unfold millis?
  simp only
  split <;> simp_all

/-- A segment has records, and every call in it the duration between its times, unless a call
of which a record comes has times whose difference does not fit 64 bits. Two totals have a
growth unless a counter of one is so far beyond the other's. A flush comes to its end unless
twice the window is no duration or an origin sent two such totals of one key. -/
theorem overflow_only_beyond_range (s : Segment) (stamp : Int64) (k : RecordKind) (now base : k.Carrier)
    (pipeline : PipelineId) (window : Duration) (batchSize : Nat) (store : Store)
    (events : List (LedgerEvent k.Carrier)) (clock : Instant) :
    (s.records? stamp = none ↔ ∃ span ∈ s.spans, span.IsMeasured ∧
      ¬ (-9223372036854775808 ≤ span.stop.toInt - span.start.toInt ∧
        span.stop.toInt - span.start.toInt ≤ 9223372036854775807)) ∧
    (∀ (span : Span) (d : Int64), span.millis? = some d → d.toInt = max 0 (span.stop.toInt - span.start.toInt)) ∧
    (Rollup.since? now base = none ↔ Overgrown (k.tally now) (k.tally base)) ∧
    (∀ r : LedgerRun k.Carrier, r = (LedgerRun.create pipeline window batchSize store).run events →
      (r.ledger.flush r.store clock).fault = some .overflow → window.double? ≠ none →
      ∃ key, ∃ later ∈ r.taken key, ∃ earlier ∈ r.taken key, Overgrown (k.tally later) (k.tally earlier)) := by
  refine ⟨?_, fun _ _ => Span.toInt_millis, RecordKind.since?_eq_none_iff now base, ?_⟩
  · simp only [Segment.records?_eq_none_iff, Span.millis?_eq_none_iff]
  · rintro r rfl hfault hdouble
    rcases LedgerRun.torn_of_overflow pipeline window batchSize store events hfault with hret | ⟨key, a, ha, b, hb, hnone⟩
    · rw [Ledger.retention?, (LedgerRun.settings_run _ _).1] at hret
      exact absurd hret hdouble
    · exact ⟨key, a, ha, b, hb, (RecordKind.since?_eq_none_iff a b).1 hnone⟩

namespace Segment

/-- A call that lasted from the least 64-bit time to the greatest. -/
def allTime : Segment :=
  { traceSegmentId := "s", applicationCode := "a", applicationId := 1, instanceUuid := "u", instanceId := 1
    spans := [{ spanId := 0, kind := .exit, start := -9223372036854775808, stop := 9223372036854775807, peerId := 1 }] }

end Segment

namespace ServiceStats

def withCalls (calls : Int64) : ServiceStats :=
  { service := 1, application := 1, bucket := ⟨1⟩, calls, errorCalls := 0, durationSum := 0, minDuration := 0,
    maxDuration := 0, slowTraces := [] }

end ServiceStats

namespace LedgerRun

/-- One origin's total goes from -1 call to as many as 64 bits can tell. -/
def leap : LedgerRun ServiceStats :=
  (create ⟨2⟩ (.ofSeconds 600) 2000 .fresh).run [.accept [⟨"a", ServiceStats.withCalls (-1)⟩] .epoch, .flush .epoch,
    .accept [⟨"a", ServiceStats.withCalls 9223372036854775807⟩] .epoch]

theorem fault_leap : (leap.ledger.flush leap.store .epoch).fault = some .overflow := by decide +kernel

end LedgerRun

theorem overflow_only_beyond_range_leap : Segment.allTime.records? 0 = none ∧
    ∃ key, ∃ later ∈ LedgerRun.leap.taken key, ∃ earlier ∈ LedgerRun.leap.taken key,
      Overgrown later.tally earlier.tally := by
  obtain ⟨hrecords, -, -, hflush⟩ := overflow_only_beyond_range Segment.allTime 0 .serviceStats
    (ServiceStats.withCalls 0) (ServiceStats.withCalls 0) ⟨2⟩ (.ofSeconds 600) 2000 .fresh
    [.accept [⟨"a", ServiceStats.withCalls (-1)⟩] .epoch, .flush .epoch,
      .accept [⟨"a", ServiceStats.withCalls 9223372036854775807⟩] .epoch] .epoch
  refine ⟨hrecords.2 ?_, hflush LedgerRun.leap rfl LedgerRun.fault_leap (by decide)⟩
  exact ⟨_, List.mem_singleton_self _, Or.inl ⟨rfl, by decide⟩, by decide⟩

/-- Records as they may be sent that end in an overflow: a segment, and the totals of a service. -/
theorem overflow_of_decoded :
    (∃ s, Segment.decode? Segment.allTime.encode = some s ∧ s.records? 0 = none) ∧
    (∃ earlier later, ServiceStats.decode? (ServiceStats.withCalls (-1)).encode = some earlier ∧
      ServiceStats.decode? (ServiceStats.withCalls 9223372036854775807).encode = some later ∧
      ServiceStats.since? later earlier = none) ∧
    (LedgerRun.leap.ledger.flush LedgerRun.leap.store .epoch).fault = some .overflow := by
  refine ⟨⟨Segment.allTime, by decide +kernel, by decide +kernel⟩, ?_, LedgerRun.fault_leap⟩
  exact ⟨_, _, ServiceStats.decode?_encode _, ServiceStats.decode?_encode _, by decide⟩

end TraceRollup
