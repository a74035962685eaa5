import TraceRollup.Proofs.AnyOrder
import TraceRollup.Proofs.Overflow

/-!
# Growths merged back

The growth of a total is what a later total holds beyond it. Counters are subtracted, while
the extremes and the slow traces of a growth are those of the later total. Merging it into the
earlier total, or into whatever the earlier total was merged into, still comes to what the
later one would give (`since_inverts_merge`): the counters differ by what was merged since, and
extremes and slow traces absorb what they already hold.
-/

namespace TraceRollup

/-! ### Counters -/

namespace Counted
variable {α : Type} [Rollup α] [Counted α] {base x y later z : α}

theorem toInt_tally_merge {a b : α} {i : Nat} (ha : 0 ≤ (tally a i).toInt) (hb : 0 ≤ (tally b i).toInt) :
    (tally (Rollup.merge a b) i).toInt = min 9223372036854775807 ((tally a i).toInt + (tally b i).toInt) := by
  rw [tally_merge, Counter.toInt_add]
  omega

/-- The growth by a record, merged into a total with or without another record in between. -/
theorem since_merge (hb : ∀ i, 0 ≤ (tally base i).toInt) (hx : ∀ i, 0 ≤ (tally x i).toInt) :
    ∃ d, Rollup.since? (Rollup.merge base x) base = some d ∧
      (∀ i, (tally d i).toInt = (tally (Rollup.merge base x) i).toInt - (tally base i).toInt) ∧
      (∀ i, tally (Rollup.merge base d) i = tally (Rollup.merge base x) i) ∧
      ∀ y, (∀ i, 0 ≤ (tally y i).toInt) → ∀ i,
        tally (Rollup.merge (Rollup.merge base y) d) i = tally (Rollup.merge (Rollup.merge base x) y) i := by
  have hlater := fun i => toInt_tally_merge (hb i) (hx i)
  have hle : ∀ i, (tally base i).toInt ≤ (tally (Rollup.merge base x) i).toInt := by
    intro i
    have hlt := (tally base i).toInt_lt
    have hli := hlater i
    have hxi := hx i
    omega
  obtain ⟨d, hd, -, hdiff⟩ := tally_since hle hb
  have hdnonneg : ∀ i, 0 ≤ (tally d i).toInt := fun i => (hdiff i).symm ▸ Int.sub_nonneg_of_le (hle i)
  refine ⟨d, hd, hdiff, fun i => Int64.toInt_inj.1 ?_, fun y hy i => Int64.toInt_inj.1 ?_⟩
  · have hlt := (tally (Rollup.merge base x) i).toInt_lt
    rw [toInt_tally_merge (hb i) (hdnonneg i), hdiff i]
    omega
  · have hby := toInt_tally_merge (hb i) (hy i)
    have hlt := (tally base i).toInt_lt
    have hbi := hb i
    have hxi := hx i
    have hyi := hy i
    have hli := hlater i
    have hlater_y := toInt_tally_merge (a := Rollup.merge base x) (by omega) hyi
    rw [toInt_tally_merge (by omega) (hdnonneg i), hlater_y, hdiff i]
    omega

/-- What has not grown adds nothing. -/
theorem since_self (h : ∀ i, 0 ≤ (tally later i).toInt) :
    ∃ z, Rollup.since? later later = some z ∧ (∀ i, tally z i = 0) ∧
      ∀ row : α, ∀ i, tally (Rollup.merge row z) i = tally row i := by
  obtain ⟨z, hz, -, hdiff⟩ := tally_since (fun i => Int.le_refl (tally later i).toInt) h
  have hzero : ∀ i, (tally z i).toInt = 0 := fun i => (hdiff i).trans (Int.sub_self _)
  refine ⟨z, hz, fun i => Int64.toInt_inj.1 ?_, fun row i => Int64.toInt_inj.1 ?_⟩
  · rw [hzero i, Int64.toInt_zero]
  · have hlo := (tally row i).le_toInt
    have hhi := (tally row i).toInt_lt
    have hi := hzero i
    rw [tally_merge, Counter.toInt_add]
    omega

theorem tally_merged_nonneg (t : MergeTree α) (h : ∀ m ∈ t.leaves, ∀ i, 0 ≤ (tally m i).toInt) (i : Nat) :
    0 ≤ (tally t.merged i).toInt := by
  have hsum := counted_nonneg_of i fun m hm => h m hm i
  rw [t.tally_merged i fun m hm => h m hm i]
  omega

end Counted

/-! ### Fallen counters -/

theorem Counter.le_of_advance {now base d : Int64} (h : advance now base = .ok d) : base.toInt ≤ now.toInt := by
  rcases advance_cases now base with ⟨_, hstop⟩ | ⟨hle, _⟩ | ⟨_, hstop⟩
  · rw [hstop] at h
    cases h
  · exact hle
  · rw [hstop] at h
    cases h

theorem exists_of_bind_eq_ok {ε α β : Type} {x : Except ε α} {f : α → Except ε β} {b : β} (h : x >>= f = .ok b) :
    ∃ a, x = .ok a ∧ f a = .ok b := by
  cases x with
  | error e => cases h
  | ok a => exact ⟨a, rfl, h⟩

theorem CallSummary.le_of_advance {now base d : CallSummary} (h : advance now base = .ok d) (i : Nat) :
    (base.tally i).toInt ≤ (now.tally i).toInt := by
  obtain ⟨_, h₀, h⟩ := exists_of_bind_eq_ok h
  obtain ⟨_, h₁, h⟩ := exists_of_bind_eq_ok h
  obtain ⟨_, h₂, h⟩ := exists_of_bind_eq_ok h
  obtain ⟨_, h₃, h⟩ := exists_of_bind_eq_ok h
  obtain ⟨_, h₄, h⟩ := exists_of_bind_eq_ok h
  obtain ⟨_, h₅, h⟩ := exists_of_bind_eq_ok h
  obtain ⟨_, h₆, -⟩ := exists_of_bind_eq_ok h
  match i with
  | 0 => exact Counter.le_of_advance h₀
  | 1 => exact Counter.le_of_advance h₁
  | 2 => exact Counter.le_of_advance h₂
  | 3 => exact Counter.le_of_advance h₃
  | 4 => exact Counter.le_of_advance h₄
  | 5 => exact Counter.le_of_advance h₅
  | 6 => exact Counter.le_of_advance h₆
  | _ + 7 => exact Int.le_refl _

theorem ServiceStats.le_of_advance {now base d : ServiceStats} (h : advance now base = .ok d) (i : Nat) :
    (base.tally i).toInt ≤ (now.tally i).toInt := by
  obtain ⟨_, h₀, h⟩ := exists_of_bind_eq_ok h
  obtain ⟨_, h₁, h⟩ := exists_of_bind_eq_ok h
  obtain ⟨_, h₂, -⟩ := exists_of_bind_eq_ok h
  match i with
  | 0 => exact Counter.le_of_advance h₀
  | 1 => exact Counter.le_of_advance h₁
  | 2 => exact Counter.le_of_advance h₂
  | _ + 3 => exact Int.le_refl _

/-- A total that fell back behind one without negative counters is its own growth. -/
theorem RecordKind.since?_of_fallen {k : RecordKind} {now base : k.Carrier} (hb : ∀ i, 0 ≤ (k.tally base i).toInt)
    {i : Nat} (hlt : k.tally now i < k.tally base i) : Rollup.since? now base = some now := by
  have hsome : Rollup.since? now base ≠ none := by
    rw [Ne, since?_eq_none_iff]
    rintro ⟨j, hover, -⟩
    have hbj := hb j
    have hnow := (k.tally now j).toInt_lt
    omega
  rw [Int64.lt_iff_toInt_lt] at hlt
  cases k with
  | callSummary =>
    change CallSummary.since? now base = some now
    change CallSummary.since? now base ≠ none at hsome
    unfold CallSummary.since? at hsome ⊢
    cases hadvance : CallSummary.advance now base with
    | ok d => exact absurd (CallSummary.le_of_advance hadvance i) (Int.not_le.2 hlt)
    | error stop =>
      rw [hadvance] at hsome
      cases stop with
      | restarted => rfl
      | overflow => exact absurd rfl hsome
  | serviceStats =>
    change ServiceStats.since? now base = some now
    change ServiceStats.since? now base ≠ none at hsome
    unfold ServiceStats.since? at hsome ⊢
    cases hadvance : ServiceStats.advance now base with
    | ok d => exact absurd (ServiceStats.le_of_advance hadvance i) (Int.not_le.2 hlt)
    | error stop =>
      rw [hadvance] at hsome
      cases stop with
      | restarted => rfl
      | overflow => exact absurd rfl hsome
  | heartbeat => rfl
  | alarm => rfl

/-! ### Extremes and slow traces -/

theorem absorbed {V : Type} [AddCommMonoid V] {b : V} (hb : b + b = b) (x y : V) : b + y + (b + x) = b + x + y := by
  rw [add_add_add_comm, hb, add_comm y x, ← add_assoc]

namespace ServiceStats
variable {a b base d now x y z : ServiceStats}

/-- What is kept whole in a growth. -/
def features (m : ServiceStats) : Extreme min × Extreme max × Slowest := (m.least, m.greatest, m.slowest)

theorem features_merge (ha : 0 ≤ a.calls.toInt) (hb : 0 ≤ b.calls.toInt) :
    (merge a b).features = a.features + b.features := by
  have hslowest : (merge a b).slowest = a.slowest + b.slowest := by
    show Slowest.of (SlowTrace.topTraces (a.slowTraces ++ b.slowTraces)) = _
    rw [slowest, slowest, ← Slowest.of_append]
    exact Slowest.ext (SlowTrace.topTraces_topTraces _)
  have hleast := least_merge ha hb
  simp only [features, Prod.mk_add_mk, hleast, hslowest]
  rfl

theorem features_add_self (m : ServiceStats) : m.features + m.features = m.features := by
  simp only [features, Prod.mk_add_mk, Extreme.add_self, Slowest.add_self]

theorem features_since (h : since? now base = some d) (hd : d.calls ≠ 0) (hn : now.calls ≠ 0) :
    d.features = now.features := by
  obtain ⟨hgreatest, hslowest⟩ := extremes_since h
  have hleast : d.least = now.least := by
    ext1
    simp only [least, if_neg hd, if_neg hn]
    rw [of_since h]
  simp only [features, hleast, hgreatest, hslowest]

/-- Merged records with calls are equal if their keys, counters and features are. -/
theorem eq_of_features (hservice : a.service = b.service) (happlication : a.application = b.application)
    (hbucket : a.bucket = b.bucket) (ht : ∀ i, a.tally i = b.tally i) (hcalls : a.calls ≠ 0)
    (hf : a.features = b.features) (ha : SlowTrace.topTraces a.slowTraces = a.slowTraces)
    (hb : SlowTrace.topTraces b.slowTraces = b.slowTraces) : a = b := by
  have h₀ : a.calls = b.calls := ht 0
  have h₁ : a.errorCalls = b.errorCalls := ht 1
  have h₂ : a.durationSum = b.durationSum := ht 2
  have hleast : a.least.value = b.least.value := congrArg (fun v => v.1.value) hf
  have hgreatest : a.greatest.value = b.greatest.value := congrArg (fun v => v.2.1.value) hf
  have hslowest : a.slowest.traces = b.slowest.traces := congrArg (fun v => v.2.2.traces) hf
  have hmin : a.minDuration = b.minDuration := by
    simp only [least, if_neg hcalls, if_neg (h₀ ▸ hcalls)] at hleast
    exact Option.some.inj hleast
  have hmax : a.maxDuration = b.maxDuration := Option.some.inj hgreatest
  have htraces : a.slowTraces = b.slowTraces := ha.symm.trans (hslowest.trans hb)
  cases a
  cases b
  simp only at hservice happlication hbucket h₀ h₁ h₂ hmin hmax htraces
  simp only [hservice, happlication, hbucket, h₀, h₁, h₂, hmin, hmax, htraces]

theorem ne_zero_of_pos {c : Int64} (h : 0 < c.toInt) : c ≠ 0 := by
  rintro rfl
  exact absurd h (by decide)

theorem since_inverts (hb : ∀ i, 0 ≤ (base.tally i).toInt) (hx : ∀ i, 0 ≤ (x.tally i).toInt)
    (hcalls : 0 < base.calls.toInt) (hgrown : base.calls.toInt < (merge base x).calls.toInt) :
    ∃ d, since? (merge base x) base = some d ∧ merge base d = merge base x ∧
      ∀ y : ServiceStats, (∀ i, 0 ≤ (y.tally i).toInt) → merge (merge base y) d = merge (merge base x) y := by
  obtain ⟨d, hd, hdiff, hmerged, hother⟩ := Counted.since_merge (α := ServiceStats) hb hx
  have hdcalls : 0 < d.calls.toInt := by
    have h₀ : d.calls.toInt = (merge base x).calls.toInt - base.calls.toInt := hdiff 0
    omega
  change since? (merge base x) base = some d at hd
  have hfeatures : d.features = base.features + x.features :=
    (features_since hd (ne_zero_of_pos hdcalls) (ne_zero_of_pos (by omega))).trans (features_merge (hb 0) (hx 0))
  have hlater : 0 ≤ (merge base x).calls.toInt := by omega
  refine ⟨d, hd, ?_, fun y hy => ?_⟩
  · have hf : (merge base d).features = (merge base x).features := by
      rw [features_merge (hb 0) (Int.le_of_lt hdcalls), features_merge (hb 0) (hx 0), hfeatures, ← add_assoc,
        features_add_self]
    have hne : (merge base d).calls ≠ 0 := by
      have h₀ : (merge base d).calls = (merge base x).calls := hmerged 0
      rw [h₀]
      exact ne_zero_of_pos (by omega)
    exact eq_of_features rfl rfl rfl hmerged hne hf (SlowTrace.topTraces_topTraces _) (SlowTrace.topTraces_topTraces _)
  · have hby : (merge base y).calls.toInt = min 9223372036854775807 (base.calls.toInt + y.calls.toInt) :=
      Counted.toInt_tally_merge (α := ServiceStats) (i := 0) (hb 0) (hy 0)
    have hy₀ : 0 ≤ y.calls.toInt := hy 0
    have hpos : 0 < (merge base y).calls.toInt := by omega
    have hf : (merge (merge base y) d).features = (merge (merge base x) y).features := by
      rw [features_merge (Int.le_of_lt hpos) (Int.le_of_lt hdcalls), features_merge (hb 0) hy₀,
        features_merge hlater hy₀, features_merge (hb 0) (hx 0), hfeatures, absorbed (features_add_self base)]
    have hne : (merge (merge base y) d).calls ≠ 0 := by
      refine ne_zero_of_pos ?_
      have h₀ : (merge (merge base y) d).calls.toInt =
          min 9223372036854775807 ((merge base y).calls.toInt + d.calls.toInt) :=
        Counted.toInt_tally_merge (α := ServiceStats) (i := 0) (Int.le_of_lt hpos) (Int.le_of_lt hdcalls)
      omega
    exact eq_of_features rfl rfl rfl (hother y hy) hne hf (SlowTrace.topTraces_topTraces _)
      (SlowTrace.topTraces_topTraces _)

theorem features_absorb (t : MergeTree ServiceStats) (h : ∀ m ∈ t.leaves, ∀ i, 0 ≤ (m.tally i).toInt)
    {m : ServiceStats} (hm : m ∈ t.leaves) : t.merged.features + m.features = t.merged.features := by
  induction t with
  | leaf a =>
    rw [List.mem_singleton.1 hm]
    exact features_add_self a
  | node left right ihl ihr =>
    have hl : ∀ m ∈ left.leaves, ∀ i, 0 ≤ (m.tally i).toInt := fun m hm => h m (List.mem_append_left _ hm)
    have hr : ∀ m ∈ right.leaves, ∀ i, 0 ≤ (m.tally i).toInt := fun m hm => h m (List.mem_append_right _ hm)
    show (merge left.merged right.merged).features + _ = (merge left.merged right.merged).features
    rw [features_merge (Counted.tally_merged_nonneg left hl 0) (Counted.tally_merged_nonneg right hr 0)]
    rcases List.mem_append.1 hm with hm | hm
    · rw [add_right_comm, ihl hl hm]
    · rw [add_assoc, ihr hr hm]

theorem calls_pos_merged (t : MergeTree ServiceStats) (h : ∀ m ∈ t.leaves, ∀ i, 0 ≤ (m.tally i).toInt)
    {m : ServiceStats} (hm : m ∈ t.leaves) (hpos : 0 < m.calls.toInt) : 0 < t.merged.calls.toInt := by
  induction t with
  | leaf a => exact List.mem_singleton.1 hm ▸ hpos
  | node left right ihl ihr =>
    have hl : ∀ m ∈ left.leaves, ∀ i, 0 ≤ (m.tally i).toInt := fun m hm => h m (List.mem_append_left _ hm)
    have hr : ∀ m ∈ right.leaves, ∀ i, 0 ≤ (m.tally i).toInt := fun m hm => h m (List.mem_append_right _ hm)
    have hleft : 0 ≤ left.merged.calls.toInt := Counted.tally_merged_nonneg left hl 0
    have hright : 0 ≤ right.merged.calls.toInt := Counted.tally_merged_nonneg right hr 0
    have hsum : (MergeTree.node left right).merged.calls.toInt =
        min 9223372036854775807 (left.merged.calls.toInt + right.merged.calls.toInt) :=
      Counted.toInt_tally_merge (α := ServiceStats) (i := 0) hleft hright
    rcases List.mem_append.1 hm with hm | hm
    · have hpart := ihl hl hm
      omega
    · have hpart := ihr hr hm
      omega

/-- What a total has not grown by changes no row that holds it. -/
theorem since_self_absorbed {later : ServiceStats} (hl : ∀ i, 0 ≤ (later.tally i).toInt)
    (hcalls : 0 < later.calls.toInt) (htop : SlowTrace.topTraces later.slowTraces = later.slowTraces) :
    ∃ z, since? later later = some z ∧ ∀ row : MergeTree ServiceStats, later ∈ row.leaves →
      (∀ m ∈ row.leaves, ∀ i, 0 ≤ (m.tally i).toInt) → merge row.merged z = row.merged := by
  obtain ⟨z, hz, hzero, hcounters⟩ := Counted.since_self (α := ServiceStats) hl
  refine ⟨z, hz, fun row hmem hrow => ?_⟩
  have hnonneg : 0 ≤ row.merged.calls.toInt := Counted.tally_merged_nonneg row hrow 0
  have hpos := calls_pos_merged row hrow hmem hcalls
  have hz₀ : z.calls = 0 := hzero 0
  obtain ⟨hgreatest, hslowest⟩ := extremes_since hz
  have hleast : z.least = 0 := by
    ext1
    simp only [least, if_pos hz₀]
    rfl
  have habsorb := features_absorb row hrow hmem
  -- a growth without calls tells of no least duration, but carries the greatest and the traces of its total
  have hf : (merge row.merged z).features = row.merged.features := by
    rw [features_merge hnonneg (hz₀ ▸ Int.le_refl 0)]
    refine Prod.ext ?_ (Prod.ext ?_ ?_)
    · show row.merged.least + z.least = row.merged.least
      rw [hleast, add_zero]
    · show row.merged.greatest + z.greatest = row.merged.greatest
      rw [hgreatest]
      exact congrArg (fun v => v.2.1) habsorb
    · show row.merged.slowest + z.slowest = row.merged.slowest
      rw [hslowest]
      exact congrArg (fun v => v.2.2) habsorb
  have htops : SlowTrace.topTraces row.merged.slowTraces = row.merged.slowTraces := by
    cases row with
    | leaf a => exact List.mem_singleton.1 hmem ▸ htop
    | node left right => exact SlowTrace.topTraces_topTraces _
  have hne : (merge row.merged z).calls ≠ 0 := by
    have h₀ : (merge row.merged z).calls = row.merged.calls := hcounters row.merged 0
    rw [h₀]
    exact ne_zero_of_pos hpos
  exact eq_of_features rfl rfl rfl (hcounters row.merged) hne hf (SlowTrace.topTraces_topTraces _) htops

/-- As long as calls can be counted, every merged call counts. -/
theorem toInt_calls_merged (t : MergeTree ServiceStats) (h : ∀ c ∈ t.leaves, c.IsCall)
    (hlen : t.leaves.length < 9223372036854775808) : t.merged.calls.toInt = t.leaves.length := by
  have hcounted : ∀ cs : List ServiceStats, (∀ c ∈ cs, c.IsCall) → Counted.counted 0 cs = cs.length := by
    intro cs hcs
    induction cs with
    | nil => rfl
    | cons c rest ih =>
      obtain ⟨service, application, bucket, millis, isError, traceId, rfl⟩ := hcs c (List.mem_cons_self ..)
      have hone : (1 : Int64).toInt = 1 := by decide
      have hrest := ih fun c hc => hcs c (List.mem_cons_of_mem _ hc)
      show (1 : Int64).toInt + Counted.counted 0 rest = _
      rw [hone, hrest, List.length_cons]
      omega
  have hsum : t.merged.calls.toInt = min 9223372036854775807 (Counted.counted 0 t.leaves) :=
    t.tally_merged 0 fun c hc => tally_call (h c hc) 0
  rw [hsum, hcounted t.leaves h]
  omega

theorem calls_lt_merged (b x : MergeTree ServiceStats) (hb : ∀ c ∈ b.leaves, c.IsCall) (hx : ∀ c ∈ x.leaves, c.IsCall)
    (hlen : b.leaves.length + x.leaves.length < 9223372036854775808) :
    0 < b.merged.calls.toInt ∧ b.merged.calls.toInt < (merge b.merged x.merged).calls.toInt := by
  have hboth : ∀ c ∈ (MergeTree.node b x).leaves, c.IsCall := fun c hc => (List.mem_append.1 hc).elim (hb c) (hx c)
  have hlens : (MergeTree.node b x).leaves.length = b.leaves.length + x.leaves.length := List.length_append
  have hbase := toInt_calls_merged b hb (by omega)
  have hlater : (merge b.merged x.merged).calls.toInt = (MergeTree.node b x).leaves.length :=
    toInt_calls_merged (.node b x) hboth (by omega)
  have hbpos := List.length_pos_of_ne_nil b.leaves_ne_nil
  have hxpos := List.length_pos_of_ne_nil x.leaves_ne_nil
  omega

theorem tally_calls_nonneg (t : MergeTree ServiceStats) (h : ∀ c ∈ t.leaves, c.IsCall) :
    ∀ i, 0 ≤ (t.merged.tally i).toInt := Counted.tally_merged_nonneg t fun c hc => tally_call (h c hc)

end ServiceStats

namespace CallSummary
variable {base x later : CallSummary}

theorem since_inverts (hb : ∀ i, 0 ≤ (base.tally i).toInt) (hx : ∀ i, 0 ≤ (x.tally i).toInt) :
    ∃ d, since? (merge base x) base = some d ∧ merge base d = merge base x ∧
      ∀ y : CallSummary, (∀ i, 0 ≤ (y.tally i).toInt) → merge (merge base y) d = merge (merge base x) y := by
  obtain ⟨d, hd, -, hmerged, hother⟩ := Counted.since_merge (α := CallSummary) hb hx
  exact ⟨d, hd, eq_of_tally rfl rfl rfl hmerged, fun y hy => eq_of_tally rfl rfl rfl (hother y hy)⟩

theorem since_self_absorbed (hl : ∀ i, 0 ≤ (later.tally i).toInt) :
    ∃ z, since? later later = some z ∧ ∀ row : CallSummary, merge row z = row := by
  obtain ⟨z, hz, -, hrow⟩ := Counted.since_self (α := CallSummary) hl
  exact ⟨z, hz, fun row => eq_of_tally rfl rfl rfl (hrow row)⟩

theorem tally_calls_nonneg (t : MergeTree CallSummary) (h : ∀ c ∈ t.leaves, c.IsCall) :
    ∀ i, 0 ≤ (t.merged.tally i).toInt := Counted.tally_merged_nonneg t fun c hc => tally_call (h c hc)

end CallSummary

/-- Merging the growth of a total back in comes to the later total, also where the earlier one was
merged with others since. Without growth nothing changes, and a total that fell back is its own growth. -/
theorem since_inverts_merge (k : RecordKind) (b x y : MergeTree k.Carrier)
    (hcalls : ∀ c ∈ b.leaves ++ x.leaves ++ y.leaves, k.IsCall c)
    (hlen : (b.leaves ++ x.leaves ++ y.leaves).length < 9223372036854775808) {base later : k.Carrier}
    (hbase : base = b.merged) (hlater : later = Rollup.merge base x.merged) :
    (∃ d, Rollup.since? later base = some d ∧ Rollup.merge base d = later ∧
      Rollup.merge (Rollup.merge base y.merged) d = Rollup.merge later y.merged) ∧
    (∃ z, Rollup.since? later later = some z ∧ ∀ row : MergeTree k.Carrier, later ∈ row.leaves →
      (∀ m ∈ row.leaves, ∀ i, 0 ≤ (k.tally m i).toInt) → Rollup.merge row.merged z = row.merged) ∧
    ∀ (now : k.Carrier) (i : Nat), k.tally now i < k.tally base i → Rollup.since? now base = some now := by
  subst hbase hlater
  have hof : ∀ c ∈ b.leaves, k.IsCall c := fun c hc => hcalls c (List.mem_append_left _ (List.mem_append_left _ hc))
  have hxs : ∀ c ∈ x.leaves, k.IsCall c := fun c hc => hcalls c (List.mem_append_left _ (List.mem_append_right _ hc))
  have hys : ∀ c ∈ y.leaves, k.IsCall c := fun c hc => hcalls c (List.mem_append_right _ hc)
  have hlen' : b.leaves.length + x.leaves.length < 9223372036854775808 := by
    simp only [List.length_append] at hlen
    omega
  cases k with
  | callSummary =>
    have hb := CallSummary.tally_calls_nonneg b hof
    have hlater := CallSummary.tally_calls_nonneg (.node b x) fun c hc => (List.mem_append.1 hc).elim (hof c) (hxs c)
    obtain ⟨d, hd, hmerged, hother⟩ := CallSummary.since_inverts hb (CallSummary.tally_calls_nonneg x hxs)
    obtain ⟨z, hz, hrow⟩ := CallSummary.since_self_absorbed hlater
    refine ⟨⟨d, hd, hmerged, hother _ (CallSummary.tally_calls_nonneg y hys)⟩, ⟨z, hz, fun row _ _ => hrow row.merged⟩,
      fun now i hlt => ?_⟩
    exact RecordKind.since?_of_fallen (k := .callSummary) hb hlt
  | serviceStats =>
    have hb := ServiceStats.tally_calls_nonneg b hof
    have hlater := ServiceStats.tally_calls_nonneg (.node b x) fun c hc => (List.mem_append.1 hc).elim (hof c) (hxs c)
    obtain ⟨hpos, hgrown⟩ := ServiceStats.calls_lt_merged b x hof hxs hlen'
    obtain ⟨d, hd, hmerged, hother⟩ :=
      ServiceStats.since_inverts hb (ServiceStats.tally_calls_nonneg x hxs) hpos hgrown
    obtain ⟨z, hz, hrow⟩ := ServiceStats.since_self_absorbed hlater (Int.lt_trans hpos hgrown)
      (SlowTrace.topTraces_topTraces _)
    refine ⟨⟨d, hd, hmerged, hother _ (ServiceStats.tally_calls_nonneg y hys)⟩, ⟨z, hz, hrow⟩, fun now i hlt => ?_⟩
    exact RecordKind.since?_of_fallen (k := .serviceStats) hb hlt
  | heartbeat =>
    obtain ⟨c, hc⟩ := List.exists_mem_of_ne_nil _ b.leaves_ne_nil
    exact (hof c hc).elim
  | alarm =>
    obtain ⟨c, hc⟩ := List.exists_mem_of_ne_nil _ b.leaves_ne_nil
    exact (hof c hc).elim

namespace ServiceStats

/-- A call as long as 64 bits can tell, and a shorter one that failed. -/
def endless : ServiceStats := ofCall 1 1 ⟨1⟩ 9223372036854775807 false "a"
def failed : ServiceStats := ofCall 1 1 ⟨1⟩ 5 true "b"

end ServiceStats

theorem since_inverts_merge_saturated :
    (∀ c ∈ [ServiceStats.endless, ServiceStats.failed, ServiceStats.failed], c.IsCall) ∧
    ∃ d, ServiceStats.since? (.merge .endless .failed) .endless = some d ∧ d.durationSum = 0 ∧
      ServiceStats.merge .endless d = .merge .endless .failed ∧
      ServiceStats.merge (.merge .endless .failed) d = .merge (.merge .endless .failed) .failed := by
  have hcalls : ∀ c ∈ [ServiceStats.endless, ServiceStats.failed, ServiceStats.failed], c.IsCall := by
    intro c hc
    simp only [List.mem_cons, List.not_mem_nil, or_false, or_self] at hc
    rcases hc with rfl | rfl
    · exact ⟨_, _, _, _, _, _, rfl⟩
    · exact ⟨_, _, _, _, _, _, rfl⟩
  obtain ⟨⟨d, hd, hmerged, hother⟩, -⟩ := since_inverts_merge .serviceStats (.leaf .endless) (.leaf .failed)
    (.leaf .failed) hcalls (by decide) rfl rfl
  refine ⟨hcalls, d, hd, ?_, hmerged, hother⟩
  have hsum : (ServiceStats.since? (.merge .endless .failed) .endless).map ServiceStats.durationSum = some 0 := by
    decide +kernel
  exact Option.some.inj ((congrArg (Option.map ServiceStats.durationSum) hd).symm.trans hsum)

end TraceRollup
