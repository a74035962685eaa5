import Mathlib.Tactic.SplitIfs
import TraceRollup.Proofs.AnyOrder

/-!
# Records that stay consistent

Whatever is made of the calls of a key, its fields fit together. `Obtained` tells what can be
made: records are merged, a running total is reduced to its growth, and a flush folds what a
ledger holds into the stored rows, as long as no sum of counters leaves its range. A property that
calls have, and that merging and reducing keep, holds of all of it (`Obtained.has`). For statistics
a reduced total still has the extremes of the whole, so what is kept is that these bound each of the
records that were merged into it (`ServiceStats.Covers`).
-/

namespace TraceRollup

/-! ### Counters within their range -/

namespace Counted
variable {α : Type} [Rollup α] [Counted α] {a b base d : α} {xs later : List α}

/-- No sum of counters is above the largest number. -/
def InRange (xs : List α) : Prop := ∀ i, counted i xs ≤ 9223372036854775807

theorem counted_cons (i : Nat) (a : α) (xs : List α) : counted i (a :: xs) = (tally a i).toInt + counted i xs := rfl

theorem InRange.pair (h : InRange (a :: b :: xs)) (hxs : ∀ x ∈ xs, ∀ i, 0 ≤ (tally x i).toInt) : InRange [a, b] := by
  intro i
  have hrange := h i
  have hrest := counted_nonneg_of i fun x hx => hxs x hx i
  rw [counted_cons, counted_cons] at hrange ⊢
  show _ + (_ + 0) ≤ _
  omega

theorem toInt_merge (h : InRange [a, b]) (ha : ∀ i, 0 ≤ (tally a i).toInt) (hb : ∀ i, 0 ≤ (tally b i).toInt) (i : Nat) :
    (tally (Rollup.merge a b) i).toInt = (tally a i).toInt + (tally b i).toInt := by
  have hrange : (tally a i).toInt + ((tally b i).toInt + 0) ≤ _ := h i
  have hai := ha i
  have hbi := hb i
  rw [tally_merge, Counter.toInt_add]
  omega

theorem InRange.merge (h : InRange (a :: b :: xs)) (ha : ∀ i, 0 ≤ (tally a i).toInt) (hb : ∀ i, 0 ≤ (tally b i).toInt)
    (hxs : ∀ x ∈ xs, ∀ i, 0 ≤ (tally x i).toInt) : InRange (Rollup.merge a b :: xs) := by
  intro i
  have hrange := h i
  rw [counted_cons, counted_cons] at hrange
  rw [counted_cons, toInt_merge (h.pair hxs) ha hb]
  omega

theorem toInt_foldl (h : InRange (a :: xs)) (ha : ∀ i, 0 ≤ (tally a i).toInt)
    (hxs : ∀ x ∈ xs, ∀ i, 0 ≤ (tally x i).toInt) (i : Nat) :
    (tally (xs.foldl Rollup.merge a) i).toInt = counted i (a :: xs) := by
  induction xs generalizing a with
  | nil => exact (Int.add_zero _).symm
  | cons x rest ih =>
    have hx := hxs x (List.mem_cons_self ..)
    have hrest : ∀ y ∈ rest, ∀ i, 0 ≤ (tally y i).toInt := fun y hy => hxs y (List.mem_cons_of_mem _ hy)
    have hmerged := toInt_merge (h.pair hrest) ha hx
    have hnonneg : ∀ i, 0 ≤ (tally (Rollup.merge a x) i).toInt := by
      intro i
      have hai := ha i
      have hxi := hx i
      rw [hmerged]
      omega
    rw [List.foldl_cons, ih (h.merge ha hx hrest) hnonneg hrest, counted_cons, counted_cons, counted_cons, hmerged]
    omega

theorem toInt_since (h : InRange (base :: later)) (hb : ∀ i, 0 ≤ (tally base i).toInt)
    (hl : ∀ x ∈ later, ∀ i, 0 ≤ (tally x i).toInt) (hd : Rollup.since? (later.foldl Rollup.merge base) base = some d)
    (i : Nat) : (tally d i).toInt = counted i later := by
  have hnow := toInt_foldl h hb hl
  have hle : ∀ i, (tally base i).toInt ≤ (tally (later.foldl Rollup.merge base) i).toInt := by
    intro i
    have hgrowth := counted_nonneg_of i fun x hx => hl x hx i
    rw [hnow, counted_cons]
    omega
  obtain ⟨d', hd', -, hdiff⟩ := tally_since hle hb
  rw [hd] at hd'
  cases hd'
  rw [hdiff, hnow, counted_cons]
  omega

end Counted

/-! ### What is made of calls -/

open Counted in
/-- The records of a key that are made of calls: merged, reduced to the growth since an earlier
total, and read from the rows that flushes leave. A ledger may hold any totals that were made so, as
long as each has grown from the last one written, or was begun anew. -/
inductive Obtained (α : Type) [Rollup α] [Counted α] : String → α → Prop
  | call {a : α} (h : IsCall a) : Obtained α (Rollup.id a) a
  | merge {id : String} {a b : α} (ha : Obtained α id a) (hb : Obtained α id b) (hrange : InRange [a, b]) :
      Obtained α id (Rollup.merge a b)
  | growth {id : String} {base d : α} (later : List α) (hbase : Obtained α id base)
      (hlater : ∀ x ∈ later, Obtained α id x) (hrange : InRange (base :: later))
      (hd : Rollup.since? (later.foldl Rollup.merge base) base = some d) : Obtained α id d
  | row {l : Ledger α} {store : Store} {now : Instant} {id : String} {row : Json} {a : α} (later : OriginKey → List α)
      (hrows : ∀ id row a, (store.table (Rollup.tag α)).get? id = some row → Rollup.decode? row = some a → Obtained α id a)
      (hbuffer : ∀ key b, l.buffer.get? key = some b → Obtained α key.2 b)
      (hbaselines : ∀ key base, l.baselines.get? key = some base → Obtained α key.2 base)
      (hlater : ∀ key, ∀ x ∈ later key, Obtained α key.2 x)
      (hgrown : ∀ key b base, l.buffer.get? key = some b → l.baselines.get? key = some base →
        (b = (later key).foldl Rollup.merge base ∧ InRange (base :: later key)) ∨ Rollup.since? b base = some b)
      (hrange : ∀ id retention contributions, l.retention? = some retention →
        (Ledger.entriesOf (l.due now retention) id).mapM (Ledger.contribution? l.baselines) = some contributions →
        InRange (((Ledger.storedRow α store id).bind Rollup.decode?).toList ++ contributions))
      (hrow : ((l.flush store now).store.table (Rollup.tag α)).get? id = some row) (ha : Rollup.decode? row = some a) :
      Obtained α id a

/-- A property of records with counters that are not negative, which calls have and what is made of
them keeps. -/
structure Survives {α : Type} [Rollup α] [Counted α] (P : α → Prop) : Prop where
  nonneg : ∀ {a : α}, P a → ∀ i, 0 ≤ (Counted.tally a i).toInt
  call : ∀ {a : α}, Counted.IsCall a → P a
  merge : ∀ {a b : α}, P a → P b → Counted.InRange [a, b] → P (Rollup.merge a b)
  growth : ∀ {base d : α} {later : List α}, P base → (∀ x ∈ later, P x) → P (later.foldl Rollup.merge base) →
    Counted.InRange (base :: later) → Rollup.since? (later.foldl Rollup.merge base) base = some d → P d

theorem Ledger.contributions_of_fresh {α : Type} [Rollup α] {entries : List (Entry α)} {baselines : Dict OriginKey α}
    {stored : Option Json} {id : String} {a : α} (h : freshRow? entries baselines stored id = some a) :
    ∃ contributions value, (entriesOf entries id).mapM (contribution? baselines) = some contributions ∧
      Rollup.mergeAll contributions = some value ∧ mergedRow stored value = a := by
  unfold freshRow? combine? at h
  cases hcontributions : (entriesOf entries id).mapM (contribution? baselines) with
  | none =>
    rw [hcontributions] at h
    cases h
  | some contributions =>
    rw [hcontributions] at h
    cases hvalue : Rollup.mergeAll contributions with
    | none =>
      simp only [Option.bind_eq_bind, Option.bind_some, Option.pure_def, hvalue, Option.bind_none] at h
      cases h
    | some value =>
      simp only [Option.bind_eq_bind, Option.bind_some, Option.pure_def, hvalue, Option.some.injEq] at h
      exact ⟨contributions, value, rfl, hvalue, h⟩

section
variable {α : Type} [Rollup α] [Counted α] {P : α → Prop}

namespace Survives

theorem foldl (h : Survives P) {a : α} {xs : List α} (ha : P a) (hxs : ∀ x ∈ xs, P x)
    (hrange : Counted.InRange (a :: xs)) : P (xs.foldl Rollup.merge a) := by
  induction xs generalizing a with
  | nil => exact ha
  | cons x rest ih =>
    have hx := hxs x (List.mem_cons_self ..)
    have hrest : ∀ y ∈ rest, P y := fun y hy => hxs y (List.mem_cons_of_mem _ hy)
    have hnonneg : ∀ y ∈ rest, ∀ i, 0 ≤ (Counted.tally y i).toInt := fun y hy => h.nonneg (hrest y hy)
    exact ih (h.merge ha hx (hrange.pair hnonneg)) hrest (hrange.merge (h.nonneg ha) (h.nonneg hx) hnonneg)

theorem mergedRow (h : Survives P) {stored : Option Json} {contributions : List α} {value : α}
    (hstored : ∀ b, stored.bind Rollup.decode? = some b → P b) (hcontributions : ∀ c ∈ contributions, P c)
    (hrange : Counted.InRange ((stored.bind Rollup.decode?).toList ++ contributions))
    (hvalue : Rollup.mergeAll contributions = some value) : P (Ledger.mergedRow stored value) := by
  cases contributions with
  | nil => cases hvalue
  | cons c rest =>
    cases hvalue
    have hc := hcontributions c (List.mem_cons_self ..)
    have hrest : ∀ x ∈ rest, P x := fun x hx => hcontributions x (List.mem_cons_of_mem _ hx)
    unfold Ledger.mergedRow
    cases hdecoded : stored.bind (Rollup.decode? (α := α)) with
    | none =>
      rw [hdecoded] at hrange
      exact h.foldl hc hrest hrange
    | some b =>
      rw [hdecoded] at hrange
      have hb := hstored b hdecoded
      have htail : Counted.InRange (c :: rest) := by
        intro i
        have hall : (Counted.tally b i).toInt + Counted.counted i (c :: rest) ≤ _ := hrange i
        have hnonneg := h.nonneg hb i
        omega
      have hvalue := Counted.toInt_foldl htail (h.nonneg hc) fun x hx => h.nonneg (hrest x hx)
      refine h.merge hb (h.foldl hc hrest htail) fun i => ?_
      have hall : (Counted.tally b i).toInt + Counted.counted i (c :: rest) ≤ _ := hrange i
      show _ + (_ + 0) ≤ _
      rw [hvalue]
      omega

/-- What an origin adds to a row is its total, or what this has grown by since it was written. -/
theorem contribution [Cumulative α] (h : Survives P) {baselines : Dict OriginKey α} {e : Ledger.Entry α}
    {later : List α} {c : α} (htotal : P e.2) (hbaselines : ∀ base, baselines.get? e.1 = some base → P base)
    (hlater : ∀ x ∈ later, P x)
    (hgrown : ∀ base, baselines.get? e.1 = some base →
      (e.2 = later.foldl Rollup.merge base ∧ Counted.InRange (base :: later)) ∨ Rollup.since? e.2 base = some e.2)
    (hc : Ledger.contribution? baselines e = some c) : P c := by
  rw [Ledger.contribution?, Cumulative.mode_additive] at hc
  cases hbase : baselines.get? e.1 with
  | none =>
    rw [hbase] at hc
    cases hc
    exact htotal
  | some base =>
    rw [hbase] at hc
    rcases hgrown base hbase with ⟨hgrew, hfits⟩ | hanew
    · simp only [hgrew] at hc
      have hold := hbaselines base hbase
      exact h.growth hold hlater (h.foldl hold hlater hfits) hfits hc
    · simp only [hanew] at hc
      cases hc
      exact htotal

end Survives

theorem Obtained.has [Cumulative α] (h : Survives P) {id : String} {a : α} (ha : Obtained α id a) : P a := by
  induction ha with
  | call hcall => exact h.call hcall
  | merge _ _ hrange iha ihb => exact h.merge iha ihb hrange
  | growth later _ _ hrange hd ihbase ihlater => exact h.growth ihbase ihlater (h.foldl ihbase ihlater hrange) hrange hd
  | @row l store now id row a later _ _ _ _ hgrown hrange hrow ha ihrows ihbuffer ihbaselines ihlater =>
    cases hretention : l.retention? with
    | none =>
      have hsame : l.flush store now = ⟨[], some .overflow, l, store⟩ := by
        rw [Ledger.flush, hretention]
      rw [hsame] at hrow
      exact ihrows id row a hrow ha
    | some retention =>
      obtain ⟨done, rest, rows, records, -, hw, -⟩ :=
        Ledger.progress_write (l.nodup_due now retention) l.batchSize l.baselines store
      rw [Ledger.flush_eq hretention] at hrow
      simp only [hw.table] at hrow
      rcases Table.get?_upsert (store.table (Rollup.tag α)) (rows.map fun r => (r.1, Rollup.encode r.2)) id with
        ⟨new, hnew, hsome⟩ | ⟨-, hold⟩
      · obtain ⟨r, hr, heq⟩ := List.mem_map.1 hnew
        cases heq
        rw [hsome] at hrow
        cases hrow
        rw [Cumulative.decode?_encode] at ha
        cases ha
        -- the row is folded from the contributions of its origins
        obtain ⟨contributions, value, hcontributions, hvalue, hmerged⟩ := Ledger.contributions_of_fresh (hw.fresh r hr)
        rw [← hmerged]
        refine h.mergedRow (fun b hb => ?_) (fun c hc => ?_) (hrange _ _ _ hretention hcontributions) hvalue
        · obtain ⟨stored, hstored, hdecoded⟩ := Option.bind_eq_some_iff.1 hb
          exact ihrows r.1 stored b (Ledger.get?_of_storedRow hstored) hdecoded
        · obtain ⟨e, he, hec⟩ := Books.exists_of_mapM_eq_some hcontributions hc
          have hdue := (List.mem_filter.1 he).1
          have hbuffered := (mem_live.1 hdue).1
          exact h.contribution (ihbuffer e.1 e.2 hbuffered) (ihbaselines e.1) (ihlater e.1)
            (fun base => hgrown e.1 e.2 base hbuffered) hec
      · rw [hold] at hrow
        exact ihrows id row a hrow ha

end

/-! ### Calls between applications -/

namespace CallSummary

/-- Every call is of one band, and at most a failed one. -/
structure Consistent (m : CallSummary) : Prop where
  counters : ∀ i, 0 ≤ (m.tally i).toInt
  bands : (m.tally 0).toInt + (m.tally 1).toInt + (m.tally 2).toInt + (m.tally 3).toInt = (m.tally 5).toInt
  errors : (m.tally 4).toInt ≤ (m.tally 5).toInt

theorem consistent_call {m : CallSummary} (h : m.IsCall) : m.Consistent := by
  have hcounters := tally_call h
  obtain ⟨front, behind, bucket, millis, isError, rfl⟩ := h
  have hzero : (0 : Int64).toInt = 0 := by decide
  have hone : (1 : Int64).toInt = 1 := by decide
  have hfirst : (1000 : Int64).toInt = 1000 := by decide
  have hsecond : (3000 : Int64).toInt = 3000 := by decide
  have hthird : (5000 : Int64).toInt = 5000 := by decide
  refine ⟨hcounters, ?_, ?_⟩
  · simp only [tally, ofCall, decide_eq_true_eq, Int64.lt_iff_toInt_lt, Int64.le_iff_toInt_le]
    split_ifs <;> omega
  · cases isError <;> simp only [tally, ofCall] <;> decide

theorem bands_counted {xs : List CallSummary} (h : ∀ x ∈ xs, x.Consistent) :
    Counted.counted 0 xs + Counted.counted 1 xs + Counted.counted 2 xs + Counted.counted 3 xs = Counted.counted 5 xs ∧
      Counted.counted 4 xs ≤ Counted.counted 5 xs := by
  induction xs with
  | nil => exact ⟨rfl, Int.le_refl 0⟩
  | cons x rest ih =>
    obtain ⟨hbands, herrors⟩ := ih fun y hy => h y (List.mem_cons_of_mem _ hy)
    obtain ⟨-, hxbands, hxerrors⟩ := h x (List.mem_cons_self ..)
    have htally : ∀ i, (Counted.tally x i).toInt = (x.tally i).toInt := fun _ => rfl
    simp only [Counted.counted_cons, htally]
    constructor <;> omega

theorem survives_consistent : Survives Consistent where
  nonneg h := h.counters
  call := consistent_call
  merge {a b} ha hb hrange := by
    have hsum : ∀ i, ((Rollup.merge a b).tally i).toInt = (a.tally i).toInt + (b.tally i).toInt :=
      Counted.toInt_merge hrange ha.counters hb.counters
    refine ⟨fun i => ?_, ?_, ?_⟩
    · have hai := ha.counters i
      have hbi := hb.counters i
      rw [hsum]
      omega
    · have habands := ha.bands
      have hbbands := hb.bands
      simp only [hsum]
      omega
    · have haerrors := ha.errors
      have hberrors := hb.errors
      simp only [hsum]
      omega
  growth {base d later} hbase hlater _ hrange hd := by
    have hsum : ∀ i, (d.tally i).toInt = Counted.counted i later :=
      Counted.toInt_since hrange hbase.counters (fun x hx => (hlater x hx).counters) hd
    obtain ⟨hbands, herrors⟩ := bands_counted hlater
    refine ⟨fun i => ?_, ?_, ?_⟩
    · rw [hsum]
      exact Counted.counted_nonneg_of i fun x hx => (hlater x hx).counters i
    · simp only [hsum]
      exact hbands
    · simp only [hsum]
      exact herrors

end CallSummary

/-! ### Slow traces -/

namespace SlowTrace
variable {ts xs ys : List SlowTrace} {top m n : Int64}

/-- The slowest traces of statistics, the slowest of all with this duration. -/
structure Ranked (ts : List SlowTrace) (top : Int64) : Prop where
  length_le : ts.length ≤ 5
  sorted : ts.Pairwise Ahead
  distinct : (ts.map traceId).Nodup
  slowest : ∃ t, ts.head? = some t ∧ t.millis = top

theorem millis_le_head {t : SlowTrace} (h : (t :: ts).Pairwise Ahead) : ∀ s ∈ t :: ts, s.millis.toInt ≤ t.millis.toInt := by
  intro s hs
  rcases List.mem_cons.1 hs with rfl | hs
  · exact Int.le_refl _
  · rcases (List.pairwise_cons.1 h).1 s hs with hlt | ⟨heq, -⟩
    · exact Int.le_of_lt (Int64.lt_iff_toInt_lt.1 hlt)
    · exact Int.le_of_eq (congrArg Int64.toInt heq.symm)

theorem Ranked.millis_le (h : Ranked ts top) : ∀ s ∈ ts, s.millis.toInt ≤ top.toInt := by
  obtain ⟨t, hhead, rfl⟩ := h.slowest
  cases ts with
  | nil => cases hhead
  | cons t rest =>
    cases hhead
    exact millis_le_head h.sorted

theorem Ranked.mem (h : Ranked ts top) : ∃ t ∈ ts, t.millis = top := by
  obtain ⟨t, hhead, htop⟩ := h.slowest
  exact ⟨t, List.mem_of_head? hhead, htop⟩

theorem ranked_topTraces (hle : ∀ t ∈ ts, t.millis.toInt ≤ top.toInt) (hmem : ∃ t ∈ ts, t.millis = top) :
    Ranked (topTraces ts) top := by
  have hranking := ranking_sorted ts
  have hnodup : (((longest ts).mergeSort before).map traceId).Nodup :=
    ((List.mergeSort_perm _ before).map traceId).nodup_iff.2 (nodup_longest ts)
  refine ⟨length_topTraces ts, hranking.sorted.sublist (List.take_sublist _ _),
    hnodup.sublist ((List.take_sublist _ _).map traceId), ?_⟩
  obtain ⟨s, hs, rfl⟩ := hmem
  -- the entry that is kept for the slowest trace is as slow as the head
  obtain ⟨millis, hpeak, hmillis⟩ := exists_peak_of_mem hs
  have hkept : ⟨millis, s.traceId⟩ ∈ (longest ts).mergeSort before :=
    (hranking.members _).2 (peak_eq_some_iff.1 hpeak)
  unfold topTraces
  cases hall : (longest ts).mergeSort before with
  | nil =>
    rw [hall] at hkept
    cases hkept
  | cons t rest =>
    refine ⟨t, rfl, ?_⟩
    have hin : t ∈ ts := ((hranking.members t).1 (hall ▸ List.mem_cons_self ..)).1
    have hhead := millis_le_head (hall ▸ hranking.sorted) _ (hall ▸ hkept)
    have hbound := hle t hin
    apply Int64.toInt_inj.1
    simp only at hhead
    omega

theorem Ranked.merge (hx : Ranked xs m) (hy : Ranked ys n) : Ranked (topTraces (xs ++ ys)) (max m n) := by
  have hmax := toInt_max m n
  apply ranked_topTraces
  · intro t ht
    rcases List.mem_append.1 ht with ht | ht
    · have hle := hx.millis_le t ht
      omega
    · have hle := hy.millis_le t ht
      omega
  · obtain ⟨s, hs, hsm⟩ := hx.mem
    obtain ⟨t, ht, htn⟩ := hy.mem
    by_cases hle : n.toInt ≤ m.toInt
    · exact ⟨s, List.mem_append_left _ hs, hsm.trans (Int64.toInt_inj.1 (by omega))⟩
    · exact ⟨t, List.mem_append_right _ ht, htn.trans (Int64.toInt_inj.1 (by omega))⟩

end SlowTrace

/-! ### Statistics -/

namespace ServiceStats
variable {a b m x : ServiceStats} {xs : List ServiceStats}

/-- The extremes of statistics bound those of a record, unless this counts no calls. -/
structure Covers (m x : ServiceStats) : Prop where
  least : 0 < x.calls.toInt → m.minDuration.toInt ≤ x.minDuration.toInt
  greatest : x.maxDuration.toInt ≤ m.maxDuration.toInt

theorem Covers.refl (m : ServiceStats) : Covers m m := ⟨fun _ => Int.le_refl _, Int.le_refl _⟩

theorem Covers.trans (h : Covers m a) (h' : Covers a x) (hcalls : 0 < x.calls.toInt → 0 < a.calls.toInt) :
    Covers m x where
  least hx := Int.le_trans (h.least (hcalls hx)) (h'.least hx)
  greatest := Int.le_trans h'.greatest h.greatest

theorem calls_pos_merge (ha : 0 ≤ a.calls.toInt) (hb : 0 ≤ b.calls.toInt) (h : 0 < a.calls.toInt ∨ 0 < b.calls.toInt) :
    0 < (Rollup.merge a b).calls.toInt := by
  show 0 < (Counter.add a.calls b.calls).toInt
  rw [Counter.toInt_add]
  omega

theorem covers_merge (ha : 0 ≤ a.calls.toInt) (b : ServiceStats) :
    Covers (Rollup.merge a b) a ∧ Covers (Rollup.merge a b) b := by
  have hmax : (Rollup.merge a b).maxDuration.toInt = max a.maxDuration.toInt b.maxDuration.toInt :=
    SlowTrace.toInt_max _ _
  have hmin := Extreme.toInt_min a.minDuration b.minDuration
  have hcalls : a.calls = 0 ↔ a.calls.toInt = 0 := by rw [← Int64.toInt_inj, Int64.toInt_zero]
  have hpos : 0 < b.calls ↔ 0 < b.calls.toInt := by rw [Int64.lt_iff_toInt_lt, Int64.toInt_zero]
  have hleast : (Rollup.merge a b).minDuration = mergeMin a b := rfl
  refine ⟨⟨fun h => ?_, by omega⟩, ⟨fun h => ?_, by omega⟩⟩
  · have hsome : a.calls.toInt ≠ 0 := by omega
    rw [hleast, mergeMin, if_neg (mt hcalls.1 hsome)]
    split <;> omega
  · rw [hleast, mergeMin]
    split
    · exact Int.le_refl _
    · rw [if_pos (hpos.2 h)]
      omega

/-- The extremes of a total bound those of all that was merged into it. -/
theorem covers_foldl (ha : 0 ≤ a.calls.toInt) (hxs : ∀ x ∈ xs, 0 ≤ x.calls.toInt) :
    ∀ x ∈ a :: xs, Covers (xs.foldl Rollup.merge a) x := by
  induction xs generalizing a with
  | nil =>
    intro x hx
    rw [List.mem_singleton.1 hx]
    exact Covers.refl a
  | cons y rest ih =>
    have hy := hxs y (List.mem_cons_self ..)
    have hnonneg : 0 ≤ (Rollup.merge a y).calls.toInt := by
      show 0 ≤ (Counter.add a.calls y.calls).toInt
      rw [Counter.toInt_add]
      omega
    have hall := ih hnonneg fun z hz => hxs z (List.mem_cons_of_mem _ hz)
    have hfirst := hall _ (List.mem_cons_self ..)
    obtain ⟨hcoversA, hcoversY⟩ := covers_merge ha y
    intro x hx
    rcases List.mem_cons.1 hx with rfl | hx
    · exact hfirst.trans hcoversA fun h => calls_pos_merge ha hy (Or.inl h)
    · rcases List.mem_cons.1 hx with rfl | hx
      · exact hfirst.trans hcoversY fun h => calls_pos_merge ha hy (Or.inr h)
      · exact hall x (List.mem_cons_of_mem _ hx)

/-- The durations of calls lie between the extremes, and the slowest traces are those of the calls. -/
structure Consistent (m : ServiceStats) : Prop where
  counters : ∀ i, 0 ≤ (m.tally i).toInt
  errors : m.errorCalls.toInt ≤ m.calls.toInt
  least : 0 ≤ m.minDuration.toInt
  greatest : m.minDuration.toInt ≤ m.maxDuration.toInt
  above : m.calls.toInt * m.minDuration.toInt ≤ m.durationSum.toInt
  below : m.durationSum.toInt ≤ m.calls.toInt * m.maxDuration.toInt
  traces : SlowTrace.Ranked m.slowTraces m.maxDuration

theorem Consistent.between (h : Consistent x) (hc : Covers m x) :
    x.calls.toInt * m.minDuration.toInt ≤ x.durationSum.toInt ∧
      x.durationSum.toInt ≤ x.calls.toInt * m.maxDuration.toInt := by
  have hcalls : 0 ≤ x.calls.toInt := h.counters 0
  constructor
  · by_cases hpos : 0 < x.calls.toInt
    · calc x.calls.toInt * m.minDuration.toInt
          ≤ x.calls.toInt * x.minDuration.toInt := Int.mul_le_mul_of_nonneg_left (hc.least hpos) hcalls
        _ ≤ x.durationSum.toInt := h.above
    · have hsum : 0 ≤ x.durationSum.toInt := h.counters 2
      have hnone : x.calls.toInt = 0 := by omega
      rw [hnone, Int.zero_mul]
      exact hsum
  · calc x.durationSum.toInt
        ≤ x.calls.toInt * x.maxDuration.toInt := h.below
      _ ≤ x.calls.toInt * m.maxDuration.toInt := Int.mul_le_mul_of_nonneg_left hc.greatest hcalls

theorem counted_between (hxs : ∀ x ∈ xs, Consistent x ∧ Covers m x) :
    Counted.counted 0 xs * m.minDuration.toInt ≤ Counted.counted 2 xs ∧
      Counted.counted 2 xs ≤ Counted.counted 0 xs * m.maxDuration.toInt ∧
      Counted.counted 1 xs ≤ Counted.counted 0 xs := by
  induction xs with
  | nil =>
    have hnone : ∀ i, Counted.counted (α := ServiceStats) i [] = 0 := fun _ => rfl
    simp only [hnone, Int.zero_mul]
    omega
  | cons x rest ih =>
    obtain ⟨habove, hbelow, herrors⟩ := ih fun y hy => hxs y (List.mem_cons_of_mem _ hy)
    obtain ⟨hx, hcovers⟩ := hxs x (List.mem_cons_self ..)
    obtain ⟨hxabove, hxbelow⟩ := hx.between hcovers
    have hxerrors := hx.errors
    have hcalls : (Counted.tally x 0).toInt = x.calls.toInt := rfl
    have hfailed : (Counted.tally x 1).toInt = x.errorCalls.toInt := rfl
    have hsum : (Counted.tally x 2).toInt = x.durationSum.toInt := rfl
    simp only [Counted.counted_cons, hcalls, hfailed, hsum, Int.add_mul]
    refine ⟨?_, ?_, ?_⟩ <;> omega

theorem consistent_call (h : m.IsCall) : m.Consistent := by
  have hcounters := tally_call h
  obtain ⟨service, application, bucket, millis, isError, traceId, rfl⟩ := h
  have hone : (1 : Int64).toInt = 1 := by decide
  have hmax := SlowTrace.toInt_max millis 0
  have hzero : (0 : Int64).toInt = 0 := by decide
  refine ⟨hcounters, ?_, ?_, Int.le_refl _, ?_, ?_, ?_, ?_, ?_, _, rfl, rfl⟩
  · cases isError <;> simp only [ofCall] <;> decide
  · show 0 ≤ (max millis 0).toInt
    omega
  · show (1 : Int64).toInt * _ ≤ _
    rw [hone, Int.one_mul]
    exact Int.le_refl _
  · show _ ≤ (1 : Int64).toInt * _
    rw [hone, Int.one_mul]
    exact Int.le_refl _
  · exact Nat.le_add_left 1 4
  · exact List.pairwise_singleton _ _
  · exact List.nodup_singleton _

theorem Consistent.merge (ha : a.Consistent) (hb : b.Consistent) (hrange : Counted.InRange [a, b]) :
    (Rollup.merge a b).Consistent := by
  have hsum := Counted.toInt_merge hrange ha.counters hb.counters
  have hcalls : (Rollup.merge a b).calls.toInt = a.calls.toInt + b.calls.toInt := hsum 0
  have herrors : (Rollup.merge a b).errorCalls.toInt = a.errorCalls.toInt + b.errorCalls.toInt := hsum 1
  have hdurations : (Rollup.merge a b).durationSum.toInt = a.durationSum.toInt + b.durationSum.toInt := hsum 2
  have hmax : (Rollup.merge a b).maxDuration.toInt = max a.maxDuration.toInt b.maxDuration.toInt :=
    SlowTrace.toInt_max _ _
  have hmin := Extreme.toInt_min a.minDuration b.minDuration
  have hleast : (Rollup.merge a b).minDuration = mergeMin a b := rfl
  obtain ⟨hcoversA, hcoversB⟩ := covers_merge (ha.counters 0) b
  obtain ⟨haabove, habelow⟩ := ha.between hcoversA
  obtain ⟨hbabove, hbbelow⟩ := hb.between hcoversB
  have haerrors := ha.errors
  have hberrors := hb.errors
  have haleast := ha.least
  have hbleast := hb.least
  have hagreatest := ha.greatest
  have hbgreatest := hb.greatest
  refine ⟨fun i => ?_, by omega, ?_, ?_, ?_, ?_, ha.traces.merge hb.traces⟩
  · have hai : 0 ≤ (Counted.tally a i).toInt := ha.counters i
    have hbi : 0 ≤ (Counted.tally b i).toInt := hb.counters i
    show 0 ≤ (Counted.tally (Rollup.merge a b) i).toInt
    rw [hsum]
    omega
  · rw [hleast, mergeMin]
    split_ifs <;> omega
  · rw [hleast, mergeMin]
    split_ifs <;> omega
  · rw [hcalls, hdurations, Int.add_mul]
    omega
  · rw [hcalls, hdurations, Int.add_mul]
    omega

theorem Consistent.growth {base d : ServiceStats} {later : List ServiceStats} (hbase : base.Consistent)
    (hlater : ∀ x ∈ later, x.Consistent) (hnow : (later.foldl Rollup.merge base).Consistent)
    (hrange : Counted.InRange (base :: later))
    (hd : Rollup.since? (later.foldl Rollup.merge base) base = some d) : d.Consistent := by
  have hkeep := of_since hd
  have hmin : d.minDuration = (later.foldl Rollup.merge base).minDuration := by rw [hkeep]
  have hmax : d.maxDuration = (later.foldl Rollup.merge base).maxDuration := by rw [hkeep]
  have htraces : d.slowTraces = (later.foldl Rollup.merge base).slowTraces := by rw [hkeep]
  have hsum := Counted.toInt_since hrange hbase.counters (fun x hx => (hlater x hx).counters) hd
  have hcalls : d.calls.toInt = Counted.counted 0 later := hsum 0
  have herrors : d.errorCalls.toInt = Counted.counted 1 later := hsum 1
  have hdurations : d.durationSum.toInt = Counted.counted 2 later := hsum 2
  -- the extremes are still those of the whole, and so bound all that was merged into it
  have hcovers := covers_foldl (hbase.counters 0) fun x hx => (hlater x hx).counters 0
  obtain ⟨habove, hbelow, hfailed⟩ :=
    counted_between fun x hx => ⟨hlater x hx, hcovers x (List.mem_cons_of_mem _ hx)⟩
  refine ⟨fun i => ?_, by omega, ?_, ?_, ?_, ?_, ?_⟩
  · show 0 ≤ (Counted.tally d i).toInt
    rw [hsum]
    exact Counted.counted_nonneg_of i fun x hx => (hlater x hx).counters i
  · rw [hmin]
    exact hnow.least
  · rw [hmin, hmax]
    exact hnow.greatest
  · rw [hcalls, hdurations, hmin]
    exact habove
  · rw [hcalls, hdurations, hmax]
    exact hbelow
  · rw [htraces, hmax]
    exact hnow.traces

theorem survives_consistent : Survives Consistent where
  nonneg h := h.counters
  call := consistent_call
  merge := Consistent.merge
  growth := Consistent.growth

end ServiceStats

/-! ### All records of calls -/

/-- The fields of all that is made of calls fit together. -/
theorem consistent_throughout :
    (∀ {id : String} {m : CallSummary}, Obtained CallSummary id m →
      m.withinOne.toInt + m.withinThree.toInt + m.withinFive.toInt + m.slower.toInt = m.calls.toInt ∧
        0 ≤ m.errors.toInt ∧ m.errors.toInt ≤ m.calls.toInt ∧ 0 ≤ m.costSum.toInt) ∧
    ∀ {id : String} {m : ServiceStats}, Obtained ServiceStats id m →
      0 ≤ m.errorCalls.toInt ∧ m.errorCalls.toInt ≤ m.calls.toInt ∧
        0 ≤ m.minDuration.toInt ∧ m.minDuration.toInt ≤ m.maxDuration.toInt ∧
        m.calls.toInt * m.minDuration.toInt ≤ m.durationSum.toInt ∧
        m.durationSum.toInt ≤ m.calls.toInt * m.maxDuration.toInt ∧
        m.slowTraces ≠ [] ∧ m.slowTraces.length ≤ 5 ∧ m.slowTraces.Pairwise SlowTrace.Ahead ∧
        (m.slowTraces.map SlowTrace.traceId).Nodup ∧
        ∃ t, m.slowTraces.head? = some t ∧ t.millis = m.maxDuration := by
  constructor
  · intro id m h
    have hm := h.has CallSummary.survives_consistent
    exact ⟨hm.bands, hm.counters 4, hm.errors, hm.counters 6⟩
  · intro id m h
    have hm := h.has ServiceStats.survives_consistent
    obtain ⟨t, ht, -⟩ := hm.traces.mem
    exact ⟨hm.counters 1, hm.errors, hm.least, hm.greatest, hm.above, hm.below, List.ne_nil_of_mem ht,
      hm.traces.length_le, hm.traces.sorted, hm.traces.distinct, hm.traces.slowest⟩

/-! ### A call that is added to a stored row -/

theorem Dict.eq_of_get?_single {κ α : Type} [DecidableEq κ] {k j : κ} {v w : α}
    (h : ((Dict.empty : Dict κ α).set k v).get? j = some w) : j = k ∧ w = v := by
  rw [Dict.get?_set] at h
  split at h
  · rename_i hj
    exact ⟨hj, (Option.some.inj h).symm⟩
  · cases h

namespace CallSummary

theorem counted_beyond (j : Nat) (xs : List CallSummary) : Counted.counted (j + 7) xs = 0 := by
  induction xs with
  | nil => rfl
  | cons x rest ih =>
    have hx : (Counted.tally x (j + 7)).toInt = 0 := Int64.toInt_zero
    rw [Counted.counted_cons, hx, ih, Int.add_zero]

theorem inRange_of_lt {xs : List CallSummary} (h : ∀ i < 7, Counted.counted i xs ≤ 9223372036854775807) :
    Counted.InRange xs := by
  intro i
  by_cases hi : i < 7
  · exact h i hi
  · obtain ⟨j, rfl⟩ := Nat.exists_eq_add_of_le' (Nat.le_of_not_lt hi)
    rw [counted_beyond]
    decide

def quick : CallSummary := ofCall 1 2 ⟨201801011234⟩ 100 false
def failing : CallSummary := ofCall 1 2 ⟨201801011234⟩ 4000 true

/-- A ledger that has written the quick call and holds the total of both. -/
def growing : Ledger CallSummary where
  pipeline := ⟨1⟩
  window := .ofSeconds 600
  batchSize := 2000
  buffer := Dict.empty.set ("a", quick.id) (merge quick failing)
  baselines := Dict.empty.set ("a", quick.id) quick

def quickStored : Store := (Store.fresh.upsert tag [(quick.id, quick.encode)]).2

theorem obtained_growing {row : Json} {m : CallSummary}
    (hrow : ((growing.flush quickStored .epoch).store.table tag).get? quick.id = some row) (hm : decode? row = some m) :
    Obtained CallSummary quick.id m := by
  have hquick : Obtained CallSummary quick.id quick := .call ⟨_, _, _, _, _, rfl⟩
  have hfailing : Obtained CallSummary quick.id failing := .call (a := failing) ⟨_, _, _, _, _, rfl⟩
  have hpair : Counted.InRange [quick, failing] := inRange_of_lt (by decide +kernel)
  have hdecoded : Rollup.decode? quick.encode = some quick := decode?_encode quick
  let later (key : OriginKey) : List CallSummary := if key = ("a", quick.id) then [failing] else []
  refine .row (l := growing) later (fun id stored a hget ha => ?_) (fun key b hb => ?_) (fun key base hbase => ?_)
    (fun key x hx => ?_) (fun key b base hb hbase => Or.inl ?_)
    (fun id retention contributions hretention hcontributions => ?_) hrow hm
  · obtain ⟨rfl, rfl⟩ := Dict.eq_of_get?_single (hget : (Dict.empty.set quick.id quick.encode).get? id = some stored)
    rw [hdecoded] at ha
    cases ha
    exact hquick
  · obtain ⟨rfl, rfl⟩ := Dict.eq_of_get?_single hb
    exact .merge hquick hfailing hpair
  · obtain ⟨rfl, rfl⟩ := Dict.eq_of_get?_single hbase
    exact hquick
  · by_cases hkey : key = ("a", quick.id)
    · simp only [later, if_pos hkey, List.mem_singleton] at hx
      rw [hkey, hx]
      exact hfailing
    · simp only [later, if_neg hkey] at hx
      cases hx
  · obtain ⟨rfl, rfl⟩ := Dict.eq_of_get?_single hb
    obtain ⟨-, rfl⟩ := Dict.eq_of_get?_single hbase
    simp only [later, if_true]
    exact ⟨rfl, hpair⟩
  · have htwice : growing.retention? = some (.ofSeconds 1200) := by decide +kernel
    rw [htwice] at hretention
    cases hretention
    have hdue : growing.due .epoch (.ofSeconds 1200) = [(("a", quick.id), merge quick failing)] := by decide +kernel
    have hgrowth : [(("a", quick.id), merge quick failing)].mapM (Ledger.contribution? growing.baselines) =
        some [failing] := by decide +kernel
    have hrowOf : Ledger.storedRow CallSummary quickStored id = (Dict.empty.set quick.id quick.encode).get? id := rfl
    rw [hdue, Ledger.entriesOf] at hcontributions
    rw [hrowOf, Dict.get?_set]
    by_cases hid : id = quick.id
    · subst hid
      rw [List.filter_cons_of_pos (by simp), List.filter_nil, hgrowth] at hcontributions
      cases hcontributions
      rw [if_pos rfl, Option.bind_some, hdecoded]
      exact hpair
    · rw [List.filter_cons_of_neg (by simp [Ne.symm hid]), List.filter_nil] at hcontributions
      cases hcontributions
      rw [if_neg hid]
      intro i
      show (0 : Int) ≤ _
      decide

end CallSummary

namespace ServiceStats

def slowCall : ServiceStats := .ofCall 1 1 ⟨201801011234⟩ 100 false "a"
def fastCall : ServiceStats := .ofCall 1 1 ⟨201801011234⟩ 40 true "b"

/-- What the total of both calls has grown by since the first: the counters of the second with the
extremes and the traces of both. -/
def grown : ServiceStats := { merge slowCall fastCall with calls := 1, errorCalls := 1, durationSum := 40 }

theorem obtained_grown : Obtained ServiceStats slowCall.id grown := by
  have hslow : Obtained ServiceStats slowCall.id slowCall := .call ⟨_, _, _, _, _, _, rfl⟩
  have hfast : Obtained ServiceStats slowCall.id fastCall := .call (a := fastCall) ⟨_, _, _, _, _, _, rfl⟩
  refine .growth [fastCall] hslow (fun x hx => ?_) (fun i => ?_) rfl
  · rw [List.mem_singleton.1 hx]
    exact hfast
  · have hcounters : ∀ i < 3, Counted.counted i [slowCall, fastCall] ≤ 9223372036854775807 := by decide +kernel
    by_cases hi : i < 3
    · exact hcounters i hi
    · obtain ⟨j, rfl⟩ := Nat.exists_eq_add_of_le' (Nat.le_of_not_lt hi)
      show (0 : Int64).toInt + ((0 : Int64).toInt + 0) ≤ _
      decide

end ServiceStats

/-- A flush adds the growth of a total to a row; the growth of statistics is bounded by what it
was left of. -/
theorem consistent_throughout_grown :
    (∃ row m, ((CallSummary.growing.flush CallSummary.quickStored .epoch).store.table CallSummary.tag).get?
        CallSummary.quick.id = some row ∧ CallSummary.decode? row = some m ∧
        (m.withinOne, m.withinFive, m.errors, m.calls, m.costSum) = (1, 1, 1, 2, 4100) ∧
        m.errors.toInt ≤ m.calls.toInt) ∧
      ServiceStats.grown.calls.toInt * ServiceStats.grown.minDuration.toInt ≤ ServiceStats.grown.durationSum.toInt := by
  constructor
  · let both := CallSummary.merge CallSummary.quick CallSummary.failing
    have hread : (((CallSummary.growing.flush CallSummary.quickStored .epoch).store.table CallSummary.tag).get?
        CallSummary.quick.id).bind CallSummary.decode? = some both := by decide +kernel
    obtain ⟨row, hrow, hm⟩ := Option.bind_eq_some_iff.1 hread
    obtain ⟨-, -, herrors, -⟩ := consistent_throughout.1 (CallSummary.obtained_growing hrow hm)
    exact ⟨row, both, hrow, hm, by decide +kernel, herrors⟩
  · exact (consistent_throughout.2 ServiceStats.obtained_grown).2.2.2.2.1

end TraceRollup
