import TraceRollup.Proofs.Statistics

/-!
# Merging in any order

Records of a key can be merged two at a time in many ways, each of which is a `MergeTree` over
them. What comes of it is told by the records alone: the counters are the sums of theirs, as far
as 64 bits go (`MergeTree.tally_merged`), and the slowest traces are the first five of all traces
in their ranking (`SlowTrace.Ranking`). So the order and the grouping do not matter
(`merged_any_order`).
-/

namespace TraceRollup

/-! ### Trees of merges -/

inductive MergeTree (α : Type)
  | leaf (a : α)
  | node (left right : MergeTree α)

namespace MergeTree
variable {α : Type}

def leaves : MergeTree α → List α
  | leaf a => [a]
  | node left right => left.leaves ++ right.leaves

theorem leaves_ne_nil (t : MergeTree α) : t.leaves ≠ [] := by
  induction t with
  | leaf a => exact List.cons_ne_nil a []
  | node left right ihl _ => exact List.append_ne_nil_of_left_ne_nil ihl right.leaves

theorem exists_leaves_eq {ms : List α} (h : ms ≠ []) : ∃ t : MergeTree α, t.leaves = ms := by
  induction ms with
  | nil => exact absurd rfl h
  | cons m rest ih =>
    by_cases hrest : rest = []
    · exact ⟨leaf m, by rw [hrest]; rfl⟩
    · obtain ⟨t, ht⟩ := ih hrest
      exact ⟨node (leaf m) t, congrArg (m :: ·) ht⟩

def merged [Rollup α] : MergeTree α → α
  | leaf a => a
  | node left right => Rollup.merge left.merged right.merged

end MergeTree

/-! ### Sums and extremes of lists -/

section
variable {α : Type} [Rollup α] [Counted α] {xs ys : List α}

namespace Counted

theorem counted_append (i : Nat) (xs ys : List α) : counted i (xs ++ ys) = counted i xs + counted i ys := by
  induction xs with
  | nil => exact (Int.zero_add _).symm
  | cons a rest ih =>
    show (tally a i).toInt + counted i (rest ++ ys) = (tally a i).toInt + counted i rest + counted i ys
    rw [ih, Int.add_assoc]

theorem counted_nonneg_of (i : Nat) (h : ∀ a ∈ xs, 0 ≤ (tally a i).toInt) : 0 ≤ counted i xs := by
  induction xs with
  | nil => exact Int.le_refl 0
  | cons a rest ih =>
    have ha := h a (List.mem_cons_self ..)
    have hrest := ih fun b hb => h b (List.mem_cons_of_mem _ hb)
    show 0 ≤ (tally a i).toInt + counted i rest
    omega

theorem counted_perm (i : Nat) (h : xs.Perm ys) : counted i xs = counted i ys := by
  induction h with
  | nil => rfl
  | cons a _ ih => exact congrArg ((tally a i).toInt + ·) ih
  | swap a b rest =>
    show (tally b i).toInt + ((tally a i).toInt + counted i rest) =
      (tally a i).toInt + ((tally b i).toInt + counted i rest)
    omega
  | trans _ _ ih₁ ih₂ => exact ih₁.trans ih₂

end Counted

/-- The counters of records that are merged in some way add up. -/
theorem MergeTree.tally_merged (t : MergeTree α) (i : Nat) (h : ∀ a ∈ t.leaves, 0 ≤ (Counted.tally a i).toInt) :
    (Counted.tally t.merged i).toInt = min 9223372036854775807 (Counted.counted i t.leaves) := by
  induction t with
  | leaf a =>
    have hlt := (Counted.tally a i).toInt_lt
    show (Counted.tally a i).toInt = min 9223372036854775807 ((Counted.tally a i).toInt + 0)
    omega
  | node left right ihl ihr =>
    have hl : ∀ a ∈ left.leaves, 0 ≤ (Counted.tally a i).toInt := fun a ha => h a (List.mem_append_left _ ha)
    have hr : ∀ a ∈ right.leaves, 0 ≤ (Counted.tally a i).toInt := fun a ha => h a (List.mem_append_right _ ha)
    have hsumL := Counted.counted_nonneg_of i hl
    have hsumR := Counted.counted_nonneg_of i hr
    rw [merged, Counted.tally_merge, Counter.toInt_add, ihl hl, ihr hr, leaves, Counted.counted_append]
    omega

end

section
variable {α : Type} {f : α → Int64} {xs ys : List α} {m n : Int64}

/-- One of the values that is not above any other. -/
def IsLeast (f : α → Int64) (xs : List α) (m : Int64) : Prop :=
  (∃ a ∈ xs, f a = m) ∧ ∀ a ∈ xs, m.toInt ≤ (f a).toInt

def IsGreatest (f : α → Int64) (xs : List α) (m : Int64) : Prop :=
  (∃ a ∈ xs, f a = m) ∧ ∀ a ∈ xs, (f a).toInt ≤ m.toInt

theorem IsLeast.append (hm : IsLeast f xs m) (hn : IsLeast f ys n) : IsLeast f (xs ++ ys) (min m n) := by
  have hmin := Extreme.toInt_min m n
  obtain ⟨⟨a, ha, hfa⟩, hxs⟩ := hm
  obtain ⟨⟨b, hb, hfb⟩, hys⟩ := hn
  refine ⟨?_, fun x hx => ?_⟩
  · by_cases hle : m.toInt ≤ n.toInt
    · exact ⟨a, List.mem_append_left _ ha, hfa.trans (Int64.toInt_inj.1 (by omega))⟩
    · exact ⟨b, List.mem_append_right _ hb, hfb.trans (Int64.toInt_inj.1 (by omega))⟩
  · rcases List.mem_append.1 hx with hx | hx
    · have h := hxs x hx
      omega
    · have h := hys x hx
      omega

theorem IsGreatest.append (hm : IsGreatest f xs m) (hn : IsGreatest f ys n) :
    IsGreatest f (xs ++ ys) (max m n) := by
  have hmax := SlowTrace.toInt_max m n
  obtain ⟨⟨a, ha, hfa⟩, hxs⟩ := hm
  obtain ⟨⟨b, hb, hfb⟩, hys⟩ := hn
  refine ⟨?_, fun x hx => ?_⟩
  · by_cases hle : n.toInt ≤ m.toInt
    · exact ⟨a, List.mem_append_left _ ha, hfa.trans (Int64.toInt_inj.1 (by omega))⟩
    · exact ⟨b, List.mem_append_right _ hb, hfb.trans (Int64.toInt_inj.1 (by omega))⟩
  · rcases List.mem_append.1 hx with hx | hx
    · have h := hxs x hx
      omega
    · have h := hys x hx
      omega

theorem IsLeast.perm (hp : xs.Perm ys) (hm : IsLeast f xs m) : IsLeast f ys m := by
  obtain ⟨⟨a, ha, hfa⟩, hle⟩ := hm
  exact ⟨⟨a, hp.mem_iff.1 ha, hfa⟩, fun b hb => hle b (hp.mem_iff.2 hb)⟩

theorem IsGreatest.perm (hp : xs.Perm ys) (hm : IsGreatest f xs m) : IsGreatest f ys m := by
  obtain ⟨⟨a, ha, hfa⟩, hle⟩ := hm
  exact ⟨⟨a, hp.mem_iff.1 ha, hfa⟩, fun b hb => hle b (hp.mem_iff.2 hb)⟩

theorem IsLeast.unique (hm : IsLeast f xs m) (hn : IsLeast f xs n) : m = n := by
  obtain ⟨⟨a, ha, rfl⟩, hle⟩ := hm
  obtain ⟨⟨b, hb, rfl⟩, hle'⟩ := hn
  exact Int64.toInt_inj.1 (Int.le_antisymm (hle b hb) (hle' a ha))

theorem IsGreatest.unique (hm : IsGreatest f xs m) (hn : IsGreatest f xs n) : m = n := by
  obtain ⟨⟨a, ha, rfl⟩, hle⟩ := hm
  obtain ⟨⟨b, hb, rfl⟩, hle'⟩ := hn
  exact Int64.toInt_inj.1 (Int.le_antisymm (hle' a ha) (hle b hb))

end

/-! ### The ranking of traces -/

namespace SlowTrace
variable {ts all other : List SlowTrace}

def Ahead (s t : SlowTrace) : Prop := t.millis < s.millis ∨ (s.millis = t.millis ∧ s.traceId < t.traceId)

/-- The longest entry of each trace in a list, the slowest trace first. -/
structure Ranking (ts all : List SlowTrace) : Prop where
  sorted : all.Pairwise Ahead
  members : ∀ t, t ∈ all ↔ t ∈ ts ∧ ∀ s ∈ ts, s.traceId = t.traceId → s.millis ≤ t.millis

theorem peak_eq_some_iff {id : String} {m : Int64} :
    peak ts id = some m ↔ ⟨m, id⟩ ∈ ts ∧ ∀ s ∈ ts, s.traceId = id → s.millis ≤ m := by
  induction ts generalizing m with
  | nil => simp [peak]
  | cons t rest ih =>
    obtain ⟨millis, traceId⟩ := t
    rw [peak_cons]
    by_cases hid : traceId = id
    · subst hid
      rw [if_pos rfl]
      simp only [List.mem_cons, SlowTrace.mk.injEq, and_true, forall_eq_or_imp, true_implies]
      cases hrest : peak rest traceId with
      | none =>
        have hno : ∀ s ∈ rest, s.traceId ≠ traceId := by
          intro s hs hs'
          obtain ⟨n, hn, _⟩ := exists_peak_of_mem hs
          rw [hs', hrest] at hn
          cases hn
        rw [longer_none, Option.some.injEq]
        constructor
        · rintro rfl
          exact ⟨Or.inl rfl, Int64.le_refl _, fun s hs h => absurd h (hno s hs)⟩
        · rintro ⟨rfl | hmem, -⟩
          · rfl
          · exact absurd rfl (hno _ hmem)
      | some n =>
        obtain ⟨hn, hle⟩ := ih.1 hrest
        have hmax := toInt_max millis n
        have hlonger : longer (some millis) (some n) = some (max millis n) := rfl
        rw [hlonger, Option.some.injEq]
        simp only [Int64.le_iff_toInt_le] at hle ⊢
        constructor
        · rintro rfl
          refine ⟨?_, by omega, fun s hs h => ?_⟩
          · by_cases hlt : n.toInt ≤ millis.toInt
            · exact Or.inl (Int64.toInt_inj.1 (by omega))
            · refine Or.inr ?_
              rwa [show max millis n = n from Int64.toInt_inj.1 (by omega)]
          · have := hle s hs h
            omega
        · rintro ⟨hmem, hmillis, hrest⟩
          have hnm : n.toInt ≤ m.toInt := hrest _ hn rfl
          refine Int64.toInt_inj.1 ?_
          rcases hmem with rfl | hmem
          · omega
          · have hmn : m.toInt ≤ n.toInt := hle _ hmem rfl
            omega
    · rw [if_neg hid, ih]
      simp [hid, Ne.symm hid]

theorem ranking_sorted (ts : List SlowTrace) : Ranking ts ((longest ts).mergeSort before) where
  sorted := by
    have hnodup : ((longest ts).mergeSort before).Pairwise fun s t => s.traceId ≠ t.traceId :=
      List.pairwise_map.1 (((List.mergeSort_perm _ before).map traceId).nodup_iff.2 (nodup_longest ts))
    refine (pairwise_sorted (longest ts)).imp₂ (fun s t hbefore hne => ?_) hnodup
    rcases before_iff.1 hbefore with hlt | ⟨heq, hle⟩
    · exact Or.inl hlt
    · refine Or.inr ⟨heq, String.not_le.1 fun hge => hne (String.le_antisymm hle hge)⟩
  members t := by
    rw [List.mem_mergeSort, mem_iff_peak (nodup_longest ts), peak_longest, peak_eq_some_iff]

theorem Ahead.asymm {s t : SlowTrace} (hst : Ahead s t) (hts : Ahead t s) : False := by
  simp only [Ahead, Int64.lt_iff_toInt_lt, ← Int64.toInt_inj] at hst hts
  rcases hst with hst | ⟨hst, hid⟩
  · rcases hts with hts | ⟨hts, -⟩ <;> omega
  · rcases hts with hts | ⟨-, hid'⟩
    · omega
    · exact String.lt_irrefl _ (String.lt_trans hid hid')

theorem Ranking.unique (h : Ranking ts all) (h' : Ranking ts other) : all = other := by
  have hnodup : ∀ {xs : List SlowTrace}, xs.Pairwise Ahead → xs.Nodup := by
    intro xs hxs
    refine hxs.imp fun hahead heq => ?_
    subst heq
    exact hahead.asymm hahead
  refine List.Perm.eq_of_pairwise (fun s t _ _ hst hts => (hst.asymm hts).elim) h.sorted h'.sorted ?_
  exact (List.perm_ext_iff_of_nodup (hnodup h.sorted) (hnodup h'.sorted)).2 fun t => by
    rw [h.members, h'.members]

theorem Ranking.perm {us : List SlowTrace} (hp : ts.Perm us) (h : Ranking ts all) : Ranking us all where
  sorted := h.sorted
  members t := by
    rw [h.members, hp.mem_iff]
    exact and_congr_right fun _ => forall_congr' fun s => by rw [hp.mem_iff]

theorem topTraces_eq_take (sorted : List SlowTrace) (hp : sorted.Perm (longest ts))
    (hsorted : sorted.Pairwise fun s t => before s t = true) : topTraces ts = sorted.take kept := by
  rw [topTraces, eq_sorted hp hsorted]

end SlowTrace

/-! ### What is merged in any order -/

namespace MergeTree
variable {α : Type} [Rollup α] {Counts : α → Prop} {SumOf : List α → α → Prop}

/-- If what a merge yields can be told from the records, then the order and the grouping do not matter. -/
theorem any_order
    (hmerged : ∀ t : MergeTree α, 2 ≤ t.leaves.length → (∀ m ∈ t.leaves, Counts m) → SumOf t.leaves t.merged)
    (hperm : ∀ {xs ys : List α} {m : α}, xs.Perm ys → SumOf xs m → SumOf ys m)
    (hunique : ∀ {ms : List α} {a b : α}, ms ≠ [] → SumOf ms a → SumOf ms b → a = b) :
    (∀ ms : List α, 2 ≤ ms.length → (∀ m ∈ ms, Counts m) →
      ∃ sum, SumOf ms sum ∧ ∀ t : MergeTree α, t.leaves.Perm ms → t.merged = sum) ∧
    ∀ a b c : α, Counts a → Counts b → Counts c → Rollup.merge a b = Rollup.merge b a ∧
      Rollup.merge (Rollup.merge a b) c = Rollup.merge a (Rollup.merge b c) := by
  have hsame : ∀ t u : MergeTree α, 2 ≤ t.leaves.length → (∀ m ∈ t.leaves, Counts m) → u.leaves.Perm t.leaves →
      SumOf t.leaves t.merged ∧ u.merged = t.merged := by
    intro t u hlen hcounts hp
    have ht := hmerged t hlen hcounts
    have hu := hmerged u (hp.length_eq ▸ hlen) fun m hm => hcounts m (hp.mem_iff.1 hm)
    exact ⟨ht, hunique t.leaves_ne_nil (hperm hp hu) ht⟩
  refine ⟨fun ms hlen hcounts => ?_, fun a b c ha hb hc => ⟨?_, ?_⟩⟩
  · obtain ⟨t, ht⟩ := exists_leaves_eq (List.ne_nil_of_length_pos (Nat.lt_of_lt_of_le Nat.zero_lt_two hlen))
    subst ht
    exact ⟨t.merged, hmerged t hlen hcounts, fun u hu => (hsame t u hlen hcounts hu).2⟩
  · refine (hsame (node (leaf b) (leaf a)) (node (leaf a) (leaf b)) (Nat.le_refl 2) ?_ (List.Perm.swap b a [])).2
    intro m hm
    rcases List.mem_pair.1 hm with rfl | rfl
    · exact hb
    · exact ha
  · refine (hsame (node (leaf a) (node (leaf b) (leaf c))) (node (node (leaf a) (leaf b)) (leaf c))
      (Nat.le_succ 2) ?_ (List.Perm.refl _)).2
    intro m hm
    rcases List.mem_cons.1 hm with rfl | hm
    · exact ha
    rcases List.mem_pair.1 hm with rfl | rfl
    · exact hb
    · exact hc

end MergeTree

namespace ServiceStats
variable {service application : Int32} {bucket : TimeBucket} {ms xs ys : List ServiceStats} {a b m : ServiceStats}

/-- Statistics of a key that count at least one call, with counters that are not negative. -/
structure CountsFor (service application : Int32) (bucket : TimeBucket) (m : ServiceStats) : Prop where
  service : m.service = service
  application : m.application = application
  bucket : m.bucket = bucket
  calls : 0 < m.calls.toInt
  counters : ∀ i, 0 ≤ (m.tally i).toInt

/-- All calls of some statistics in one. -/
structure SumOf (ms : List ServiceStats) (m : ServiceStats) : Prop where
  key : ∀ x ∈ ms, m.service = x.service ∧ m.application = x.application ∧ m.bucket = x.bucket
  counters : ∀ i, (m.tally i).toInt = min 9223372036854775807 (Counted.counted i ms)
  least : IsLeast minDuration ms m.minDuration
  greatest : IsGreatest maxDuration ms m.maxDuration
  slowTraces : ∃ all, SlowTrace.Ranking (ms.flatMap slowTraces) all ∧ m.slowTraces = all.take 5

theorem CountsFor.merge (ha : CountsFor service application bucket a) (hb : CountsFor service application bucket b) :
    CountsFor service application bucket (merge a b) where
  service := ha.service
  application := ha.application
  bucket := ha.bucket
  calls := by
    have hcalls := Counter.toInt_add a.calls b.calls
    have hca := ha.calls
    have hcb := hb.calls
    show 0 < (Counter.add a.calls b.calls).toInt
    omega
  counters i := by
    have hia := ha.counters i
    have hib := hb.counters i
    rw [tally_merge, Counter.toInt_add]
    omega

/-- Between records with calls the least duration is the least of both. -/
theorem CountsFor.mergeMin (ha : CountsFor service application bucket a) (hb : CountsFor service application bucket b) :
    mergeMin a b = min a.minDuration b.minDuration := by
  have hca := ha.calls
  have hne : a.calls ≠ 0 := by
    intro heq
    rw [heq, Int64.toInt_zero] at hca
    omega
  have hpos : 0 < b.calls := Int64.lt_iff_toInt_lt.2 (Int64.toInt_zero ▸ hb.calls)
  unfold ServiceStats.mergeMin
  rw [if_neg hne, if_pos hpos]

theorem countsFor_merged (t : MergeTree ServiceStats) (h : ∀ m ∈ t.leaves, CountsFor service application bucket m) :
    CountsFor service application bucket t.merged ∧ IsLeast minDuration t.leaves t.merged.minDuration ∧
      IsGreatest maxDuration t.leaves t.merged.maxDuration := by
  induction t with
  | leaf a =>
    have hmem : a ∈ (MergeTree.leaf a).leaves := List.mem_singleton_self a
    refine ⟨h a hmem, ⟨⟨a, hmem, rfl⟩, fun b hb => ?_⟩, ⟨⟨a, hmem, rfl⟩, fun b hb => ?_⟩⟩
    · rw [List.mem_singleton.1 hb]
      exact Int.le_refl _
    · rw [List.mem_singleton.1 hb]
      exact Int.le_refl _
  | node left right ihl ihr =>
    obtain ⟨hcl, hll, hgl⟩ := ihl fun m hm => h m (List.mem_append_left _ hm)
    obtain ⟨hcr, hlr, hgr⟩ := ihr fun m hm => h m (List.mem_append_right _ hm)
    refine ⟨hcl.merge hcr, ?_, hgl.append hgr⟩
    show IsLeast minDuration (left.leaves ++ right.leaves) (ServiceStats.mergeMin left.merged right.merged)
    rw [hcl.mergeMin hcr]
    exact hll.append hlr

theorem topTraces_merged (t : MergeTree ServiceStats) :
    SlowTrace.topTraces t.merged.slowTraces = SlowTrace.topTraces (t.leaves.flatMap slowTraces) := by
  induction t with
  | leaf a =>
    show _ = SlowTrace.topTraces (a.slowTraces ++ [])
    rw [List.append_nil]
    rfl
  | node left right ihl ihr =>
    show SlowTrace.topTraces (SlowTrace.topTraces (left.merged.slowTraces ++ right.merged.slowTraces)) =
      SlowTrace.topTraces ((left.leaves ++ right.leaves).flatMap slowTraces)
    -- what a subtree has cut off would not have come among the first five of the whole either
    rw [SlowTrace.topTraces_topTraces, List.flatMap_append, ← SlowTrace.topTraces_append,
      ← SlowTrace.topTraces_append_right, ihl, ihr, SlowTrace.topTraces_append, SlowTrace.topTraces_append_right]

theorem sumOf_merged (t : MergeTree ServiceStats) (hlen : 2 ≤ t.leaves.length)
    (h : ∀ m ∈ t.leaves, CountsFor service application bucket m) : SumOf t.leaves t.merged := by
  obtain ⟨hcounts, hleast, hgreatest⟩ := countsFor_merged t h
  refine ⟨fun x hx => ?_, fun i => t.tally_merged i fun m hm => (h m hm).counters i, hleast, hgreatest, ?_⟩
  · have hsub := h x hx
    exact ⟨hcounts.service.trans hsub.service.symm, hcounts.application.trans hsub.application.symm,
      hcounts.bucket.trans hsub.bucket.symm⟩
  · refine ⟨_, SlowTrace.ranking_sorted _, ?_⟩
    show t.merged.slowTraces = SlowTrace.topTraces (t.leaves.flatMap slowTraces)
    rw [← topTraces_merged]
    cases t with
    | leaf a => exact absurd hlen (Nat.not_succ_le_self 1)
    | node left right => exact (SlowTrace.topTraces_topTraces _).symm

theorem SumOf.perm (hp : xs.Perm ys) (h : SumOf xs m) : SumOf ys m := by
  obtain ⟨all, hall, htake⟩ := h.slowTraces
  exact {
    key := fun x hx => h.key x (hp.mem_iff.2 hx)
    counters := fun i => Counted.counted_perm (α := ServiceStats) i hp ▸ h.counters i
    least := h.least.perm hp
    greatest := h.greatest.perm hp
    slowTraces := ⟨all, hall.perm (List.Perm.flatMap_right ServiceStats.slowTraces hp), htake⟩ }

theorem SumOf.unique (hne : ms ≠ []) (ha : SumOf ms a) (hb : SumOf ms b) : a = b := by
  obtain ⟨x, hx⟩ := List.exists_mem_of_ne_nil ms hne
  obtain ⟨hservice, happlication, hbucket⟩ := ha.key x hx
  obtain ⟨hservice', happlication', hbucket'⟩ := hb.key x hx
  have ht : ∀ i, a.tally i = b.tally i := fun i => Int64.toInt_inj.1 ((ha.counters i).trans (hb.counters i).symm)
  have hcalls : a.calls = b.calls := ht 0
  have herrors : a.errorCalls = b.errorCalls := ht 1
  have hsum : a.durationSum = b.durationSum := ht 2
  have hmin := ha.least.unique hb.least
  have hmax := ha.greatest.unique hb.greatest
  obtain ⟨all, hall, htake⟩ := ha.slowTraces
  obtain ⟨all', hall', htake'⟩ := hb.slowTraces
  have htraces : a.slowTraces = b.slowTraces := by rw [htake, htake', hall.unique hall']
  cases a
  cases b
  simp only at hservice happlication hbucket hservice' happlication' hbucket' hcalls herrors hsum hmin hmax htraces
  simp only [hservice, happlication, hbucket, hservice', happlication', hbucket', hcalls, herrors, hsum, hmin, hmax,
    htraces]

end ServiceStats

namespace CallSummary

theorem eq_of_tally {a b : CallSummary} (hfront : a.front = b.front) (hbehind : a.behind = b.behind)
    (hbucket : a.bucket = b.bucket) (ht : ∀ i, a.tally i = b.tally i) : a = b := by
  have h₀ := ht 0
  have h₁ := ht 1
  have h₂ := ht 2
  have h₃ := ht 3
  have h₄ := ht 4
  have h₅ := ht 5
  have h₆ := ht 6
  simp only [tally] at h₀ h₁ h₂ h₃ h₄ h₅ h₆
  cases a
  cases b
  simp only at hfront hbehind hbucket h₀ h₁ h₂ h₃ h₄ h₅ h₆
  simp only [hfront, hbehind, hbucket, h₀, h₁, h₂, h₃, h₄, h₅, h₆]

variable {front behind : Int32} {bucket : TimeBucket} {ms xs ys : List CallSummary} {a b m : CallSummary}

/-- Summaries of a key with counters that are not negative. -/
structure CountsFor (front behind : Int32) (bucket : TimeBucket) (m : CallSummary) : Prop where
  front : m.front = front
  behind : m.behind = behind
  bucket : m.bucket = bucket
  counters : ∀ i, 0 ≤ (m.tally i).toInt

structure SumOf (ms : List CallSummary) (m : CallSummary) : Prop where
  key : ∀ x ∈ ms, m.front = x.front ∧ m.behind = x.behind ∧ m.bucket = x.bucket
  counters : ∀ i, (m.tally i).toInt = min 9223372036854775807 (Counted.counted i ms)

theorem key_merged (t : MergeTree CallSummary) (h : ∀ m ∈ t.leaves, CountsFor front behind bucket m) :
    t.merged.front = front ∧ t.merged.behind = behind ∧ t.merged.bucket = bucket := by
  induction t with
  | leaf a =>
    have ha := h a (List.mem_singleton_self a)
    exact ⟨ha.front, ha.behind, ha.bucket⟩
  | node left right ihl _ => exact ihl fun m hm => h m (List.mem_append_left _ hm)

theorem sumOf_merged (t : MergeTree CallSummary) (h : ∀ m ∈ t.leaves, CountsFor front behind bucket m) :
    SumOf t.leaves t.merged := by
  obtain ⟨hfront, hbehind, hbucket⟩ := key_merged t h
  refine ⟨fun x hx => ?_, fun i => t.tally_merged i fun m hm => (h m hm).counters i⟩
  have hsub := h x hx
  exact ⟨hfront.trans hsub.front.symm, hbehind.trans hsub.behind.symm, hbucket.trans hsub.bucket.symm⟩

theorem SumOf.perm (hp : xs.Perm ys) (h : SumOf xs m) : SumOf ys m where
  key x hx := h.key x (hp.mem_iff.2 hx)
  counters i := Counted.counted_perm (α := CallSummary) i hp ▸ h.counters i

theorem SumOf.unique (hne : ms ≠ []) (ha : SumOf ms a) (hb : SumOf ms b) : a = b := by
  obtain ⟨x, hx⟩ := List.exists_mem_of_ne_nil ms hne
  obtain ⟨hfront, hbehind, hbucket⟩ := ha.key x hx
  obtain ⟨hfront', hbehind', hbucket'⟩ := hb.key x hx
  have ht : ∀ i, a.tally i = b.tally i := fun i => Int64.toInt_inj.1 ((ha.counters i).trans (hb.counters i).symm)
  exact eq_of_tally (hfront.trans hfront'.symm) (hbehind.trans hbehind'.symm) (hbucket.trans hbucket'.symm) ht

end CallSummary

/-- However the records of a key are merged, what comes of it is their sum. -/
theorem merged_any_order (service application front behind : Int32) (bucket : TimeBucket) :
    ((∀ ms : List ServiceStats, 2 ≤ ms.length → (∀ m ∈ ms, ServiceStats.CountsFor service application bucket m) →
        ∃ sum, ServiceStats.SumOf ms sum ∧ ∀ t : MergeTree ServiceStats, t.leaves.Perm ms → t.merged = sum) ∧
      ∀ a b c : ServiceStats, ServiceStats.CountsFor service application bucket a →
        ServiceStats.CountsFor service application bucket b → ServiceStats.CountsFor service application bucket c →
        Rollup.merge a b = Rollup.merge b a ∧
          Rollup.merge (Rollup.merge a b) c = Rollup.merge a (Rollup.merge b c)) ∧
    (∀ ms : List CallSummary, 2 ≤ ms.length → (∀ m ∈ ms, CallSummary.CountsFor front behind bucket m) →
        ∃ sum, CallSummary.SumOf ms sum ∧ ∀ t : MergeTree CallSummary, t.leaves.Perm ms → t.merged = sum) ∧
      ∀ a b c : CallSummary, CallSummary.CountsFor front behind bucket a →
        CallSummary.CountsFor front behind bucket b → CallSummary.CountsFor front behind bucket c →
        Rollup.merge a b = Rollup.merge b a ∧
          Rollup.merge (Rollup.merge a b) c = Rollup.merge a (Rollup.merge b c) :=
  ⟨MergeTree.any_order ServiceStats.sumOf_merged ServiceStats.SumOf.perm ServiceStats.SumOf.unique,
    MergeTree.any_order (fun t _ h => CallSummary.sumOf_merged t h) CallSummary.SumOf.perm CallSummary.SumOf.unique⟩

namespace ServiceStats

/-- Statistics of one service that share a trace and count more calls than 64 bits can tell. -/
def crowd : MergeTree ServiceStats :=
  .node (.node (.leaf ⟨1, 1, ⟨1⟩, 9223372036854775807, 0, 40, 7, 9, [⟨9, "a"⟩, ⟨9, "b"⟩, ⟨7, "c"⟩]⟩)
    (.leaf ⟨1, 1, ⟨1⟩, 1, 1, 30, 30, 30, [⟨30, "c"⟩]⟩))
    (.leaf ⟨1, 1, ⟨1⟩, 3, 0, 9, 2, 5, [⟨5, "d"⟩, ⟨2, "e"⟩, ⟨2, "f"⟩]⟩)

theorem countsFor_crowd : ∀ m ∈ crowd.leaves, CountsFor 1 1 ⟨1⟩ m := by
  have hcounters : ∀ m ∈ crowd.leaves, ∀ i < 3, 0 ≤ (m.tally i).toInt := by decide
  have hkey : ∀ m ∈ crowd.leaves, m.service = 1 ∧ m.application = 1 ∧ m.bucket = ⟨1⟩ ∧ 0 < m.calls.toInt := by decide
  intro m hm
  obtain ⟨hservice, happlication, hbucket, hcalls⟩ := hkey m hm
  refine ⟨hservice, happlication, hbucket, hcalls, fun i => ?_⟩
  by_cases hi : i < 3
  · exact hcounters m hm i hi
  · obtain ⟨j, rfl⟩ := Nat.exists_eq_add_of_le' (Nat.le_of_not_lt hi)
    exact Int.le_refl 0

end ServiceStats

theorem merged_any_order_crowd : (∀ m ∈ ServiceStats.crowd.leaves, ServiceStats.CountsFor 1 1 ⟨1⟩ m) ∧
    ∀ t : MergeTree ServiceStats, t.leaves.Perm ServiceStats.crowd.leaves → t.merged = ⟨1, 1, ⟨1⟩, 9223372036854775807,
      1, 79, 2, 30, [⟨30, "c"⟩, ⟨9, "a"⟩, ⟨9, "b"⟩, ⟨5, "d"⟩, ⟨2, "e"⟩]⟩ := by
  obtain ⟨sum, -, hall⟩ :=
    (merged_any_order 1 1 1 2 ⟨1⟩).1.1 ServiceStats.crowd.leaves (by decide) ServiceStats.countsFor_crowd
  have hfirst : SlowTrace.topTraces [⟨9, "a"⟩, ⟨9, "b"⟩, ⟨7, "c"⟩, ⟨30, "c"⟩] = [⟨30, "c"⟩, ⟨9, "a"⟩, ⟨9, "b"⟩] :=
    SlowTrace.topTraces_eq_take [⟨30, "c"⟩, ⟨9, "a"⟩, ⟨9, "b"⟩] (by decide) (by decide)
  have hsecond : SlowTrace.topTraces [⟨30, "c"⟩, ⟨9, "a"⟩, ⟨9, "b"⟩, ⟨5, "d"⟩, ⟨2, "e"⟩, ⟨2, "f"⟩] =
      [⟨30, "c"⟩, ⟨9, "a"⟩, ⟨9, "b"⟩, ⟨5, "d"⟩, ⟨2, "e"⟩] :=
    SlowTrace.topTraces_eq_take [⟨30, "c"⟩, ⟨9, "a"⟩, ⟨9, "b"⟩, ⟨5, "d"⟩, ⟨2, "e"⟩, ⟨2, "f"⟩] (by decide) (by decide)
  have hcrowd : ServiceStats.crowd.merged = ⟨1, 1, ⟨1⟩, 9223372036854775807, 1, 79, 2, 30,
      SlowTrace.topTraces (SlowTrace.topTraces [⟨9, "a"⟩, ⟨9, "b"⟩, ⟨7, "c"⟩, ⟨30, "c"⟩] ++
        [⟨5, "d"⟩, ⟨2, "e"⟩, ⟨2, "f"⟩])⟩ := by rfl
  rw [hfirst, List.cons_append, List.cons_append, List.cons_append, List.nil_append, hsecond] at hcrowd
  refine ⟨ServiceStats.countsFor_crowd, fun t ht => ?_⟩
  rw [hall t ht, ← hall ServiceStats.crowd (List.Perm.refl _), hcrowd]

end TraceRollup
