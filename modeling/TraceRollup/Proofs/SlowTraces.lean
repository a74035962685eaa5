import TraceRollup.Rollup.ServiceStats

/-!
# The slowest traces

`SlowTrace.peak` reads a list of traces as a map from trace ids to the longest duration. The
slowest traces of a list depend on this map alone (`topTraces_congr`), and cutting a part of
the list down to its own slowest traces first changes nothing (`topTraces_append`): whatever
is cut off has five slower traces before it, which stay.
-/

namespace TraceRollup
namespace SlowTrace

/-! ### Durations -/

theorem toInt_max (a b : Int64) : (max a b).toInt = max a.toInt b.toInt := by
  show (if a ≤ b then b else a).toInt = _
  split
  · rename_i h
    rw [Int64.le_iff_toInt_le] at h
    omega
  · rename_i h
    rw [Int64.le_iff_toInt_le] at h
    omega

theorem max_comm (a b : Int64) : max a b = max b a := by
  apply Int64.toInt_inj.1
  rw [toInt_max, toInt_max]
  omega

theorem max_assoc (a b c : Int64) : max (max a b) c = max a (max b c) := by
  apply Int64.toInt_inj.1
  simp only [toInt_max]
  omega

theorem max_self (a : Int64) : max a a = a := by
  apply Int64.toInt_inj.1
  rw [toInt_max]
  omega

/-- The longer of two durations, of which either may be missing. -/
def longer : Option Int64 → Option Int64 → Option Int64
  | none, b => b
  | a, none => a
  | some m, some n => some (max m n)

theorem longer_none (a : Option Int64) : longer a none = a := by
  cases a <;> rfl

theorem longer_comm (a b : Option Int64) : longer a b = longer b a := by
  cases a with
  | none => exact (longer_none b).symm
  | some m =>
    cases b with
    | none => rfl
    | some n => exact congrArg some (max_comm m n)

theorem longer_assoc (a b c : Option Int64) : longer (longer a b) c = longer a (longer b c) := by
  cases a with
  | none => rfl
  | some m =>
    cases b with
    | none => rfl
    | some n =>
      cases c with
      | none => rfl
      | some k => exact congrArg some (max_assoc m n k)

theorem longer_self (a : Option Int64) : longer a a = a := by
  cases a with
  | none => rfl
  | some m => exact congrArg some (max_self m)

/-! ### The longest duration of each trace -/

/-- The longest duration under a trace id. -/
def peak (ts : List SlowTrace) (id : String) : Option Int64 :=
  ts.foldr (fun t m => if t.traceId = id then longer (some t.millis) m else m) none

theorem peak_cons (t : SlowTrace) (ts : List SlowTrace) (id : String) :
    peak (t :: ts) id = if t.traceId = id then longer (some t.millis) (peak ts id) else peak ts id := rfl

theorem peak_append (xs ys : List SlowTrace) (id : String) :
    peak (xs ++ ys) id = longer (peak xs id) (peak ys id) := by
  induction xs with
  | nil => rfl
  | cons t ts ih =>
    rw [List.cons_append, peak_cons, peak_cons, ih]
    split
    · rw [longer_assoc]
    · rfl

theorem peak_perm {xs ys : List SlowTrace} (h : xs.Perm ys) (id : String) : peak xs id = peak ys id := by
  induction h with
  | nil => rfl
  | cons t _ ih => rw [peak_cons, peak_cons, ih]
  | swap s t ts =>
    simp only [peak_cons]
    split <;> split
    · rw [← longer_assoc, longer_comm (some t.millis), longer_assoc]
    all_goals rfl
  | trans _ _ ih₁ ih₂ => exact ih₁.trans ih₂

theorem peak_keepLongest (t : SlowTrace) (ts : List SlowTrace) (id : String) :
    peak (keepLongest t ts) id = peak (t :: ts) id := by
  induction ts with
  | nil => rfl
  | cons s rest ih =>
    unfold keepLongest
    by_cases hs : s.traceId = t.traceId
    · rw [if_pos hs]
      simp only [peak_cons, hs]
      split
      · rw [← longer_assoc]
        exact congrArg (longer · _) (congrArg some (max_comm s.millis t.millis))
      · rfl
    · rw [if_neg hs]
      rw [peak_cons, ih]
      simp only [peak_cons]
      by_cases hid : s.traceId = id
      · have htid : ¬ t.traceId = id := fun h => hs (hid.trans h.symm)
        simp only [if_pos hid, if_neg htid]
      · simp only [if_neg hid]

theorem mem_ids_keepLongest {t : SlowTrace} {ts : List SlowTrace} {id : String} :
    id ∈ (keepLongest t ts).map traceId ↔ id = t.traceId ∨ id ∈ ts.map traceId := by
  induction ts with
  | nil => simp [keepLongest]
  | cons s rest ih =>
    unfold keepLongest
    by_cases hs : s.traceId = t.traceId
    · rw [if_pos hs]
      simp [hs]
    · rw [if_neg hs, List.map_cons, List.mem_cons, ih, List.map_cons, List.mem_cons]
      constructor
      · rintro (h | h | h) <;> simp [h]
      · rintro (h | h | h) <;> simp [h]

theorem nodup_keepLongest {t : SlowTrace} {ts : List SlowTrace} (h : (ts.map traceId).Nodup) :
    ((keepLongest t ts).map traceId).Nodup := by
  induction ts with
  | nil => simp [keepLongest]
  | cons s rest ih =>
    rw [List.map_cons, List.nodup_cons] at h
    unfold keepLongest
    by_cases hs : s.traceId = t.traceId
    · rw [if_pos hs, List.map_cons, List.nodup_cons]
      exact h
    · rw [if_neg hs, List.map_cons, List.nodup_cons]
      refine ⟨fun hm => ?_, ih h.2⟩
      rcases mem_ids_keepLongest.1 hm with heq | hin
      · exact hs heq
      · exact h.1 hin

theorem nodup_longest (ts : List SlowTrace) : ((longest ts).map traceId).Nodup := by
  have key : ∀ (ts acc : List SlowTrace), (acc.map traceId).Nodup →
      ((ts.foldl (fun acc t => keepLongest t acc) acc).map traceId).Nodup := by
    intro ts
    induction ts with
    | nil => intro acc h; exact h
    | cons t rest ih => intro acc h; exact ih _ (nodup_keepLongest h)
  exact key ts [] List.nodup_nil

theorem peak_longest (ts : List SlowTrace) (id : String) : peak (longest ts) id = peak ts id := by
  have key : ∀ ts acc : List SlowTrace,
      peak (ts.foldl (fun acc t => keepLongest t acc) acc) id = longer (peak ts id) (peak acc id) := by
    intro ts
    induction ts with
    | nil => intro acc; rfl
    | cons t rest ih =>
      intro acc
      rw [List.foldl_cons, ih, peak_keepLongest, peak_cons, peak_cons]
      split
      · rw [← longer_assoc, longer_comm (peak rest id), longer_assoc]
      · rfl
  rw [longest, key]
  exact longer_none _

/-- In a list with one entry per trace, the entries are what the map holds. -/
theorem mem_iff_peak {ts : List SlowTrace} (h : (ts.map traceId).Nodup) (t : SlowTrace) :
    t ∈ ts ↔ peak ts t.traceId = some t.millis := by
  have absent : ∀ {ts : List SlowTrace} {id : String}, id ∉ ts.map traceId → peak ts id = none := by
    intro ts id
    induction ts with
    | nil => intro _; rfl
    | cons s rest ih =>
      intro hid
      rw [List.map_cons, List.mem_cons, not_or] at hid
      rw [peak_cons, if_neg (Ne.symm hid.1)]
      exact ih hid.2
  induction ts with
  | nil => simp [peak]
  | cons s rest ih =>
    rw [List.map_cons, List.nodup_cons] at h
    rw [List.mem_cons, peak_cons]
    by_cases hs : s.traceId = t.traceId
    · have hno : t ∉ rest := fun hm => h.1 (hs ▸ List.mem_map_of_mem hm)
      rw [if_pos hs, absent (hs ▸ h.1), longer_none, Option.some.injEq]
      constructor
      · rintro (rfl | hm)
        · rfl
        · exact absurd hm hno
      · intro hm
        cases s
        cases t
        exact Or.inl (by simp_all)
    · have hrest := ih h.2
      rw [if_neg hs]
      constructor
      · rintro (rfl | hm)
        · exact absurd rfl hs
        · exact hrest.1 hm
      · intro hm
        exact Or.inr (hrest.2 hm)

theorem perm_of_peak_eq {xs ys : List SlowTrace} (hx : (xs.map traceId).Nodup) (hy : (ys.map traceId).Nodup)
    (h : ∀ id, peak xs id = peak ys id) : xs.Perm ys := by
  have nodup : ∀ {ts : List SlowTrace}, (ts.map traceId).Nodup → ts.Nodup :=
    fun hts => List.Pairwise.of_map traceId (fun _ _ hne heq => hne (congrArg traceId heq)) hts
  refine (List.perm_ext_iff_of_nodup (nodup hx) (nodup hy)).2 fun t => ?_
  rw [mem_iff_peak hx, mem_iff_peak hy, h]

/-! ### Sorting -/

theorem before_iff {a b : SlowTrace} :
    before a b = true ↔ b.millis < a.millis ∨ (a.millis = b.millis ∧ a.traceId ≤ b.traceId) := by
  simp [before]

theorem before_trans (a b c : SlowTrace) (hab : before a b = true) (hbc : before b c = true) :
    before a c = true := by
  rw [before_iff] at *
  simp only [Int64.lt_iff_toInt_lt, ← Int64.toInt_inj] at *
  rcases hab with hab | ⟨hab, hid⟩
  · rcases hbc with hbc | ⟨hbc, _⟩
    · exact Or.inl (by omega)
    · exact Or.inl (by omega)
  · rcases hbc with hbc | ⟨hbc, hid'⟩
    · exact Or.inl (by omega)
    · exact Or.inr ⟨by omega, String.le_trans hid hid'⟩

theorem before_total (a b : SlowTrace) : (before a b || before b a) = true := by
  rw [Bool.or_eq_true, before_iff, before_iff]
  simp only [Int64.lt_iff_toInt_lt, ← Int64.toInt_inj]
  rcases String.le_total a.traceId b.traceId with h | h
  · by_cases hlt : a.millis.toInt < b.millis.toInt
    · exact Or.inr (Or.inl hlt)
    · by_cases heq : a.millis.toInt = b.millis.toInt
      · exact Or.inl (Or.inr ⟨heq, h⟩)
      · exact Or.inl (Or.inl (by omega))
  · by_cases hlt : b.millis.toInt < a.millis.toInt
    · exact Or.inl (Or.inl hlt)
    · by_cases heq : a.millis.toInt = b.millis.toInt
      · exact Or.inr (Or.inr ⟨heq.symm, h⟩)
      · exact Or.inr (Or.inl (by omega))

theorem before_antisymm (a b : SlowTrace) (hab : before a b = true) (hba : before b a = true) : a = b := by
  rw [before_iff] at *
  simp only [Int64.lt_iff_toInt_lt, ← Int64.toInt_inj] at *
  have hm : a.millis.toInt = b.millis.toInt := by
    rcases hab with hab | ⟨hab, _⟩
    · rcases hba with hba | ⟨hba, _⟩ <;> omega
    · exact hab
  have hid : a.traceId = b.traceId := by
    rcases hab with hab | ⟨_, hab⟩
    · omega
    · rcases hba with hba | ⟨_, hba⟩
      · omega
      · exact String.le_antisymm hab hba
  cases a
  cases b
  simp only at hm hid
  rw [hid, Int64.toInt_inj.1 hm]

theorem pairwise_sorted (ts : List SlowTrace) : (ts.mergeSort before).Pairwise (fun a b => before a b = true) :=
  List.pairwise_mergeSort before_trans before_total ts

/-- Sorting brings the same traces into the same order. -/
theorem eq_sorted {xs ys : List SlowTrace} (hp : xs.Perm ys)
    (hx : xs.Pairwise fun a b => before a b = true) : xs = ys.mergeSort before := by
  refine List.Perm.eq_of_pairwise (fun a b _ _ => before_antisymm a b) hx (pairwise_sorted ys) ?_
  exact hp.trans (List.mergeSort_perm ys before).symm

theorem topTraces_congr {xs ys : List SlowTrace} (h : ∀ id, peak xs id = peak ys id) :
    topTraces xs = topTraces ys := by
  have hp : (longest xs).Perm (longest ys) :=
    perm_of_peak_eq (nodup_longest xs) (nodup_longest ys) fun id => by rw [peak_longest, peak_longest, h]
  unfold topTraces
  rw [eq_sorted ((List.mergeSort_perm _ before).trans hp) (pairwise_sorted _)]

theorem topTraces_comm (xs ys : List SlowTrace) : topTraces (xs ++ ys) = topTraces (ys ++ xs) := by
  apply topTraces_congr
  intro id
  rw [peak_append, peak_append, longer_comm]

/-! ### Traces that fall off -/

/-- If one of the first five did not come before `e`, nothing after them would either. -/
theorem before_of_mem_take {e : SlowTrace} {sorted : List SlowTrace}
    (hsorted : sorted.Pairwise fun a b => before a b = true) (h : kept ≤ sorted.countP fun t => before t e) :
    ∀ t ∈ sorted.take kept, before t e = true := by
  intro t ht
  have hsplit : sorted.take kept ++ sorted.drop kept = sorted := List.take_append_drop kept sorted
  have hlentake : (sorted.take kept).length ≤ kept := List.length_take_le ..
  rw [← hsplit, List.pairwise_append] at hsorted
  obtain ⟨_, _, hcross⟩ := hsorted
  cases hte : before t e with
  | true => rfl
  | false =>
    have het : before e t = true := by
      have htotal := before_total t e
      rw [hte, Bool.false_or] at htotal
      exact htotal
    have hdrop : (sorted.drop kept).countP (fun s => before s e) = 0 := by
      rw [List.countP_eq_zero]
      intro s hs hse
      have heq := before_antisymm t e (before_trans t s e (hcross t ht s hs) hse) het
      rw [heq] at hte het
      rw [hte] at het
      cases het
    have htake : (sorted.take kept).countP (fun s => before s e) < (sorted.take kept).length := by
      refine Nat.lt_of_le_of_ne List.countP_le_length fun heq => ?_
      have hall := List.countP_eq_length.1 heq t ht
      rw [hte] at hall
      cases hall
    rw [← hsplit, List.countP_append, hdrop] at h
    omega

/-- A trace with five others before it is not among the first five. -/
theorem take_sorted_cons {e : SlowTrace} {ts : List SlowTrace}
    (h : kept ≤ ts.countP fun t => before t e) :
    ((e :: ts).mergeSort before).take kept = (ts.mergeSort before).take kept := by
  have hsorted := pairwise_sorted ts
  have hperm := List.mergeSort_perm ts before
  have hcount : kept ≤ (ts.mergeSort before).countP fun t => before t e := by
    rw [hperm.countP_eq]
    exact h
  generalize ts.mergeSort before = sorted at hsorted hperm hcount ⊢
  have hbefore := before_of_mem_take hsorted hcount
  have hsplit : sorted.take kept ++ sorted.drop kept = sorted := List.take_append_drop kept sorted
  have hlen : kept ≤ sorted.length := Nat.le_trans hcount List.countP_le_length
  have hlentake : (sorted.take kept).length = kept := by
    rw [List.length_take]
    omega
  rw [← hsplit, List.pairwise_append] at hsorted
  obtain ⟨hfront, _, hcross⟩ := hsorted
  have hrest : sorted.take kept ++ (e :: sorted.drop kept).mergeSort before = (e :: ts).mergeSort before := by
    apply eq_sorted
    · have hm := List.mergeSort_perm (e :: sorted.drop kept) before
      refine (hm.append_left _).trans ?_
      refine (List.perm_middle).trans ?_
      rw [hsplit]
      exact hperm.cons e
    · rw [List.pairwise_append]
      refine ⟨hfront, pairwise_sorted _, ?_⟩
      intro a ha b hb
      rw [List.mem_mergeSort, List.mem_cons] at hb
      rcases hb with rfl | hb
      · exact hbefore a ha
      · exact hcross a ha b hb
  rw [← hrest, List.take_append_of_le_length (by omega), List.take_take, Nat.min_self]

/-- Five slower traces stand in the way of a trace. -/
structure Outdone (e : SlowTrace) (ks : List SlowTrace) : Prop where
  distinct : (ks.map traceId).Nodup
  enough : kept ≤ ks.length
  before : ∀ k ∈ ks, SlowTrace.before k e = true ∧ k.traceId ≠ e.traceId

theorem Outdone.mono {e d : SlowTrace} {ks : List SlowTrace} (h : Outdone e ks) (hid : d.traceId = e.traceId)
    (hed : SlowTrace.before e d = true) : Outdone d ks := by
  refine ⟨h.distinct, h.enough, fun k hk => ?_⟩
  obtain ⟨hb, hne⟩ := h.before k hk
  exact ⟨before_trans _ _ _ hb hed, hid ▸ hne⟩

theorem le_of_longer {a : Int64} {b : Option Int64} {m : Int64} (h : longer (some a) b = some m) :
    a.toInt ≤ m.toInt := by
  cases b with
  | none =>
    have hm : a = m := Option.some.inj h
    exact hm ▸ Int.le_refl _
  | some y =>
    have hm : max a y = m := Option.some.inj h
    have ht := toInt_max a y
    rw [hm] at ht
    omega

/-- Each trace of a list has an entry in the map that is at least as long. -/
theorem exists_peak_of_mem {t : SlowTrace} {ts : List SlowTrace} (h : t ∈ ts) :
    ∃ m, peak ts t.traceId = some m ∧ t.millis.toInt ≤ m.toInt := by
  obtain ⟨xs, ys, rfl⟩ := List.append_of_mem h
  rw [peak_append, peak_cons, if_pos rfl, longer_comm, longer_assoc]
  cases hm : longer (some t.millis) (longer (peak ys t.traceId) (peak xs t.traceId)) with
  | none => cases hl : longer (peak ys t.traceId) (peak xs t.traceId) <;> rw [hl] at hm <;> cases hm
  | some m => exact ⟨m, rfl, le_of_longer hm⟩

/-- The entries of the map under all ids but one. -/
def besides (ts : List SlowTrace) (id : String) : List SlowTrace :=
  (longest ts).filter fun t => decide (t.traceId ≠ id)

theorem peak_besides (ts : List SlowTrace) (id j : String) :
    peak (besides ts id) j = if j = id then none else peak ts j := by
  rw [← peak_longest ts j]
  unfold besides
  induction longest ts with
  | nil => simp [peak]
  | cons t rest ih =>
    by_cases ht : t.traceId = id
    · rw [List.filter_cons_of_neg (by simp [ht]), ih, peak_cons]
      by_cases hj : j = id
      · rw [if_pos hj, if_pos hj]
      · rw [if_neg hj, if_neg hj, if_neg (fun h => hj (h.symm.trans ht))]
    · rw [List.filter_cons_of_pos (by simp [ht]), peak_cons, peak_cons, ih]
      by_cases hj : j = id
      · rw [if_neg (fun h => ht (h.trans hj)), if_pos hj, if_pos hj]
      · simp only [if_neg hj]

theorem nodup_besides (ts : List SlowTrace) (id : String) : ((besides ts id).map traceId).Nodup :=
  (nodup_longest ts).sublist (List.filter_sublist.map traceId)

/-- A map with one entry and otherwise the same as another one. -/
theorem perm_longest_cons {e : SlowTrace} {xs ts : List SlowTrace}
    (h : ∀ id, peak xs id = if id = e.traceId then some e.millis else peak ts id) :
    (longest xs).Perm (e :: besides ts e.traceId) := by
  have habsent : e.traceId ∉ (besides ts e.traceId).map traceId := by
    intro hm
    obtain ⟨t, ht, hid⟩ := List.mem_map.1 hm
    have hne := (List.mem_filter.1 ht).2
    simp [hid] at hne
  refine perm_of_peak_eq (nodup_longest xs) (List.nodup_cons.2 ⟨habsent, nodup_besides ts _⟩) fun id => ?_
  rw [peak_longest, h, peak_cons, peak_besides]
  by_cases hid : id = e.traceId
  · rw [if_pos hid, if_pos hid.symm, if_pos hid, longer_none]
  · rw [if_neg hid, if_neg (Ne.symm hid), if_neg hid]

/-- A trace that is longer than the others of its id. -/
theorem perm_longest_of_longer {e : SlowTrace} {ts : List SlowTrace}
    (h : longer (some e.millis) (peak ts e.traceId) = some e.millis) :
    (longest (e :: ts)).Perm (e :: besides ts e.traceId) := by
  apply perm_longest_cons
  intro id
  rw [peak_cons]
  by_cases hid : id = e.traceId
  · rw [if_pos hid.symm, if_pos hid, hid, h]
  · rw [if_neg (Ne.symm hid), if_neg hid]

theorem Outdone.count {e : SlowTrace} {ks ts : List SlowTrace} (h : Outdone e ks) (hsub : ∀ k ∈ ks, k ∈ ts) :
    kept ≤ (besides ts e.traceId).countP fun t => SlowTrace.before t e := by
  refine Nat.le_trans h.enough ?_
  rw [List.countP_eq_length_filter, ← List.length_map traceId, ← List.length_map traceId]
  refine List.Nodup.length_le_of_subset h.distinct ?_
  intro id hid
  obtain ⟨k, hk, rfl⟩ := List.mem_map.1 hid
  obtain ⟨hbefore, hne⟩ := h.before k hk
  obtain ⟨m, hpeak, hle⟩ := exists_peak_of_mem (hsub k hk)
  have hmem : (⟨m, k.traceId⟩ : SlowTrace) ∈ longest ts := by
    rw [mem_iff_peak (nodup_longest ts), peak_longest]
    exact hpeak
  have hfirst : SlowTrace.before ⟨m, k.traceId⟩ k = true := by
    rw [before_iff]
    simp only [Int64.lt_iff_toInt_lt, ← Int64.toInt_inj]
    by_cases heq : m.toInt = k.millis.toInt
    · exact Or.inr ⟨heq, String.le_refl _⟩
    · exact Or.inl (by omega)
  refine List.mem_map.2 ⟨⟨m, k.traceId⟩, ?_, rfl⟩
  refine List.mem_filter.2 ⟨?_, before_trans _ _ _ hfirst hbefore⟩
  exact List.mem_filter.2 ⟨hmem, by simpa using hne⟩

/-- The slowest traces are those besides one that five others stand before. -/
theorem topTraces_of_perm {e : SlowTrace} {ks xs ts : List SlowTrace} (h : Outdone e ks) (hsub : ∀ k ∈ ks, k ∈ ts)
    (hperm : (longest xs).Perm (e :: besides ts e.traceId)) :
    topTraces xs = ((besides ts e.traceId).mergeSort before).take kept := by
  unfold topTraces
  rw [eq_sorted ((List.mergeSort_perm _ before).trans hperm) (pairwise_sorted _), take_sorted_cons (h.count hsub)]

/-- What five slower traces of a list stand before adds nothing to its slowest traces. -/
theorem topTraces_cons {e : SlowTrace} {ks ts : List SlowTrace} (h : Outdone e ks) (hsub : ∀ k ∈ ks, k ∈ ts) :
    topTraces (e :: ts) = topTraces ts := by
  cases hpeak : peak ts e.traceId with
  | none =>
    have hmore : (longest (e :: ts)).Perm (e :: besides ts e.traceId) :=
      perm_longest_of_longer (by rw [hpeak, longer_none])
    have hsame : (longest ts).Perm (besides ts e.traceId) := by
      refine perm_of_peak_eq (nodup_longest ts) (nodup_besides ts _) fun id => ?_
      rw [peak_longest, peak_besides]
      by_cases hid : id = e.traceId
      · rw [if_pos hid, hid, hpeak]
      · rw [if_neg hid]
    rw [topTraces_of_perm h hsub hmore]
    unfold topTraces
    rw [eq_sorted ((List.mergeSort_perm _ before).trans hsame) (pairwise_sorted _)]
  | some m =>
    by_cases hle : e.millis.toInt ≤ m.toInt
    · apply topTraces_congr
      intro id
      rw [peak_cons]
      split
      · rename_i hid
        rw [← hid, hpeak]
        refine congrArg some (Int64.toInt_inj.1 ?_)
        rw [toInt_max]
        omega
      · rfl
    · have hmore : (longest (e :: ts)).Perm (e :: besides ts e.traceId) := by
        refine perm_longest_of_longer ?_
        rw [hpeak]
        refine congrArg some (Int64.toInt_inj.1 ?_)
        rw [toInt_max]
        omega
      have hless : (longest ts).Perm (⟨m, e.traceId⟩ :: besides ts e.traceId) := by
        apply perm_longest_cons (e := ⟨m, e.traceId⟩)
        intro id
        by_cases hid : id = e.traceId
        · rw [if_pos hid, hid, hpeak]
        · rw [if_neg hid]
      have hlower : SlowTrace.before e ⟨m, e.traceId⟩ = true := by
        rw [before_iff]
        exact Or.inl (Int64.lt_iff_toInt_lt.2 (Int.not_le.1 hle))
      have hout : Outdone ⟨m, e.traceId⟩ ks := h.mono rfl hlower
      rw [topTraces_of_perm h hsub hmore, topTraces_of_perm hout hsub hless]

theorem topTraces_append_outdone {ks rs ts : List SlowTrace} (h : ∀ r ∈ rs, Outdone r ks) (hsub : ∀ k ∈ ks, k ∈ ts) :
    topTraces (rs ++ ts) = topTraces ts := by
  induction rs with
  | nil => rfl
  | cons r rest ih =>
    rw [List.cons_append, topTraces_cons (h r (List.mem_cons_self ..))
      (fun k hk => List.mem_append_right rest (hsub k hk))]
    exact ih fun s hs => h s (List.mem_cons_of_mem _ hs)

/-! ### Merging lists of traces -/

/-- Cutting one of two lists down to its slowest traces first changes nothing. -/
theorem topTraces_append (xs ys : List SlowTrace) : topTraces (topTraces xs ++ ys) = topTraces (xs ++ ys) := by
  have hperm := List.mergeSort_perm (longest xs) before
  have hnodup : (((longest xs).mergeSort before).map traceId).Nodup :=
    (hperm.map traceId).nodup_iff.2 (nodup_longest xs)
  have hsplit := List.take_append_drop kept ((longest xs).mergeSort before)
  have hsorted := pairwise_sorted (longest xs)
  have hpeak : ∀ id, peak ((longest xs).mergeSort before ++ ys) id = peak (xs ++ ys) id := by
    intro id
    rw [peak_append, peak_append, peak_perm hperm, peak_longest]
  rw [← topTraces_congr hpeak, ← hsplit]
  rw [← hsplit, List.pairwise_append] at hsorted
  rw [← hsplit, List.map_append, List.nodup_append] at hnodup
  have hrest : ∀ r ∈ ((longest xs).mergeSort before).drop kept, Outdone r (topTraces xs) := by
    intro r hr
    refine ⟨hnodup.1, ?_, fun k hk => ⟨hsorted.2.2 k hk r hr, ?_⟩⟩
    · have hlen := List.length_pos_of_mem hr
      rw [List.length_drop] at hlen
      unfold topTraces
      rw [List.length_take]
      omega
    · exact hnodup.2.2 _ (List.mem_map_of_mem hk) _ (List.mem_map_of_mem hr)
  have hswap : topTraces (topTraces xs ++ ((longest xs).mergeSort before).drop kept ++ ys) =
      topTraces (((longest xs).mergeSort before).drop kept ++ (topTraces xs ++ ys)) := by
    apply topTraces_congr
    intro id
    rw [← List.append_assoc]
    exact peak_perm (List.perm_append_comm.append_right ys) id
  exact ((hswap.trans (topTraces_append_outdone hrest fun k hk => List.mem_append_left _ hk))).symm

theorem topTraces_topTraces (xs : List SlowTrace) : topTraces (topTraces xs) = topTraces xs := by
  have h := topTraces_append xs []
  rwa [List.append_nil, List.append_nil] at h

theorem topTraces_append_right (xs ys : List SlowTrace) :
    topTraces (xs ++ topTraces ys) = topTraces (xs ++ ys) := by
  rw [topTraces_comm, topTraces_append, topTraces_comm]

end SlowTrace
end TraceRollup
