import TraceRollup.Proofs.Aggregation
import TraceRollup.Proofs.ExactlyOnce

/-!
# Running totals

The totals after each of some records (`Rollup.totals`). What a recorder answers to a batch are
the next running totals of every key (`Recorder.totals_acceptAll`).
-/

namespace TraceRollup

/-! ### Snapshots of a key -/

section
variable {α : Type} [Rollup α]

/-- The records of a key among snapshots, in order. -/
def pick (key : OriginKey) (xs : List (Snapshot α)) : List α :=
  (xs.filter fun s => decide ((s.origin, Rollup.id s.record) = key)).map Snapshot.record

theorem pick_nil (key : OriginKey) : pick key ([] : List (Snapshot α)) = [] := rfl

theorem pick_append (key : OriginKey) (xs ys : List (Snapshot α)) : pick key (xs ++ ys) = pick key xs ++ pick key ys := by
  simp [pick]

theorem pick_cons (key : OriginKey) (x : Snapshot α) (xs : List (Snapshot α)) :
    pick key (x :: xs) = pick key [x] ++ pick key xs := pick_append key [x] xs

theorem pick_sublist (key : OriginKey) {xs ys : List (Snapshot α)} (h : xs.Sublist ys) :
    (pick key xs).Sublist (pick key ys) := (h.filter _).map _

theorem pick_take_drop (key : OriginKey) (n : Nat) (xs : List (Snapshot α)) :
    pick key (xs.take n) ++ pick key (xs.drop n) = pick key xs := by
  rw [← pick_append, List.take_append_drop]

theorem pick_eq_nil {key : OriginKey} {xs : List (Snapshot α)} (h : ∀ x ∈ xs, x.origin ≠ key.1) : pick key xs = [] := by
  have hfilter : xs.filter (fun s => decide ((s.origin, Rollup.id s.record) = key)) = [] := by
    rw [List.filter_eq_nil_iff]
    intro x hx
    simp only [decide_eq_true_eq]
    exact fun heq => h x hx (congrArg Prod.fst heq)
  rw [pick, hfilter, List.map_nil]

theorem mem_pick {key : OriginKey} {xs : List (Snapshot α)} {a : α} (h : a ∈ pick key xs) :
    ∃ x ∈ xs, x.record = a ∧ x.origin = key.1 ∧ Rollup.id a = key.2 := by
  simp only [pick, List.mem_map, List.mem_filter, decide_eq_true_eq] at h
  obtain ⟨x, ⟨hx, rfl⟩, rfl⟩ := h
  exact ⟨x, hx, rfl, rfl, rfl⟩

theorem takes_eq (window : Duration) (now : Instant) (batch : List (Snapshot α)) (key : OriginKey) :
    LedgerRun.takes window now batch key =
      pick key (batch.filter fun s => !(Rollup.bucket s.record).isExpired now window) := by
  simp [LedgerRun.takes, pick, List.filter_filter, Bool.and_comm]

theorem takes_sublist (window : Duration) (now : Instant) (batch : List (Snapshot α)) (key : OriginKey) :
    (LedgerRun.takes window now batch key).Sublist (pick key batch) := by
  rw [takes_eq]
  exact pick_sublist key List.filter_sublist

/-! ### Running totals -/

/-- The totals after each of some records. -/
def Rollup.totals (xs : List α) : List α :=
  (List.range xs.length).filterMap fun n => Rollup.mergeAll (xs.take (n + 1))

theorem Rollup.totals_concat (xs : List α) (x : α) :
    Rollup.totals (xs ++ [x]) = Rollup.totals xs ++ (Rollup.mergeAll (xs ++ [x])).toList := by
  unfold Rollup.totals
  rw [List.length_append, List.length_singleton, List.range_succ, List.filterMap_append]
  congr 1
  · apply List.filterMap_congr
    intro n hn
    rw [List.mem_range] at hn
    rw [List.take_append_of_le_length (by omega)]
  · have htake : (xs ++ [x]).take (xs.length + 1) = xs ++ [x] := List.take_of_length_le (by simp)
    rw [List.filterMap_cons, htake, List.filterMap_nil]
    cases Rollup.mergeAll (xs ++ [x]) <;> rfl

theorem Rollup.mem_totals {xs : List α} {t : α} (h : t ∈ Rollup.totals xs) :
    ∃ part, part <+: xs ∧ Rollup.mergeAll part = some t := by
  obtain ⟨n, _, hn⟩ := List.mem_filterMap.1 h
  exact ⟨_, List.take_prefix _ _, hn⟩

theorem Rollup.mergeAll_take_ne_none {xs : List α} {n : Nat} (h : n < xs.length) :
    ∃ t, Rollup.mergeAll (xs.take (n + 1)) = some t := by
  cases xs with
  | nil => cases h
  | cons x rest => exact ⟨_, rfl⟩

theorem Rollup.totals_are_totals (xs : List α) : Totals xs (Rollup.totals xs) := by
  refine ⟨(List.range xs.length).map (· + 1), ?_, ?_, ?_⟩
  · rw [List.pairwise_map]
    exact List.pairwise_lt_range.imp fun h => by omega
  · intro n hn
    obtain ⟨m, hm, rfl⟩ := List.mem_map.1 hn
    rw [List.mem_range] at hm
    omega
  · rw [Rollup.totals, List.map_map]
    have key : ∀ ns : List Nat, (∀ n ∈ ns, n < xs.length) →
        (ns.filterMap fun n => Rollup.mergeAll (xs.take (n + 1))).map some =
          ns.map ((fun n => Rollup.mergeAll (xs.take n)) ∘ (· + 1)) := by
      intro ns
      induction ns with
      | nil => exact fun _ => rfl
      | cons n rest ih =>
        intro hns
        obtain ⟨t, ht⟩ := Rollup.mergeAll_take_ne_none (hns n (List.mem_cons_self ..))
        have hrest := ih fun m hm => hns m (List.mem_cons_of_mem _ hm)
        simp [ht, hrest]
    exact key _ fun n hn => List.mem_range.1 hn

/-! ### Batches of records -/

namespace Recorder
variable {now : Instant}

theorem accept_of_late {r : Recorder α} {record : α} (h : (Rollup.bucket record).isExpired now r.window = true) :
    r.accept record now = (none, r) := by
  unfold accept
  rw [if_pos h]

theorem accept_of_timely {r : Recorder α} {record : α} (h : (Rollup.bucket record).isExpired now r.window = false) :
    r.accept record now =
      ({ r with taken := r.taken ++ [record] }.total? (Rollup.id record), { r with taken := r.taken ++ [record] }) := by
  unfold accept
  rw [if_neg (by rw [h]; exact Bool.false_ne_true)]

theorem acceptAll_cons (r : Recorder α) (s : Snapshot α) (rest : List (Snapshot α)) :
    (r.acceptAll now (s :: rest)).1.snapshots =
        (((r.accept s.record now).1.map fun total => Snapshot.mk s.origin total).toList ++
          ((r.accept s.record now).2.acceptAll now rest).1.snapshots) ∧
      (r.acceptAll now (s :: rest)).2 = ((r.accept s.record now).2.acceptAll now rest).2 := by
  simp only [acceptAll]
  cases (r.accept s.record now).1 <;> exact ⟨rfl, rfl⟩

theorem acceptAll_taken (r : Recorder α) (batch : List (Snapshot α)) :
    (r.acceptAll now batch).2 =
      { r with taken := r.taken ++
          (batch.filter fun s => !(Rollup.bucket s.record).isExpired now r.window).map Snapshot.record } := by
  induction batch generalizing r with
  | nil => simp [acceptAll]
  | cons s rest ih =>
    rw [(acceptAll_cons r s rest).2]
    cases hlate : (Rollup.bucket s.record).isExpired now r.window with
    | true =>
      rw [accept_of_late hlate, ih]
      simp [hlate]
    | false =>
      rw [accept_of_timely hlate, ih]
      simp [hlate]

theorem origin_acceptAll {r : Recorder α} {batch : List (Snapshot α)} {name : String}
    (h : ∀ s ∈ batch, s.origin = name) : ∀ s ∈ (r.acceptAll now batch).1.snapshots, s.origin = name := by
  induction batch generalizing r with
  | nil => exact fun s hs => absurd hs List.not_mem_nil
  | cons b rest ih =>
    intro s hs
    rw [(acceptAll_cons r b rest).1, List.mem_append] at hs
    rcases hs with hs | hs
    · obtain ⟨total, _, rfl⟩ := Option.map_eq_some_iff.1 (Option.mem_toList.1 hs)
      exact h b (List.mem_cons_self ..)
    · exact ih (fun x hx => h x (List.mem_cons_of_mem _ hx)) s hs

/-- The answers to a batch of one origin are the next running totals. -/
theorem totals_acceptAll [LawfulKey α] (now : Instant) (r : Recorder α) {batch : List (Snapshot α)} {name : String}
    (h : ∀ s ∈ batch, s.origin = name) (id : String) :
    Rollup.totals ((r.acceptAll now batch).2.under id) =
      Rollup.totals (r.under id) ++ pick (name, id) (r.acceptAll now batch).1.snapshots := by
  induction batch generalizing r with
  | nil => simp [acceptAll, pick]
  | cons b rest ih =>
    have hrest := fun x hx => h x (List.mem_cons_of_mem b hx)
    have hb := h b (List.mem_cons_self ..)
    rw [(acceptAll_cons r b rest).2, (acceptAll_cons r b rest).1, pick_append]
    cases hlate : (Rollup.bucket b.record).isExpired now r.window with
    | true =>
      rw [accept_of_late hlate, ih _ hrest]
      simp [pick]
    | false =>
      rw [accept_of_timely hlate, ih _ hrest, ← List.append_assoc]
      congr 1
      have hunder : { r with taken := r.taken ++ [b.record] }.under id =
          r.under id ++ if Rollup.id b.record = id then [b.record] else [] := by
        by_cases hid : Rollup.id b.record = id <;> simp [under, hid]
      cases htotal : { r with taken := r.taken ++ [b.record] }.total? (Rollup.id b.record) with
      | none =>
        rw [total?_concat, if_pos rfl] at htotal
        cases htotal
      | some t =>
        have ht := id_total htotal
        by_cases hid : Rollup.id b.record = id
        · subst hid
          rw [hunder, if_pos rfl, Rollup.totals_concat]
          rw [total?, hunder, if_pos rfl] at htotal
          rw [htotal]
          simp [pick, hb, ht]
        · rw [hunder, if_neg hid, List.append_nil]
          simp [pick, ht, hid]

end Recorder
end
end TraceRollup
