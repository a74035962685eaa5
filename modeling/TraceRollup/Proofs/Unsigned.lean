import TraceRollup.Proofs.Regrowth
import TraceRollup.Proofs.Writes

/-!
# Counters that are not negative

Calls are counted upwards, so the counters of their records are never negative, and neither are
those of totals, growths and stored rows made of such records (`RecordKind.lasting_unsigned`). A
flush of such records ends whenever its window can be doubled (`Ledger.isSome_flushCounted_iff`),
and the rows that it wrote have a mean duration (`ServiceStats.isSome_average`).
-/

namespace TraceRollup

/-! ### Properties that last -/

/-- A property of records that merging, growing and storing them leave. Records that have it have
growths from one to the other. -/
structure Rollup.Lasting {α : Type} [Rollup α] (P : α → Prop) : Prop where
  merge : ∀ {a b : α}, P a → P b → P (Rollup.merge a b)
  since : ∀ {now base : α}, P now → P base → ∃ d, Rollup.since? now base = some d ∧ P d
  decode_encode : ∀ a : α, Rollup.decode? (Rollup.encode a) = some a

theorem Rollup.Lasting.mergeAll {α : Type} [Rollup α] {P : α → Prop} (h : Rollup.Lasting P) {xs : List α}
    (hne : xs ≠ []) (hxs : ∀ x ∈ xs, P x) : ∃ m, Rollup.mergeAll xs = some m ∧ P m := by
  obtain ⟨first, rest, rfl⟩ := List.exists_cons_of_ne_nil hne
  refine ⟨rest.foldl Rollup.merge first, rfl, ?_⟩
  have hfirst := hxs first (List.mem_cons_self ..)
  have hrest : ∀ x ∈ rest, P x := fun x hx => hxs x (List.mem_cons_of_mem _ hx)
  clear hne hxs
  induction rest generalizing first with
  | nil => exact hfirst
  | cons x rest ih =>
    exact ih _ (h.merge hfirst (hrest x (List.mem_cons_self ..))) fun y hy => hrest y (List.mem_cons_of_mem _ hy)

namespace RecordKind

def Unsigned (k : RecordKind) (r : k.Carrier) : Prop := ∀ i, 0 ≤ (k.tally r i).toInt

theorem unsigned_of_isCall {k : RecordKind} {r : k.Carrier} (h : k.IsCall r) : k.Unsigned r := by
  cases k with
  | callSummary => exact CallSummary.tally_call h
  | serviceStats => exact ServiceStats.tally_call h
  | heartbeat => exact h.elim
  | alarm => exact h.elim

theorem unsigned_alarm (a : Alarm) : RecordKind.alarm.Unsigned a := fun _ => Int.le_refl 0
theorem unsigned_heartbeat (m : Heartbeat) : RecordKind.heartbeat.Unsigned m := fun _ => Int.le_refl 0

theorem toInt_merge_of_counted {α : Type} [Rollup α] [Counted α] {a b : α} {i : Nat}
    (ha : 0 ≤ (Counted.tally a i).toInt) (hb : 0 ≤ (Counted.tally b i).toInt) :
    0 ≤ (Counted.tally (Rollup.merge a b) i).toInt := by
  rw [Counted.toInt_tally_merge ha hb]
  omega

/-- A total that did not fall back has a growth counter by counter; one that did is its own. -/
theorem exists_since_of_counted {α : Type} [Rollup α] [Counted α] {now base : α}
    (hn : ∀ i, 0 ≤ (Counted.tally now i).toInt) (hb : ∀ i, 0 ≤ (Counted.tally base i).toInt)
    (hfallen : ∀ i, (Counted.tally now i).toInt < (Counted.tally base i).toInt → Rollup.since? now base = some now) :
    ∃ d, Rollup.since? now base = some d ∧ Rollup.id d = Rollup.id now ∧ ∀ i, 0 ≤ (Counted.tally d i).toInt := by
  by_cases hle : ∀ i, (Counted.tally base i).toInt ≤ (Counted.tally now i).toInt
  · obtain ⟨d, hd, hid, hdiff⟩ := Counted.tally_since hle hb
    exact ⟨d, hd, hid, fun i => (hdiff i).symm ▸ Int.sub_nonneg_of_le (hle i)⟩
  · obtain ⟨i, hi⟩ := not_forall.1 hle
    exact ⟨now, hfallen i (Int.not_le.1 hi), rfl, hn⟩

/-- The growth of a total without negative counters has none either, and is of its key. -/
theorem exists_since {k : RecordKind} {now base : k.Carrier} (hn : k.Unsigned now) (hb : k.Unsigned base) :
    ∃ d, Rollup.since? now base = some d ∧ Rollup.id d = Rollup.id now ∧ k.Unsigned d := by
  cases k with
  | callSummary =>
    exact exists_since_of_counted (α := CallSummary) hn hb fun i hi =>
      since?_of_fallen (k := .callSummary) hb (Int64.lt_iff_toInt_lt.2 hi)
  | serviceStats =>
    exact exists_since_of_counted (α := ServiceStats) hn hb fun i hi =>
      since?_of_fallen (k := .serviceStats) hb (Int64.lt_iff_toInt_lt.2 hi)
  | heartbeat => exact ⟨now, rfl, rfl, hn⟩
  | alarm => exact ⟨now, rfl, rfl, hn⟩

theorem lasting_unsigned (k : RecordKind) : Rollup.Lasting k.Unsigned where
  decode_encode := k.decode?_encode
  merge {a b} ha hb i := by
    cases k with
    | callSummary => exact toInt_merge_of_counted (α := CallSummary) (ha i) (hb i)
    | serviceStats => exact toInt_merge_of_counted (α := ServiceStats) (ha i) (hb i)
    | heartbeat => exact Int.le_refl 0
    | alarm => exact Int.le_refl 0
  since hn hb := by
    obtain ⟨d, hd, -, hunsigned⟩ := exists_since hn hb
    exact ⟨d, hd, hunsigned⟩

end RecordKind

/-! ### Mean durations -/

theorem exists_mapM {α β : Type} {Q : β → Prop} {f : α → Option β} {xs : List α}
    (h : ∀ x ∈ xs, ∃ y, f x = some y ∧ Q y) :
    ∃ ys, xs.mapM f = some ys ∧ ys.length = xs.length ∧ ∀ y ∈ ys, Q y := by
  induction xs with
  | nil => exact ⟨[], rfl, rfl, fun _ hy => absurd hy List.not_mem_nil⟩
  | cons x rest ih =>
    obtain ⟨y, hy, hq⟩ := h x (List.mem_cons_self ..)
    obtain ⟨ys, hys, hlen, hqs⟩ := ih fun x hx => h x (List.mem_cons_of_mem _ hx)
    refine ⟨y :: ys, by simp [List.mapM_cons, hy, hys], by simp [hlen], fun z hz => ?_⟩
    rcases List.mem_cons.1 hz with rfl | hz
    · exact hq
    · exact hqs z hz

theorem ServiceStats.isSome_average {m : ServiceStats} (h : RecordKind.serviceStats.Unsigned m) :
    m.average?.isSome = true := by
  have hcalls : 0 ≤ m.calls.toInt := h 0
  have hsum : 0 ≤ m.durationSum.toInt := h 2
  have hle : m.durationSum.toInt.tdiv m.calls.toInt ≤ m.durationSum.toInt := by
    rw [Int.tdiv_eq_ediv_of_nonneg hsum]
    exact Int.ediv_le_self _ hsum
  have hlt := m.durationSum.toInt_lt
  unfold average?
  split
  · rfl
  · rw [if_pos (by omega)]
    rfl

theorem AnyPipeline.isSome_raise (a : AnyPipeline) (now : Instant) {rows : List a.kind.Carrier}
    (h : ∀ r ∈ rows, a.kind.Unsigned r) : (a.raise? now rows).isSome = true := by
  unfold raise?
  split
  · rfl
  · rename_i feed hfeed
    have hjudged : ∀ m ∈ rows.filterMap a.kind.statistics?,
        ∃ alarms, feed.rules.evaluate m now.millis = some alarms ∧ True := by
      intro m hm
      obtain ⟨r, hr, hrm⟩ := List.mem_filterMap.1 hm
      have hunsigned := h r hr
      clear hm hr h hfeed
      obtain ⟨kind, pipeline, _⟩ := a
      cases kind with
      | serviceStats =>
        cases hrm
        obtain ⟨average, haverage⟩ := Option.isSome_iff_exists.1 (ServiceStats.isSome_average hunsigned)
        unfold AlarmRules.evaluate
        split
        · rw [haverage]
          exact ⟨_, rfl, trivial⟩
        · exact ⟨_, rfl, trivial⟩
      | callSummary | heartbeat | alarm => cases hrm
    obtain ⟨alarms, halarms, -, -⟩ := exists_mapM hjudged
    simp only [halarms]
    rfl

/-! ### Dictionaries and stores -/

def Dict.All {κ α : Type} [DecidableEq κ] (P : α → Prop) (d : Dict κ α) : Prop := ∀ k a, d.get? k = some a → P a

namespace Dict.All
variable {κ α : Type} [DecidableEq κ] {P : α → Prop} {d : Dict κ α}

theorem empty : (Dict.empty : Dict κ α).All P := fun _ _ h => by cases h

theorem set (h : d.All P) (k : κ) {a : α} (ha : P a) : (d.set k a).All P := by
  intro j b hb
  rw [Dict.get?_set] at hb
  split at hb
  · cases hb
    exact ha
  · exact h j b hb

theorem filter (h : d.All P) (p : κ → α → Bool) : (d.filter p).All P := by
  intro k a ha
  rw [Dict.get?_filter] at ha
  exact h k a (Option.filter_eq_some_iff.1 ha).1

theorem of_mem (h : d.All P) {e : κ × α} (he : e ∈ d.toList) : P e.2 :=
  h e.1 e.2 ((Entries.find_eq_some_iff d.distinct).2 he)

end Dict.All

/-- Every row of the records' table that can be read has a property. -/
def Store.Holds {α : Type} [Rollup α] (P : α → Prop) (s : Store) : Prop :=
  ∀ id row a, (s.table (Rollup.tag α)).get? id = some row → Rollup.decode? row = some a → P a

namespace Store.Holds
variable {α : Type} [Rollup α] {P : α → Prop} {s t : Store}

theorem of_table (h : s.Holds P) (ht : t.table (Rollup.tag α) = s.table (Rollup.tag α)) : t.Holds P := by
  intro id row a hrow
  rw [ht] at hrow
  exact h id row a hrow

theorem put (h : s.Holds P) (hP : Rollup.Lasting P) {rows : List (String × α)} (hrows : ∀ r ∈ rows, P r.2)
    (ht : t.table (Rollup.tag α) = (s.table (Rollup.tag α)).upsert (rows.map fun r => (r.1, Rollup.encode r.2))) :
    t.Holds P := by
  intro id row a hrow ha
  rw [ht] at hrow
  rcases Table.get?_upsert (s.table (Rollup.tag α)) (rows.map fun r => (r.1, Rollup.encode r.2)) id with
    ⟨new, hnew, hget⟩ | ⟨-, hget⟩
  · obtain ⟨r, hr, heq⟩ := List.mem_map.1 hnew
    rw [hrow] at hget
    cases hget
    cases heq
    rw [hP.decode_encode] at ha
    cases ha
    exact hrows r hr
  · rw [hget] at hrow
    exact h id row a hrow ha

end Store.Holds

/-! ### Flushes -/

namespace Ledger
variable {α : Type} [Rollup α] {P : α → Prop} {baselines : Dict OriginKey α} {entries : List (Entry α)}

theorem exists_contribution (hP : Rollup.Lasting P) (hb : baselines.All P) {e : Entry α} (he : P e.2) :
    ∃ v, contribution? baselines e = some v ∧ P v := by
  unfold contribution?
  split
  · exact ⟨e.2, rfl, he⟩
  · split
    · rename_i base hbase
      exact hP.since he (hb _ _ hbase)
    · exact ⟨e.2, rfl, he⟩

theorem exists_combine (hP : Rollup.Lasting P) (hb : baselines.All P) (hne : entries ≠ []) (he : ∀ e ∈ entries, P e.2) :
    ∃ v, combine? baselines entries = some (some v) ∧ P v := by
  obtain ⟨parts, hparts, hlen, hall⟩ := exists_mapM fun e hm => exists_contribution hP hb (he e hm)
  have hparts_ne : parts ≠ [] := fun hnil => hne (List.length_eq_zero_iff.1 (hlen ▸ hnil ▸ rfl))
  obtain ⟨v, hv, hpv⟩ := hP.mergeAll hparts_ne hall
  refine ⟨v, ?_, hpv⟩
  rw [combine?, hparts, ← hv]
  rfl

theorem exists_fresh (hP : Rollup.Lasting P) (hb : baselines.All P) (he : ∀ e ∈ entries, P e.2) {store : Store}
    (hs : store.Holds P) {id : String} (hid : ∃ e ∈ entries, e.1.2 = id) :
    ∃ a, freshRow? entries baselines (storedRow α store id) id = some a ∧ P a := by
  obtain ⟨e, hmem, heid⟩ := hid
  have hne : entriesOf entries id ≠ [] := List.ne_nil_of_mem (List.mem_filter.2 ⟨hmem, decide_eq_true heid⟩)
  obtain ⟨v, hv, hpv⟩ := exists_combine hP hb hne fun e hm => he e (List.mem_of_mem_filter hm)
  refine ⟨mergedRow (storedRow α store id) v, by rw [freshRow?, hv]; rfl, ?_⟩
  unfold mergedRow
  split
  · rename_i existing hexisting
    obtain ⟨row, hrow, hdecode⟩ := Option.bind_eq_some_iff.1 hexisting
    exact hP.merge (hs id row existing (get?_of_storedRow hrow) hdecode) hpv
  · exact hpv

/-- What a writing of records with a property comes to. -/
structure Writing.Sound (P : α → Prop) (w : Writing α) : Prop where
  written : ∀ r ∈ w.written, P r
  baselines : w.baselines.All P
  store : w.store.Holds P
  fault : w.fault ≠ some .overflow

theorem sound_write (hP : Rollup.Lasting P) (hb : baselines.All P) (hd : (entries.map Prod.fst).Nodup)
    (he : ∀ e ∈ entries, P e.2) {store : Store} (hs : store.Holds P) (batchSize : Nat) :
    (write batchSize entries baselines store).Sound P := by
  obtain ⟨done, rest, rows, records, hsplit, hw, -⟩ := progress_write hd batchSize baselines store
  have hrows : ∀ r ∈ rows, P r.2 := by
    intro r hr
    have hid := mem_sortedIds.1 ((hw.sublist hsplit).subset (List.mem_map_of_mem hr))
    obtain ⟨a, ha, hpa⟩ := exists_fresh hP hb he hs hid
    rw [hw.fresh r hr] at ha
    cases ha
    exact hpa
  refine ⟨fun a ha => ?_, fun key b hkb => ?_, hs.put hP hrows hw.table, fun hoverflow => ?_⟩
  · rw [hw.written] at ha
    obtain ⟨r, hr, rfl⟩ := List.mem_map.1 ha
    exact hrows r hr
  · rw [hw.kept] at hkb
    rcases mem_of_baselinesAfter hd hkb with ⟨hmem, -⟩ | hold
    · exact he _ hmem
    · exact hb key b hold
  · obtain ⟨e, hmem, hnone⟩ := hw.stuck hoverflow
    obtain ⟨a, ha, -⟩ := exists_fresh hP hb he hs ⟨e, hmem, rfl⟩
    rw [hnone] at ha
    cases ha

/-- All records that a ledger has in memory have a property. -/
structure Sound (P : α → Prop) (l : Ledger α) : Prop where
  buffer : l.buffer.All P
  baselines : l.baselines.All P

omit [Rollup α] in
theorem Sound.create (pipeline : PipelineId) (window : Duration) (batchSize : Nat) :
    (Ledger.create pipeline window batchSize : Ledger α).Sound P := ⟨.empty, .empty⟩

theorem Sound.acceptBatch {l : Ledger α} (h : l.Sound P) {batch : List (Snapshot α)} (hbatch : ∀ s ∈ batch, P s.record)
    (now : Instant) : (l.acceptBatch batch now).2.Sound P := by
  show (batch.foldl (accept now) l).Sound P
  induction batch generalizing l with
  | nil => exact h
  | cons s rest ih =>
    refine ih ?_ fun x hx => hbatch x (List.mem_cons_of_mem _ hx)
    unfold accept
    split
    · exact h
    · exact ⟨h.buffer.set _ (hbatch s (List.mem_cons_self ..)), h.baselines⟩

variable {l : Ledger α} {store : Store}

theorem Sound.write (hP : Rollup.Lasting P) (h : l.Sound P) (hs : store.Holds P) (now : Instant) (d : Duration) :
    (Ledger.write l.batchSize (l.due now d) l.baselines store).Sound P :=
  sound_write hP h.baselines (l.nodup_due now d) (fun _ he => h.buffer.of_mem (List.mem_of_mem_filter he)) hs l.batchSize

/-- A flush of records that have growths ends exactly when the window can be doubled. -/
theorem isSome_flushCounted_iff (hP : Rollup.Lasting P) (h : l.Sound P) (hs : store.Holds P) (now : Instant)
    (c : Counters) : (l.flushCounted store now c).isSome = true ↔ l.window.double?.isSome = true := by
  unfold flushCounted flush retention?
  cases hdouble : l.window.double? with
  | none => exact Iff.rfl
  | some d =>
    have hw := h.write hP hs now d
    refine ⟨fun _ => rfl, fun _ => ?_⟩
    dsimp only
    split
    · rename_i hfault
      exact absurd hfault hw.fault
    · rfl
    · rfl

theorem Sound.flushCounted (hP : Rollup.Lasting P) (h : l.Sound P) (hs : store.Holds P) {now : Instant} {c : Counters}
    {g : Counted α} (hg : l.flushCounted store now c = some g) :
    (∀ r ∈ g.told, P r) ∧ g.ledger.Sound P ∧ g.ledger.window = l.window ∧ g.store.Holds P := by
  obtain ⟨hledger, hstore, d, hd⟩ := flushCounted_eq_some hg
  have hw := h.write hP hs now d
  have htold : ∀ r ∈ g.told, r ∈ (l.flush store now).written := by
    intro r hr
    simp only [Ledger.flushCounted] at hg
    split at hg
    · cases hg
    · cases hg
      cases hr
    · cases hg
      exact hr
  rw [flush_eq hd] at hledger hstore htold
  refine ⟨fun r hr => hw.written r (htold r hr), ?_, ?_, ?_⟩
  · rw [hledger, Writing.keep_of_ne_overflow hw.fault]
    exact ⟨.empty, hw.baselines.filter _⟩
  · rw [hledger]
  · rw [hstore]
    exact hw.store

end Ledger
end TraceRollup
