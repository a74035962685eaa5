import TraceRollup.Proofs.SoundStations

/-!
# What a flush writes

A flush calls the store for its own table only, and takes no row away (`Store.Extends`). Whatever
the records are, it leaves a row for every live snapshot that was buffered, unless a call was
refused or the arithmetic left its range (`Ledger.rows_of_flushCounted`), which it does not for
replacing records (`Ledger.isSome_flushCounted`).
-/

namespace TraceRollup

/-! ### Stores after calls for one table -/

/-- Calls were made, for one table. -/
structure Store.Extends (name : String) (s t : Store) : Prop where
  others : ∀ other, other ≠ name → t.table other = s.table other
  rows : ∀ id, (s.table name).get? id ≠ none → (t.table name).get? id ≠ none
  history : ∀ c ∈ s.history, c ∈ t.history

theorem Table.get?_upsert_ne_none {t : Table} (rows : List (String × Json)) {id : String}
    (h : id ∈ rows.map Prod.fst ∨ t.get? id ≠ none) : (t.upsert rows).get? id ≠ none := by
  rcases t.get?_upsert rows id with ⟨row, -, hget⟩ | ⟨hno, hget⟩
  · rw [hget]
    exact Option.some_ne_none row
  · rw [hget]
    exact h.resolve_left hno

/-! ### Rows of a chunk -/

namespace Ledger
variable {α : Type} [Rollup α] {entries : List (Entry α)} {baselines : Dict OriginKey α}

theorem combine?_replace (hmode : Rollup.mode α = .replace) (baselines : Dict OriginKey α) (entries : List (Entry α)) :
    combine? baselines entries = some (Rollup.mergeAll (entries.map Prod.snd)) := by
  have hcontribution : ∀ e ∈ entries, contribution? baselines e = some e.2 := by
    intro e _
    rw [contribution?, hmode]
  rw [combine?, Books.mapM_eq_some hcontribution]
  rfl

theorem freshRow?_replace (hmode : Rollup.mode α = .replace) (baselines : Dict OriginKey α) (entries : List (Entry α))
    (id : String) : freshRow? entries baselines none id = Rollup.mergeAll ((entriesOf entries id).map Prod.snd) := by
  rw [freshRow?, combine?_replace hmode]
  cases Rollup.mergeAll ((entriesOf entries id).map Prod.snd) <;> rfl

/-- Rows of replacing records are what is buffered, so each id has one. -/
theorem freshRow?_ne_none (hmode : Rollup.mode α = .replace) (baselines : Dict OriginKey α) {entries : List (Entry α)}
    {id : String} (hid : ∃ e ∈ entries, e.1.2 = id) : freshRow? entries baselines none id ≠ none := by
  obtain ⟨e, he, heid⟩ := hid
  have hmem : e ∈ entriesOf entries id := List.mem_filter.2 ⟨he, decide_eq_true heid⟩
  rw [freshRow?_replace hmode]
  cases hentries : entriesOf entries id with
  | nil =>
    rw [hentries] at hmem
    cases hmem
  | cons first others => exact Option.some_ne_none _

/-! ### Writing -/

variable {before store : Store} {done : List (List String)} {w : Writing α} {rows : List (String × α)}
  {records : List CallRecord}

theorem Progress.extends (h : Progress entries baselines before done w rows records) :
    before.Extends (Rollup.tag α) w.store := by
  refine ⟨h.others, fun id hid => ?_, fun c hc => ?_⟩
  · rw [h.table]
    exact Table.get?_upsert_ne_none _ (Or.inr hid)
  · rw [h.history]
    exact List.mem_append_right _ hc

/-- Only a refused call ends the writing of replacing records. -/
theorem Progress.fault_ne_overflow (hmode : Rollup.mode α = .replace)
    (h : Progress entries baselines before done w rows records) : w.fault ≠ some .overflow := by
  intro hoverflow
  obtain ⟨e, he, hnone⟩ := h.stuck hoverflow
  have hstored : storedRow α before e.1.2 = none := by
    rw [storedRow, hmode]
  rw [hstored] at hnone
  exact freshRow?_ne_none hmode baselines ⟨e, he, rfl⟩ hnone

/-! ### Flushing -/

variable {l : Ledger α} {now : Instant} {c : Counters} {g : Counted α}

theorem flushCounted_write (hg : l.flushCounted store now c = some g) {d : Duration} (hd : l.retention? = some d) :
    g.store = (write l.batchSize (l.due now d) l.baselines store).store ∧
      (write l.batchSize (l.due now d) l.baselines store).fault ≠ some .overflow := by
  have hflush : (l.flush store now).store = (write l.batchSize (l.due now d) l.baselines store).store ∧
      (l.flush store now).fault = (write l.batchSize (l.due now d) l.baselines store).fault := by
    rw [flush, hd]
    exact ⟨rfl, rfl⟩
  refine ⟨(flushCounted_eq_some hg).2.1.trans hflush.1, fun hoverflow => ?_⟩
  rw [← hflush.2] at hoverflow
  simp only [flushCounted, hoverflow] at hg
  cases hg

theorem extends_flushCounted (hg : l.flushCounted store now c = some g) : store.Extends (Rollup.tag α) g.store := by
  obtain ⟨-, -, d, hd⟩ := flushCounted_eq_some hg
  obtain ⟨_, _, _, _, -, hw, -⟩ := progress_write (l.nodup_due now d) l.batchSize l.baselines store
  rw [(flushCounted_write hg hd).1]
  exact hw.extends

/-- Every live snapshot of the buffer has its row after a flush, unless a call was refused. -/
theorem rows_of_flushCounted (hbatch : 0 < l.batchSize) (hg : l.flushCounted store now c = some g)
    (hanswered : ∀ c ∈ g.store.history, ¬ c.Refused) {d : Duration} (hd : l.retention? = some d) {k : OriginKey} {b : α}
    (hb : l.buffer.get? k = some b) (hlive : Live now d b) : (g.store.table (Rollup.tag α)).get? k.2 ≠ none := by
  obtain ⟨hstore, hoverflow⟩ := flushCounted_write hg hd
  obtain ⟨done, rest, rows, records, hsplit, hw, hall⟩ := progress_write (l.nodup_due now d) l.batchSize l.baselines store
  rw [hstore] at hanswered ⊢
  have hends : (write l.batchSize (l.due now d) l.baselines store).fault = none := by
    cases hfault : (write l.batchSize (l.due now d) l.baselines store).fault with
    | none => rfl
    | some fault =>
      cases fault with
      | overflow => exact absurd hfault hoverflow
      | storage e =>
        obtain ⟨c, hc, hrefused, -⟩ := hw.refused e hfault
        exact absurd hrefused (hanswered c (hw.history ▸ List.mem_append_left _ hc))
  have hids : rows.map Prod.fst = sortedIds (l.due now d) := by
    rw [hall hends, List.append_nil] at hsplit
    rw [hw.ids, ← hsplit]
    exact flatten_chunks_eq hbatch (Nat.le_refl _)
  rw [hw.table]
  refine Table.get?_upsert_ne_none _ (Or.inl ?_)
  rw [List.map_map]
  exact hids ▸ mem_sortedIds.2 ⟨(k, b), mem_live.2 ⟨hb, hlive⟩, rfl⟩

theorem isSome_flushCounted (hmode : Rollup.mode α = .replace) (hretention : l.retention?.isSome = true) (store : Store)
    (now : Instant) (c : Counters) : (l.flushCounted store now c).isSome = true := by
  obtain ⟨d, hd⟩ := Option.isSome_iff_exists.1 hretention
  obtain ⟨_, _, _, _, -, hw, -⟩ := progress_write (l.nodup_due now d) l.batchSize l.baselines store
  have hends := hw.fault_ne_overflow hmode
  simp only [flushCounted, flush_eq hd]
  split
  · rename_i hfault
    exact absurd hfault hends
  · rfl
  · rfl

end Ledger
end TraceRollup
