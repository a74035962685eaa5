import TraceRollup.Proofs.Standing

/-!
# Chunk by chunk

A flush goes through its ids in ascending order, a chunk at a time. A chunk is written as a
whole, or it ends the writing and leaves all but the record of calls as it was
(`Ledger.writeChunk_cases`). No two chunks share an id, so every row is made of what was there
before the flush, wherever the ids are cut (`Ledger.progress_write`).
-/

namespace TraceRollup

/-! ### Calls to a store -/

theorem CallRecord.writes_of_refused {r : CallRecord} (h : r.Refused) (name : String) : r.writes name = [] := by
  obtain ⟨what, hverdict⟩ := h
  unfold writes
  rw [hverdict]
  cases r.call <;> rfl

theorem CallRecord.writes_of_read {r : CallRecord} {table : String} {ids : List String} (h : r.call = .read table ids)
    (name : String) : r.writes name = [] := by
  unfold writes
  rw [h]

theorem CallRecord.writes_of_answered {r : CallRecord} {name : String} {ids : List String} (h : ¬ r.Refused)
    (hcall : r.call = .write name ids) : r.writes name = ids := by
  unfold writes
  rw [hcall]
  cases hverdict : r.verdict with
  | refuse what => exact absurd ⟨what, hverdict⟩ h
  | answer | findNothing | giveZero => exact if_pos rfl

namespace Store

/-- The store refuses no call. -/
def Healthy (s : Store) : Prop := ∀ past call what, s.plan past call ≠ .refuse what

theorem getMany_cases (s : Store) (name : String) (ids : List String) :
    ∃ r : CallRecord, r.call = .read name ids ∧ r.verdict = s.plan s.history r.call ∧
      ((¬ r.Refused ∧ s.getMany name ids = (.ok ((s.table name).getMany ids), { s with history := r :: s.history })) ∨
        (r.Refused ∧ ∃ e, s.getMany name ids = (.error e, { s with history := r :: s.history }))) := by
  refine ⟨⟨.read name ids, s.plan s.history (.read name ids)⟩, rfl, rfl, ?_⟩
  unfold getMany CallRecord.Refused
  simp only [meet]
  cases s.plan s.history (.read name ids) with
  | refuse what => exact Or.inr ⟨⟨what, rfl⟩, _, rfl⟩
  | answer | findNothing | giveZero => exact Or.inl ⟨by simp, rfl⟩

theorem upsert_cases (s : Store) (name : String) (rows : List (String × Json)) :
    ∃ r : CallRecord, r.call = .write name (rows.map Prod.fst) ∧ r.verdict = s.plan s.history r.call ∧
      ((¬ r.Refused ∧ s.upsert name rows =
          (.ok (), { s with contents := s.contents.upsert name rows, history := r :: s.history })) ∨
        (r.Refused ∧ ∃ e, s.upsert name rows = (.error e, { s with history := r :: s.history }))) := by
  refine ⟨⟨.write name (rows.map Prod.fst), s.plan s.history (.write name (rows.map Prod.fst))⟩, rfl, rfl, ?_⟩
  unfold upsert CallRecord.Refused
  simp only [meet]
  cases s.plan s.history (.write name (rows.map Prod.fst)) with
  | refuse what => exact Or.inr ⟨⟨what, rfl⟩, _, rfl⟩
  | answer | findNothing | giveZero => exact Or.inl ⟨by simp, rfl⟩

end Store

theorem Contents.table_upsert_of_ne (c : Contents) {name other : String} (h : other ≠ name)
    (rows : List (String × Json)) : (c.upsert name rows).table other = c.table other := by
  simp only [upsert, table, Dict.get?_set, if_neg h]

theorem Table.upsert_append (t : Table) (xs ys : List (String × Json)) :
    t.upsert (xs ++ ys) = (t.upsert xs).upsert ys := List.foldl_append

/-- Of rows under different ids each is there as it was put in, and under other ids nothing changes. -/
theorem Table.get?_upsert_map {α : Type} (t : Table) (encode : α → Json) {rows : List (String × α)}
    (h : (rows.map Prod.fst).Nodup) (id : String) :
    (t.upsert (rows.map fun r => (r.1, encode r.2))).get? id = ((Entries.find id rows).map encode).or (t.get? id) := by
  have hkeys : (rows.map fun r => (r.1, encode r.2)).map Prod.fst = rows.map Prod.fst := by
    rw [List.map_map]
    rfl
  have hfind : ∀ rows : List (String × α),
      Entries.find id (rows.map fun r => (r.1, encode r.2)) = (Entries.find id rows).map encode := by
    intro rows
    induction rows with
    | nil => rfl
    | cons r rest ih =>
      simp only [List.map_cons, Entries.find]
      split
      · rfl
      · exact ih
  rw [upsert, Entries.get?_foldl_set (hkeys ▸ h), hfind]

namespace Ledger
variable {α : Type}

/-! ### Ids of a flush -/

theorem mem_insert {id j : String} {ids : List String} : j ∈ sortedIds.insert id ids ↔ j = id ∨ j ∈ ids := by
  induction ids with
  | nil => simp [sortedIds.insert]
  | cons k rest ih =>
    unfold sortedIds.insert
    split
    · simp
    · split
      · rename_i _ h
        subst h
        simp
      · simp only [List.mem_cons, ih]
        constructor
        · rintro (h | h | h) <;> simp [h]
        · rintro (h | h | h) <;> simp [h]

theorem mem_sortedIds {entries : List (Entry α)} {id : String} :
    id ∈ sortedIds entries ↔ ∃ e ∈ entries, e.1.2 = id := by
  have key : ∀ (entries : List (Entry α)) (ids : List String),
      id ∈ entries.foldl (fun ids e => sortedIds.insert e.1.2 ids) ids ↔ id ∈ ids ∨ ∃ e ∈ entries, e.1.2 = id := by
    intro entries
    induction entries with
    | nil => simp
    | cons e rest ih =>
      intro ids
      rw [List.foldl_cons, ih, mem_insert]
      simp only [List.mem_cons, exists_eq_or_imp]
      constructor
      · rintro ((h | h) | h) <;> simp [h]
      · rintro (h | h | h) <;> simp [h]
  rw [sortedIds, key]
  simp

theorem pairwise_insert {id : String} {ids : List String} (h : ids.Pairwise (· < ·)) :
    (sortedIds.insert id ids).Pairwise (· < ·) := by
  induction ids with
  | nil => exact List.pairwise_singleton _ _
  | cons j rest ih =>
    unfold sortedIds.insert
    obtain ⟨hj, hrest⟩ := List.pairwise_cons.1 h
    by_cases hlt : id < j
    · rw [if_pos hlt]
      refine List.pairwise_cons.2 ⟨fun k hk => ?_, h⟩
      rcases List.mem_cons.1 hk with rfl | hk
      · exact hlt
      · exact String.lt_trans hlt (hj k hk)
    · rw [if_neg hlt]
      by_cases heq : id = j
      · rwa [if_pos heq]
      · rw [if_neg heq]
        refine List.pairwise_cons.2 ⟨fun k hk => ?_, ih hrest⟩
        rcases mem_insert.1 hk with rfl | hk
        · exact String.not_le.1 fun hle => heq (String.le_antisymm hle (String.not_lt.1 hlt))
        · exact hj k hk

theorem pairwise_sortedIds (entries : List (Entry α)) : (sortedIds entries).Pairwise (· < ·) := by
  have key : ∀ (entries : List (Entry α)) (ids : List String), ids.Pairwise (· < ·) →
      (entries.foldl (fun ids e => sortedIds.insert e.1.2 ids) ids).Pairwise (· < ·) := by
    intro entries
    induction entries with
    | nil => exact fun ids h => h
    | cons e rest ih => exact fun ids h => ih _ (pairwise_insert h)
  exact key entries [] List.Pairwise.nil

theorem nodup_sortedIds (entries : List (Entry α)) : (sortedIds entries).Nodup := by
  refine (pairwise_sortedIds entries).imp fun hlt heq => ?_
  exact String.lt_irrefl _ (heq ▸ hlt)

/-! ### Cutting a list -/

theorem mem_of_mem_chunks {β : Type} {size fuel : Nat} {xs chunk : List β} {x : β}
    (hc : chunk ∈ chunks size fuel xs) (hx : x ∈ chunk) : x ∈ xs := by
  induction fuel generalizing xs with
  | zero => cases hc
  | succ fuel ih =>
    unfold chunks at hc
    split at hc
    · cases hc
    · rcases List.mem_cons.1 hc with rfl | hc
      · exact List.mem_of_mem_take hx
      · exact List.mem_of_mem_drop (ih hc)

theorem length_of_mem_chunks {β : Type} {size fuel : Nat} {xs chunk : List β} (hs : 0 < size)
    (hc : chunk ∈ chunks size fuel xs) : chunk ≠ [] ∧ chunk.length ≤ size := by
  induction fuel generalizing xs with
  | zero => cases hc
  | succ fuel ih =>
    unfold chunks at hc
    split at hc
    · cases hc
    · rename_i hne
      rcases List.mem_cons.1 hc with rfl | hc
      · rw [List.isEmpty_iff] at hne
        have hlen := List.length_pos_iff.2 hne
        rw [← List.length_pos_iff, List.length_take]
        omega
      · exact ih hc

theorem flatten_chunks_eq {β : Type} {size fuel : Nat} {xs : List β} (hs : 0 < size) (hf : xs.length ≤ fuel) :
    (chunks size fuel xs).flatten = xs := by
  induction fuel generalizing xs with
  | zero => rw [List.length_eq_zero_iff.1 (Nat.le_zero.1 hf)]; rfl
  | succ fuel ih =>
    unfold chunks
    cases xs with
    | nil => rfl
    | cons x rest =>
      have hlen : ((x :: rest).drop size).length ≤ fuel := by
        rw [List.length_drop]
        omega
      rw [List.isEmpty_cons, if_neg Bool.false_ne_true, List.flatten_cons, ih hlen, List.take_append_drop]

theorem flatten_chunks_sublist {β : Type} (size fuel : Nat) (xs : List β) :
    (chunks size fuel xs).flatten.Sublist xs := by
  induction fuel generalizing xs with
  | zero => exact List.nil_sublist xs
  | succ fuel ih =>
    unfold chunks
    split
    · exact List.nil_sublist xs
    · rw [List.flatten_cons]
      have hrest := (ih (xs.drop size)).append_left (xs.take size)
      rwa [List.take_append_drop] at hrest

/-! ### Baselines that are kept -/

namespace Writing
variable {w : Writing α} {live : α → Bool} {key : OriginKey} {base : α}

theorem keep_of_ne_overflow (h : w.fault ≠ some .overflow) (live : α → Bool) :
    w.keep live = w.baselines.filter fun _ base => live base := by
  unfold keep
  split
  · rename_i hoverflow
    exact absurd hoverflow h
  · rfl
  · rfl

theorem keep_of_overflow (h : w.fault = some .overflow) (live : α → Bool) : w.keep live = w.baselines := by
  rw [keep, h]

theorem get?_of_keep (h : (w.keep live).get? key = some base) : w.baselines.get? key = some base := by
  by_cases hoverflow : w.fault = some .overflow
  · rwa [keep_of_overflow hoverflow] at h
  · rw [keep_of_ne_overflow hoverflow, Dict.get?_filter, Option.filter_eq_some_iff] at h
    exact h.1

/-- What is live is kept however the writing ended. -/
theorem get?_keep (h : w.baselines.get? key = some base) (hlive : live base = true) :
    (w.keep live).get? key = some base := by
  by_cases hoverflow : w.fault = some .overflow
  · rwa [keep_of_overflow hoverflow]
  · rw [keep_of_ne_overflow hoverflow, Dict.get?_filter, Option.filter_eq_some_iff]
    exact ⟨h, hlive⟩

end Writing

/-! ### Rows of a chunk -/

variable [Rollup α]

/-- The stored row that the new row of an id is folded into. Replacing records are folded into none. -/
def storedRow (α : Type) [Rollup α] (store : Store) (id : String) : Option Json :=
  match Rollup.mode α with
  | .additive => (store.table (Rollup.tag α)).get? id
  | .replace => none

/-- The stored rows that a chunk reads. -/
def storedRows (α : Type) [Rollup α] (store : Store) (ids : List String) : List (String × Json) :=
  match Rollup.mode α with
  | .additive => (store.table (Rollup.tag α)).getMany ids
  | .replace => []

/-- The new row of an id. -/
def freshRow? (entries : List (Entry α)) (baselines : Dict OriginKey α) (stored : Option Json) (id : String) :
    Option α := do
  let value ← (← combine? baselines (entriesOf entries id))
  return mergedRow stored value

theorem lookup_storedRows (store : Store) {ids : List String} {id : String} (h : id ∈ ids) :
    (storedRows α store ids).lookup id = storedRow α store id := by
  unfold storedRows storedRow
  cases Rollup.mode α with
  | additive => rw [Table.lookup_getMany, if_pos h]
  | replace => rfl

theorem get?_of_storedRow {store : Store} {id : String} {row : Json} (h : storedRow α store id = some row) :
    (store.table (Rollup.tag α)).get? id = some row := by
  unfold storedRow at h
  cases hmode : Rollup.mode α with
  | additive => rwa [hmode] at h
  | replace =>
    rw [hmode] at h
    cases h

variable {entries : List (Entry α)} {baselines : Dict OriginKey α}

theorem rowsOf?_ids {stored : List (String × Json)} {ids : List String} {rows : List (String × α)}
    (h : rowsOf? entries baselines stored ids = some rows) : rows.map Prod.fst = ids := by
  unfold rowsOf? at h
  induction ids generalizing rows with
  | nil =>
    cases h
    rfl
  | cons id rest ih =>
    simp only [List.mapM_cons, Option.bind_eq_bind, Option.bind_eq_some_iff, Option.pure_def, Option.some.injEq] at h
    obtain ⟨_, ⟨_, -, value, -, rfl⟩, others, hothers, rfl⟩ := h
    rw [List.map_cons, ih hothers]

theorem rowsOf?_cons (entries : List (Entry α)) (baselines : Dict OriginKey α) (stored : List (String × Json))
    (id : String) (rest : List String) : rowsOf? entries baselines stored (id :: rest) =
      (freshRow? entries baselines (stored.lookup id) id).bind fun row =>
        (rowsOf? entries baselines stored rest).map ((id, row) :: ·) := by
  unfold rowsOf? freshRow?
  rw [List.mapM_cons]
  cases combine? baselines (entriesOf entries id) with
  | none => rfl
  | some value =>
    cases value with
    | none => rfl
    | some value =>
      simp only [Option.bind_eq_bind, Option.bind_some, Option.pure_def, Option.map_eq_bind]
      rfl

theorem fresh_of_rowsOf {stored : List (String × Json)} {ids : List String} {rows : List (String × α)}
    (h : rowsOf? entries baselines stored ids = some rows) :
    ∀ r ∈ rows, freshRow? entries baselines (stored.lookup r.1) r.1 = some r.2 := by
  induction ids generalizing rows with
  | nil =>
    cases h
    exact fun _ hr => absurd hr List.not_mem_nil
  | cons id rest ih =>
    rw [rowsOf?_cons, Option.bind_eq_some_iff] at h
    obtain ⟨row, hrow, hrest⟩ := h
    obtain ⟨others, hothers, rfl⟩ := Option.map_eq_some_iff.1 hrest
    intro r hr
    rcases List.mem_cons.1 hr with rfl | hr
    · exact hrow
    · exact ih hothers r hr

theorem exists_stuck {stored : List (String × Json)} {ids : List String}
    (h : rowsOf? entries baselines stored ids = none) :
    ∃ id ∈ ids, freshRow? entries baselines (stored.lookup id) id = none := by
  induction ids with
  | nil => cases h
  | cons id rest ih =>
    rw [rowsOf?_cons] at h
    cases hrow : freshRow? entries baselines (stored.lookup id) id with
    | none => exact ⟨id, List.mem_cons_self .., hrow⟩
    | some row =>
      rw [hrow, Option.bind_some, Option.map_eq_none_iff] at h
      obtain ⟨stuck, hstuck, hnone⟩ := ih h
      exact ⟨stuck, List.mem_cons_of_mem _ hstuck, hnone⟩

/-- The row of an id takes nothing from the baselines of other ids. -/
theorem freshRow?_congr {others : Dict OriginKey α} {id : String} (h : ∀ o, others.get? (o, id) = baselines.get? (o, id))
    (stored : Option Json) : freshRow? entries others stored id = freshRow? entries baselines stored id := by
  have hcontribution : ∀ e ∈ entriesOf entries id, contribution? others e = contribution? baselines e := by
    intro e he
    have hid : e.1.2 = id := of_decide_eq_true (List.mem_filter.1 he).2
    have hbase := h e.1.1
    rw [← hid] at hbase
    unfold contribution?
    rw [show others.get? e.1 = baselines.get? e.1 from hbase]
  have hvalues : (entriesOf entries id).mapM (contribution? others) = (entriesOf entries id).mapM (contribution? baselines) := by
    generalize entriesOf entries id = es at hcontribution
    induction es with
    | nil => rfl
    | cons e rest ih =>
      rw [List.mapM_cons, List.mapM_cons, hcontribution e (List.mem_cons_self ..),
        ih fun x hx => hcontribution x (List.mem_cons_of_mem _ hx)]
  unfold freshRow? combine?
  rw [hvalues]

/-! ### One chunk -/

/-- The calls of a chunk none of which is refused, in order. -/
def chunkCalls (α : Type) [Rollup α] (ids : List String) : List StoreCall :=
  match Rollup.mode α with
  | .additive => [.read (Rollup.tag α) ids, .write (Rollup.tag α) ids]
  | .replace => [.write (Rollup.tag α) ids]

/-- What writing a chunk comes to: its rows are put in, or a call is refused, or it has no rows. -/
inductive ChunkStep (entries : List (Entry α)) (w : Writing α) (ids : List String) : Writing α → Prop
  | put {rows : List (String × α)} {records : List CallRecord}
      (hrows : rowsOf? entries w.baselines (storedRows α w.store ids) ids = some rows)
      (hcalls : records.reverse.map CallRecord.call = chunkCalls α ids)
      (hanswered : ∀ r ∈ records, ¬ r.Refused) (hwrites : writesIn (Rollup.tag α) records.reverse = ids) :
      ChunkStep entries w ids
        { written := w.written ++ rows.map Prod.snd
          baselines := advance entries ids w.baselines
          store := { w.store with
            contents := w.store.contents.upsert (Rollup.tag α) (rows.map fun r => (r.1, Rollup.encode r.2))
            history := records ++ w.store.history }
          fault := none }
  | refused {r : CallRecord} {records : List CallRecord} {past : List CallRecord} {e : StoreError}
      (hr : r ∈ records) (hrefused : r.Refused) (hverdict : r.verdict = w.store.plan past r.call)
      (hwrites : writesIn (Rollup.tag α) records.reverse = []) :
      ChunkStep entries w ids
        { w with store := { w.store with history := records ++ w.store.history }, fault := some (.storage e) }
  | stuck {records : List CallRecord} (hrows : rowsOf? entries w.baselines (storedRows α w.store ids) ids = none)
      (hanswered : ∀ r ∈ records, ¬ r.Refused) (hwrites : writesIn (Rollup.tag α) records.reverse = []) :
      ChunkStep entries w ids
        { w with store := { w.store with history := records ++ w.store.history }, fault := some .overflow }

theorem readChunk_cases (store : Store) (ids : List String) :
    (∃ records : List CallRecord,
        readChunk (α := α) store ids = (.ok (storedRows α store ids), { store with history := records ++ store.history }) ∧
        records.reverse.map CallRecord.call ++ [.write (Rollup.tag α) ids] = chunkCalls α ids ∧
        (∀ r ∈ records, ¬ r.Refused) ∧ writesIn (Rollup.tag α) records.reverse = []) ∨
      ∃ (r : CallRecord) (e : StoreError),
        readChunk (α := α) store ids = (.error e, { store with history := r :: store.history }) ∧ r.Refused ∧
        r.verdict = store.plan store.history r.call := by
  unfold readChunk storedRows chunkCalls
  cases Rollup.mode α with
  | replace => exact Or.inl ⟨[], rfl, rfl, fun _ hr => absurd hr List.not_mem_nil, rfl⟩
  | additive =>
    obtain ⟨r, hcall, hverdict, ⟨hanswered, hread⟩ | ⟨hrefused, e, hread⟩⟩ := store.getMany_cases (Rollup.tag α) ids
    · refine Or.inl ⟨[r], hread, ?_, fun c hc => ?_, ?_⟩
      · rw [List.reverse_singleton, List.map_singleton, hcall]
        rfl
      · rwa [List.mem_singleton.1 hc]
      · rw [List.reverse_singleton, writesIn, List.flatMap_singleton, CallRecord.writes_of_read hcall]
    · exact Or.inr ⟨r, e, hread, hrefused, hverdict⟩

theorem writeChunk_cases {w : Writing α} (hfault : w.fault = none) (ids : List String) :
    ChunkStep entries w ids (writeChunk entries w ids) := by
  unfold writeChunk
  rw [hfault]
  rcases readChunk_cases (α := α) w.store ids with ⟨reads, hread, hcalls, hanswered, hwrites⟩ | ⟨r, e, hread, hrefused, hverdict⟩
  · simp only [hread]
    cases hrows : rowsOf? entries w.baselines (storedRows α w.store ids) ids with
    | none => exact .stuck hrows hanswered hwrites
    | some rows =>
      have hids : (rows.map fun r => (r.1, Rollup.encode r.2)).map Prod.fst = ids := by
        rw [List.map_map]
        exact rowsOf?_ids hrows
      obtain ⟨u, hcall, hverdict, ⟨hput, hupsert⟩ | ⟨hrefused, e, hupsert⟩⟩ :=
        Store.upsert_cases { w.store with history := reads ++ w.store.history } (Rollup.tag α)
          (rows.map fun r => (r.1, Rollup.encode r.2))
      · simp only [hupsert]
        rw [hids] at hcall
        rw [← List.cons_append]
        refine .put hrows ?_ (fun r hr => ?_) ?_
        · rw [List.reverse_cons, List.map_append, List.map_singleton, hcall, hcalls]
        · rcases List.mem_cons.1 hr with rfl | hr
          · exact hput
          · exact hanswered r hr
        · rw [List.reverse_cons, writesIn_append, hwrites, List.nil_append, writesIn, List.flatMap_singleton,
            CallRecord.writes_of_answered hput hcall]
      · simp only [hupsert]
        rw [← List.cons_append]
        refine .refused (List.mem_cons_self ..) hrefused hverdict ?_
        rw [List.reverse_cons, writesIn_append, hwrites, List.nil_append, writesIn, List.flatMap_singleton,
          CallRecord.writes_of_refused hrefused]
  · simp only [hread]
    rw [← List.singleton_append]
    refine .refused (List.mem_singleton_self r) hrefused hverdict ?_
    rw [List.reverse_singleton, writesIn, List.flatMap_singleton, CallRecord.writes_of_refused hrefused]

/-! ### Chunk after chunk -/

/-- The baselines once the rows of some ids were written. Replacing records keep none. -/
def baselinesAfter (entries : List (Entry α)) (baselines : Dict OriginKey α) (ids : List String) : Standing α :=
  match Rollup.mode α with
  | .additive => Standing.advance baselines.get? entries ids
  | .replace => baselines.get?

theorem get?_advance (hd : (entries.map Prod.fst).Nodup) (ids : List String) (baselines : Dict OriginKey α) :
    (advance entries ids baselines).get? = baselinesAfter entries baselines ids := by
  funext key
  unfold advance baselinesAfter
  cases Rollup.mode α with
  | replace => rfl
  | additive =>
    simp only [Standing.advance]
    rw [Entries.get?_foldl_set (hd.sublist (List.filter_sublist.map Prod.fst)), Entries.find_filter hd]
    cases Entries.find key entries <;> by_cases hid : key.2 ∈ ids <;> simp [Option.filter, hid]

theorem baselinesAfter_append {later : Dict OriginKey α} {xs : List String}
    (h : later.get? = baselinesAfter entries baselines xs) (ys : List String) :
    baselinesAfter entries later ys = baselinesAfter entries baselines (xs ++ ys) := by
  unfold baselinesAfter at h ⊢
  cases hmode : Rollup.mode α with
  | replace => rw [hmode] at h; exact h
  | additive =>
    rw [hmode] at h
    simp only at h ⊢
    rw [h, Standing.advance_append]

theorem baselinesAfter_of_notMem {ids : List String} {key : OriginKey} (h : key.2 ∉ ids) :
    baselinesAfter entries baselines ids key = baselines.get? key := by
  unfold baselinesAfter
  cases Rollup.mode α with
  | replace => rfl
  | additive => exact if_neg h

theorem mem_of_baselinesAfter (hd : (entries.map Prod.fst).Nodup) {ids : List String} {key : OriginKey} {b : α}
    (h : baselinesAfter entries baselines ids key = some b) :
    ((key, b) ∈ entries ∧ key.2 ∈ ids) ∨ baselines.get? key = some b := by
  unfold baselinesAfter at h
  cases hmode : Rollup.mode α with
  | replace =>
    rw [hmode] at h
    exact Or.inr h
  | additive =>
    rw [hmode] at h
    exact (Standing.advance_eq_some hd h).imp id And.left

/-- What a writing has come to with the chunks `done` written: the rows that they have now, made of
what was there before, and the calls for them. -/
structure Progress (entries : List (Entry α)) (baselines : Dict OriginKey α) (before : Store)
    (done : List (List String)) (w : Writing α) (rows : List (String × α)) (records : List CallRecord) : Prop where
  ids : rows.map Prod.fst = done.flatten
  fresh : ∀ r ∈ rows, freshRow? entries baselines (storedRow α before r.1) r.1 = some r.2
  written : w.written = rows.map Prod.snd
  kept : w.baselines.get? = baselinesAfter entries baselines done.flatten
  table : w.store.table (Rollup.tag α) =
    (before.table (Rollup.tag α)).upsert (rows.map fun r => (r.1, Rollup.encode r.2))
  others : ∀ name, name ≠ Rollup.tag α → w.store.table name = before.table name
  plan : w.store.plan = before.plan
  history : w.store.history = records ++ before.history
  writes : writesIn (Rollup.tag α) records.reverse = done.flatten
  calls : w.fault = none → records.reverse.map CallRecord.call = done.flatMap (chunkCalls α) ∧ ∀ r ∈ records, ¬ r.Refused
  refused : ∀ e, w.fault = some (.storage e) →
    ∃ r ∈ records, r.Refused ∧ ∃ past, r.verdict = before.plan past r.call
  stuck : w.fault = some .overflow → ∃ e ∈ entries, freshRow? entries baselines (storedRow α before e.1.2) e.1.2 = none

namespace Progress
variable {before : Store} {done : List (List String)} {chunk : List String} {w : Writing α} {rows : List (String × α)}
  {records : List CallRecord}

theorem start (entries : List (Entry α)) (baselines : Dict OriginKey α) (before : Store) :
    Progress entries baselines before [] ⟨[], baselines, before, none⟩ [] [] where
  ids := rfl
  fresh _ hr := absurd hr List.not_mem_nil
  written := rfl
  kept := by
    funext key
    exact (baselinesAfter_of_notMem List.not_mem_nil).symm
  table := rfl
  others _ _ := rfl
  plan := rfl
  history := rfl
  writes := rfl
  calls _ := ⟨rfl, fun _ hr => absurd hr List.not_mem_nil⟩
  refused _ h := by cases h
  stuck h := by cases h

/-- Under ids that are not yet written nothing has changed. -/
theorem row_eq (h : Progress entries baselines before done w rows records) {id : String} (hid : id ∉ done.flatten) :
    freshRow? entries w.baselines (storedRow α w.store id) id = freshRow? entries baselines (storedRow α before id) id := by
  have hstored : storedRow α w.store id = storedRow α before id := by
    unfold storedRow
    cases Rollup.mode α with
    | replace => rfl
    | additive =>
      -- A row under the id would be one of those put in, and these have the ids of the chunks done.
      rcases Table.get?_upsert (before.table (Rollup.tag α)) (rows.map fun r => (r.1, Rollup.encode r.2)) id with
        ⟨row, hrow, -⟩ | ⟨-, hsame⟩
      · obtain ⟨r, hr, heq⟩ := List.mem_map.1 hrow
        cases heq
        exact absurd (h.ids ▸ List.mem_map_of_mem hr) hid
      · rw [h.table]
        exact hsame
  rw [hstored]
  refine freshRow?_congr (fun o => ?_) _
  rw [h.kept]
  exact baselinesAfter_of_notMem hid

/-- Calls that put nothing in and end the writing. -/
theorem stop (h : Progress entries baselines before done w rows records) {more : List CallRecord} {f : FlushFault}
    (hwrites : writesIn (Rollup.tag α) more.reverse = [])
    (hrefused : ∀ e, f = .storage e → ∃ r ∈ more, r.Refused ∧ ∃ past, r.verdict = before.plan past r.call)
    (hstuck : f = .overflow → ∃ e ∈ entries, freshRow? entries baselines (storedRow α before e.1.2) e.1.2 = none) :
    Progress entries baselines before done
      { w with store := { w.store with history := more ++ w.store.history }, fault := some f } rows (more ++ records) where
  ids := h.ids
  fresh := h.fresh
  written := h.written
  kept := h.kept
  table := h.table
  others := h.others
  plan := h.plan
  history := by
    show more ++ w.store.history = _
    rw [h.history, List.append_assoc]
  writes := by rw [List.reverse_append, writesIn_append, hwrites, List.append_nil, h.writes]
  calls hnone := by cases hnone
  refused e he := by
    obtain ⟨r, hr, hrest⟩ := hrefused e (Option.some.inj he)
    exact ⟨r, List.mem_append_left _ hr, hrest⟩
  stuck he := hstuck (Option.some.inj he)

theorem put (h : Progress entries baselines before done w rows records) (hfault : w.fault = none)
    (hd : (entries.map Prod.fst).Nodup) {more : List (String × α)} {called : List CallRecord}
    (hids : more.map Prod.fst = chunk)
    (hfresh : ∀ r ∈ more, freshRow? entries baselines (storedRow α before r.1) r.1 = some r.2)
    (hcalls : called.reverse.map CallRecord.call = chunkCalls α chunk) (hanswered : ∀ r ∈ called, ¬ r.Refused)
    (hwrites : writesIn (Rollup.tag α) called.reverse = chunk) :
    Progress entries baselines before (done ++ [chunk])
      { written := w.written ++ more.map Prod.snd
        baselines := advance entries chunk w.baselines
        store := { w.store with
          contents := w.store.contents.upsert (Rollup.tag α) (more.map fun r => (r.1, Rollup.encode r.2))
          history := called ++ w.store.history }
        fault := none } (rows ++ more) (called ++ records) where
  ids := by rw [List.map_append, h.ids, hids, List.flatten_append, List.flatten_singleton]
  fresh r hr := by
    rcases List.mem_append.1 hr with hr | hr
    · exact h.fresh r hr
    · exact hfresh r hr
  written := by rw [h.written, List.map_append]
  kept := by
    rw [get?_advance hd, baselinesAfter_append h.kept, List.flatten_append, List.flatten_singleton]
  table := by
    show (w.store.contents.upsert (Rollup.tag α) _).table (Rollup.tag α) = _
    rw [Contents.table_upsert, List.map_append, Table.upsert_append, ← h.table]
    rfl
  others name hname := (Contents.table_upsert_of_ne _ hname _).trans (h.others name hname)
  plan := h.plan
  history := by
    show called ++ w.store.history = _
    rw [h.history, List.append_assoc]
  writes := by rw [List.reverse_append, writesIn_append, h.writes, hwrites, List.flatten_append, List.flatten_singleton]
  calls _ := by
    obtain ⟨hbefore, hall⟩ := h.calls hfault
    refine ⟨?_, fun r hr => ?_⟩
    · rw [List.reverse_append, List.map_append, hbefore, hcalls, List.flatMap_append, List.flatMap_singleton]
    · rcases List.mem_append.1 hr with hr | hr
      · exact hanswered r hr
      · exact hall r hr
  refused _ he := by cases he
  stuck he := by cases he

theorem chunk_step (h : Progress entries baselines before done w rows records) (hfault : w.fault = none)
    (hd : (entries.map Prod.fst).Nodup) (hchunk : ∀ id ∈ chunk, id ∉ done.flatten ∧ ∃ e ∈ entries, e.1.2 = id)
    {w' : Writing α} (hstep : ChunkStep entries w chunk w') :
    (w'.fault ≠ none ∧ ∃ records, Progress entries baselines before done w' rows records) ∨
      ∃ rows records, w'.fault = none ∧ Progress entries baselines before (done ++ [chunk]) w' rows records := by
  have hrow : ∀ id ∈ chunk, freshRow? entries w.baselines ((storedRows α w.store chunk).lookup id) id =
      freshRow? entries baselines (storedRow α before id) id := by
    intro id hid
    rw [lookup_storedRows w.store hid]
    exact h.row_eq (hchunk id hid).1
  cases hstep with
  | put hrows hcalls hanswered hwrites =>
    have hids := rowsOf?_ids hrows
    refine Or.inr ⟨_, _, rfl, h.put hfault hd hids (fun r hr => ?_) hcalls hanswered hwrites⟩
    rw [← hrow r.1 (hids ▸ List.mem_map_of_mem hr)]
    exact fresh_of_rowsOf hrows r hr
  | @refused r called past e hr hrefused hverdict hwrites =>
    rw [h.plan] at hverdict
    exact Or.inl ⟨Option.some_ne_none _, _, h.stop hwrites (fun _ _ => ⟨r, hr, hrefused, past, hverdict⟩)
      fun he => by cases he⟩
  | stuck hrows _ hwrites =>
    refine Or.inl ⟨Option.some_ne_none _, _, h.stop hwrites (fun _ he => by cases he) fun _ => ?_⟩
    obtain ⟨id, hid, hnone⟩ := exists_stuck hrows
    obtain ⟨e, he, rfl⟩ := (hchunk id hid).2
    exact ⟨e, he, hrow _ hid ▸ hnone⟩

end Progress

theorem writeChunk_of_fault {w : Writing α} (h : w.fault ≠ none) (todo : List (List String)) :
    todo.foldl (writeChunk entries) w = w := by
  obtain ⟨f, hf⟩ := Option.ne_none_iff_exists'.1 h
  induction todo with
  | nil => rfl
  | cons chunk rest ih =>
    have hsame : writeChunk entries w chunk = w := by
      rw [writeChunk, hf]
    rw [List.foldl_cons, hsame, ih]

/-- Chunks with different ids are written one after another, until one ends the writing. -/
theorem Progress.foldl {before : Store} {done todo : List (List String)} {w : Writing α} {rows : List (String × α)}
    {records : List CallRecord} (h : Progress entries baselines before done w rows records) (hfault : w.fault = none)
    (hd : (entries.map Prod.fst).Nodup) (hnodup : (done ++ todo).flatten.Nodup)
    (hids : ∀ chunk ∈ todo, ∀ id ∈ chunk, ∃ e ∈ entries, e.1.2 = id) :
    ∃ more rest rows records, todo = more ++ rest ∧
      Progress entries baselines before (done ++ more) (todo.foldl (writeChunk entries) w) rows records ∧
      ((todo.foldl (writeChunk entries) w).fault = none → rest = []) := by
  -- The chunks done so far are general: that the next one shares no id with them is what `chunk_step` needs.
  induction todo generalizing done w rows records with
  | nil => exact ⟨[], [], rows, records, rfl, by rwa [List.append_nil], fun _ => rfl⟩
  | cons chunk rest ih =>
    have hchunk : ∀ id ∈ chunk, id ∉ done.flatten ∧ ∃ e ∈ entries, e.1.2 = id := by
      intro id hid
      refine ⟨fun hdone => ?_, hids chunk (List.mem_cons_self ..) id hid⟩
      rw [List.flatten_append, List.nodup_append] at hnodup
      exact hnodup.2.2 id hdone id (List.mem_flatten.2 ⟨chunk, List.mem_cons_self .., hid⟩) rfl
    rw [List.foldl_cons]
    rcases h.chunk_step hfault hd hchunk (writeChunk_cases hfault chunk) with
      ⟨hstopped, records, hstop⟩ | ⟨rows, records, hwent, hstep⟩
    · rw [writeChunk_of_fault hstopped]
      exact ⟨[], chunk :: rest, _, records, rfl, by rwa [List.append_nil], fun hnone => absurd hnone hstopped⟩
    · rw [List.append_cons] at hnodup
      obtain ⟨more, left, rows, records, hsplit, hmore, hall⟩ :=
        ih hstep hwent hnodup fun c hc => hids c (List.mem_cons_of_mem _ hc)
      refine ⟨chunk :: more, left, rows, records, by rw [hsplit, List.cons_append], ?_, hall⟩
      rwa [List.append_cons]

theorem progress_write (hd : (entries.map Prod.fst).Nodup) (batchSize : Nat) (baselines : Dict OriginKey α)
    (store : Store) :
    ∃ done rest rows records, chunks batchSize (sortedIds entries).length (sortedIds entries) = done ++ rest ∧
      Progress entries baselines store done (write batchSize entries baselines store) rows records ∧
      ((write batchSize entries baselines store).fault = none → rest = []) := by
  have hids : ∀ chunk ∈ chunks batchSize (sortedIds entries).length (sortedIds entries), ∀ id ∈ chunk,
      ∃ e ∈ entries, e.1.2 = id := fun chunk hc id hid => mem_sortedIds.1 (mem_of_mem_chunks hc hid)
  have hnodup := (nodup_sortedIds entries).sublist
    (flatten_chunks_sublist batchSize (sortedIds entries).length (sortedIds entries))
  exact (Progress.start entries baselines store).foldl rfl hd hnodup hids

/-- A writing puts in rows of its ids only, each once. -/
theorem Progress.sublist {before : Store} {done rest : List (List String)} {w : Writing α} {rows : List (String × α)}
    {records : List CallRecord} (h : Progress entries baselines before done w rows records) {size fuel : Nat}
    (hsplit : chunks size fuel (sortedIds entries) = done ++ rest) : (rows.map Prod.fst).Sublist (sortedIds entries) := by
  have hall := flatten_chunks_sublist size fuel (sortedIds entries)
  rw [hsplit, List.flatten_append, ← h.ids] at hall
  exact (List.sublist_append_left _ _).trans hall

/-- In a healthy store nothing but arithmetic can end a writing early. -/
theorem fault_write_of_healthy (hd : (entries.map Prod.fst).Nodup) {store : Store} (hhealthy : store.Healthy)
    (hfresh : ∀ e ∈ entries, freshRow? entries baselines (storedRow α store e.1.2) e.1.2 ≠ none) (batchSize : Nat) :
    (write batchSize entries baselines store).fault = none := by
  obtain ⟨_, _, _, _, -, h, -⟩ := progress_write hd batchSize baselines store
  cases hfault : (write batchSize entries baselines store).fault with
  | none => rfl
  | some fault =>
    cases fault with
    | storage e =>
      obtain ⟨r, -, ⟨what, hrefused⟩, past, hverdict⟩ := h.refused e hfault
      exact absurd (hverdict.symm.trans hrefused) (hhealthy _ _ _)
    | overflow =>
      obtain ⟨e, he, hnone⟩ := h.stuck hfault
      exact absurd hnone (hfresh e he)

/-! ### A flush -/

/-- The snapshots of a ledger that a flush writes. -/
def due (l : Ledger α) (now : Instant) (retention : Duration) : List (Entry α) :=
  l.buffer.toList.filter fun e => !(Rollup.bucket e.2).isExpired now retention

theorem nodup_due (l : Ledger α) (now : Instant) (retention : Duration) : ((l.due now retention).map Prod.fst).Nodup :=
  l.buffer.distinct.sublist (List.filter_sublist.map Prod.fst)

theorem find_due (l : Ledger α) (now : Instant) (retention : Duration) (key : OriginKey) :
    Entries.find key (l.due now retention) =
      (l.buffer.get? key).filter fun b => !(Rollup.bucket b).isExpired now retention :=
  Entries.find_filter l.buffer.distinct key

theorem flush_eq {l : Ledger α} {retention : Duration} (h : l.retention? = some retention) (store : Store)
    (now : Instant) : l.flush store now =
      ⟨(write l.batchSize (l.due now retention) l.baselines store).written,
        (write l.batchSize (l.due now retention) l.baselines store).fault,
        { l with
          buffer := Dict.empty
          baselines := (write l.batchSize (l.due now retention) l.baselines store).keep
            fun base => !(Rollup.bucket base).isExpired now retention },
        (write l.batchSize (l.due now retention) l.baselines store).store⟩ := by
  rw [flush, h]
  rfl

/-- Calls that go through ids in consecutive chunks of a size at most. -/
def InChunks (α : Type) [Rollup α] (size : Nat) (ids : List String) (calls : List StoreCall) : Prop :=
  ∃ chunks : List (List String), chunks.flatten = ids ∧ (∀ c ∈ chunks, c ≠ [] ∧ c.length ≤ size) ∧
    calls = chunks.flatMap (chunkCalls α)

/-- A flush has written all that was due. -/
structure Flushed (l : Ledger α) (before : Store) (now : Instant) (retention : Duration) (rows : List (String × α))
    (f : Flush α) : Prop where
  ids : rows.map Prod.fst = sortedIds (l.due now retention)
  fresh : ∀ r ∈ rows, freshRow? (l.due now retention) l.baselines (storedRow α before r.1) r.1 = some r.2
  written : f.written = rows.map Prod.snd
  ledger : f.ledger.buffer = Dict.empty ∧ f.ledger.window = l.window
  baselines : ∀ key, f.ledger.baselines.get? key =
    (baselinesAfter (l.due now retention) l.baselines (sortedIds (l.due now retention)) key).filter
      fun base => !(Rollup.bucket base).isExpired now retention
  table : ∀ id, (f.store.table (Rollup.tag α)).get? id =
    ((Entries.find id rows).map Rollup.encode).or ((before.table (Rollup.tag α)).get? id)
  others : ∀ name, name ≠ Rollup.tag α → f.store.table name = before.table name
  calls : InChunks α l.batchSize (sortedIds (l.due now retention))
    ((f.store.callsSince before).reverse.map CallRecord.call)

theorem Flushed.rows_eq {l : Ledger α} {before : Store} {now : Instant} {retention : Duration} {rows : List (String × α)}
    {f : Flush α} (h : Flushed l before now retention rows f) : rows.map (fun r => (r.1, some r.2)) =
      (sortedIds (l.due now retention)).map
        fun id => (id, freshRow? (l.due now retention) l.baselines (storedRow α before id) id) := by
  rw [← h.ids, List.map_map]
  refine List.map_congr_left fun r hr => ?_
  rw [Function.comp_apply, h.fresh r hr]

theorem flushed_of_fault {l : Ledger α} {store : Store} {now : Instant} {retention : Duration}
    (hretention : l.retention? = some retention) (hbatch : 0 < l.batchSize) (hfault : (l.flush store now).fault = none) :
    ∃ rows, Flushed l store now retention rows (l.flush store now) := by
  obtain ⟨done, rest, rows, records, hsplit, h, hall⟩ :=
    progress_write (l.nodup_due now retention) l.batchSize l.baselines store
  rw [flush_eq hretention] at hfault ⊢
  rw [hall hfault, List.append_nil] at hsplit
  have hflatten : done.flatten = sortedIds (l.due now retention) := by
    rw [← hsplit]
    exact flatten_chunks_eq hbatch (Nat.le_refl _)
  have hids : rows.map Prod.fst = sortedIds (l.due now retention) := h.ids.trans hflatten
  refine ⟨rows, ⟨hids, h.fresh, h.written, ⟨rfl, rfl⟩, fun key => ?_, fun id => ?_, h.others, done, hflatten, ?_, ?_⟩⟩
  · rw [← hflatten, ← h.kept, Writing.keep_of_ne_overflow (fun hoverflow => by cases hfault.symm.trans hoverflow)]
    exact Dict.get?_filter _ _ _
  · show (Store.table _ _).get? id = _
    rw [h.table]
    exact Table.get?_upsert_map _ _ (hids ▸ nodup_sortedIds _) id
  · rw [← hsplit]
    exact fun c hc => length_of_mem_chunks hbatch hc
  · rw [Store.callsSince_append h.history]
    exact (h.calls hfault).1

end Ledger
end TraceRollup
