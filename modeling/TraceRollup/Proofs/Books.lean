import TraceRollup.Proofs.Account
import TraceRollup.Proofs.Chunks
import TraceRollup.Proofs.Expiry

/-!
# Books

What a ledger owes its table: under each id the row holds the sum of the snapshots that stand,
the last one written of each origin, and the baselines remember those snapshots as long as
more can come of them (`Books`). Writing entries brings the books forward by those that were
written, whatever call is refused (`Books.write`), and so does a flush (`Books.flush`).
-/

namespace TraceRollup

/-- Additive records, which are read as they were written. -/
class Cumulative (α : Type) [Rollup α] : Prop extends LawfulKey α where
  mode_additive : Rollup.mode α = .additive
  decode?_encode : ∀ a : α, Rollup.decode? (Rollup.encode a) = some a

/-! ### Sums over origins -/

namespace Account

section
variable {α V : Type} [AddCommMonoid V]

theorem sum_filterMap {β : Type} (f : String → Option β) (g : β → V) (xs : List String) :
    ((xs.filterMap f).map g).sum = (xs.map fun x => (f x).elim 0 g).sum := by
  induction xs with
  | nil => rfl
  | cons x rest ih =>
    rw [List.filterMap_cons, List.map_cons, List.sum_cons, ← ih]
    cases f x with
    | none => exact (zero_add _).symm
    | some b => rw [List.map_cons, List.sum_cons]; rfl

/-- The entries under an id, taken origin by origin. -/
theorem sum_entriesOf {entries : List (Ledger.Entry α)} (hd : (entries.map Prod.fst).Nodup) {id : String}
    {origins : List String} (ho : origins.Nodup) (hall : ∀ e ∈ entries, e.1.2 = id → e.1.1 ∈ origins)
    (g : Ledger.Entry α → V) :
    ((Ledger.entriesOf entries id).map g).sum =
      (origins.map fun o => (Entries.find (o, id) entries).elim 0 fun v => g ((o, id), v)).sum := by
  have hentries : entries.Nodup := List.Pairwise.of_map Prod.fst (fun _ _ hne heq => hne (congrArg Prod.fst heq)) hd
  have hp : (Ledger.entriesOf entries id).Perm
      (origins.filterMap fun o => (Entries.find (o, id) entries).map fun v => ((o, id), v)) := by
    apply (List.perm_ext_iff_of_nodup (hentries.filter _) _).2
    · intro e
      obtain ⟨⟨o, j⟩, v⟩ := e
      simp only [List.mem_filter, List.mem_filterMap, Option.map_eq_some_iff,
        decide_eq_true_eq, Prod.mk.injEq]
      constructor
      · rintro ⟨hm, rfl⟩
        exact ⟨o, hall _ hm rfl, v, (Entries.find_eq_some_iff hd).2 hm, ⟨rfl, rfl⟩, rfl⟩
      · rintro ⟨o', _, v', hf, ⟨rfl, rfl⟩, rfl⟩
        exact ⟨(Entries.find_eq_some_iff hd).1 hf, rfl⟩
    · refine List.Nodup.filterMap ?_ ho
      intro o o' e he he'
      obtain ⟨_, _, rfl⟩ := Option.map_eq_some_iff.1 he
      obtain ⟨_, _, heq⟩ := Option.map_eq_some_iff.1 he'
      exact (congrArg (fun e => e.1.1) heq).symm
  rw [(hp.map g).sum_eq, sum_filterMap]
  congr 1
  apply List.map_congr_left
  intro o _
  cases Entries.find (o, id) entries <;> rfl

end

variable {α V : Type} [Rollup α] [AddCommMonoid V]

def worth (A : Account α V) (a : Option α) : V := a.elim 0 A.read

/-- The sum of what stands under an id. -/
def total (A : Account α V) (W : Standing α) (id : String) (origins : List String) : V :=
  ((W.under id origins).map A.read).sum

theorem total_eq (A : Account α V) (W : Standing α) (id : String) (origins : List String) :
    A.total W id origins = (origins.map fun o => A.worth (W (o, id))).sum :=
  sum_filterMap _ _ _

end Account

/-! ### Books -/

/-- A row holds the sum of what stands under its id. -/
structure Row {α V : Type} [Rollup α] [AddCommMonoid V] (A : Account α V) (W : Standing α) (id : String)
    (r : α) : Prop where
  of : A.Of id r
  stands : ∃ o, W (o, id) ≠ none
  balance : ∀ origins, W.Covers id origins → A.read r = A.total W id origins

/-- Where the same snapshots stand a row holds the same sum. -/
theorem Row.congr {α V : Type} [Rollup α] [AddCommMonoid V] {A : Account α V} {W W' : Standing α} {id : String} {r : α}
    (h : Row A W id r) (hW : ∀ o, W' (o, id) = W (o, id)) : Row A W' id r := by
  refine ⟨h.of, ?_, fun origins hcov => ?_⟩
  · obtain ⟨o, ho⟩ := h.stands
    exact ⟨o, by rw [hW]; exact ho⟩
  · rw [h.balance origins ⟨hcov.distinct, fun o ho => hcov.all o (by rw [hW]; exact ho)⟩]
    simp only [Account.total, Standing.under, hW]

/-- The record has not left a window. -/
def Live {α : Type} [Rollup α] (now : Instant) (window : Duration) (a : α) : Prop :=
  (Rollup.bucket a).isExpired now window = false

theorem Live.of_id {α : Type} [Rollup α] [LawfulKey α] {now : Instant} {window : Duration} {a b : α}
    (h : Rollup.id a = Rollup.id b) (ha : Live now window a) : Live now window b := by
  unfold Live at *
  rwa [← LawfulKey.bucket_of_id h]

theorem Live.mono {α : Type} [Rollup α] {s t : Instant} {w : Duration} {a : α} (hs : s.InEra) (ht : t.InEra)
    (hst : s.nanos ≤ t.nanos) (h : Live t w a) : Live s w a := by
  unfold Live at *
  cases he : (Rollup.bucket a).isExpired s w with
  | false => rfl
  | true =>
    rw [TimeBucket.isExpired_mono hs ht hst he] at h
    cases h

/-- Rows and baselines agree with what stands. Baselines may be missing only of snapshots that
have left the window. -/
structure Books {α V : Type} [Rollup α] [AddCommMonoid V] (A : Account α V) (now : Instant) (window : Duration)
    (W : Standing α) (baselines : Dict OriginKey α) (table : Table) : Prop where
  standing : ∀ k w, W k = some w → A.Of k.2 w
  absent : ∀ id, table.get? id = none → ∀ o, W (o, id) = none
  row : ∀ id j, table.get? id = some j → ∃ r, j = Rollup.encode r ∧ Row A W id r
  baseline : ∀ k b, baselines.get? k = some b → W k = some b
  kept : ∀ k w, W k = some w → Live now window w → baselines.get? k = some w

/-- Snapshots that may be written: each follows the one that stands for its origin and id. -/
structure Due {α V : Type} [Rollup α] [AddCommMonoid V] (A : Account α V) (now : Instant) (window : Duration)
    (W : Standing α) (entries : List (Ledger.Entry α)) : Prop where
  distinct : (entries.map Prod.fst).Nodup
  of : ∀ e ∈ entries, A.Of e.1.2 e.2
  live : ∀ e ∈ entries, Live now window e.2
  follows : ∀ e ∈ entries, ∀ w, W e.1 = some w → A.Follows w e.2
  again : ∀ e ∈ entries, A.Follows e.2 e.2

namespace Books
variable {α V : Type} [Rollup α] [AddCommMonoid V] {A : Account α V} {now : Instant} {window : Duration}
  {W : Standing α} {baselines : Dict OriginKey α} {table : Table} {entries : List (Ledger.Entry α)}

theorem empty : Books A now window (fun _ => none) Dict.empty Dict.empty where
  standing _ _ h := by cases h
  absent _ _ _ := rfl
  row _ _ h := by cases h
  baseline _ _ h := by cases h
  kept _ _ h := by cases h

theorem mono {later : Instant} (h : Books A now window W baselines table) (hn : now.InEra) (hl : later.InEra)
    (hle : now.nanos ≤ later.nanos) : Books A later window W baselines table :=
  { h with kept := fun k w hW hlive => h.kept k w hW (hlive.mono hn hl hle) }

variable [Cumulative α]

/-! ### Contributions -/

/-- What a snapshot contributes makes up for what it holds beyond the one that stands. -/
theorem contribution_spec (h : Books A now window W baselines table) (hdue : Due A now window W entries)
    {e : Ledger.Entry α} (he : e ∈ entries) :
    ∃ c, Ledger.contribution? baselines e = some c ∧ A.Of e.1.2 c ∧
      A.worth (W e.1) + A.read c = A.read e.2 := by
  unfold Ledger.contribution?
  rw [Cumulative.mode_additive]
  have hid : Rollup.id e.2 = e.1.2 := (hdue.of e he).1
  cases hbase : baselines.get? e.1 with
  | some base =>
    have hW := h.baseline _ _ hbase
    obtain ⟨d, hd, hof, hsum⟩ := hdue.follows e he base hW
    exact ⟨d, hd, hid ▸ hof, by rw [hW]; exact hsum⟩
  | none =>
    have hW : W e.1 = none := by
      cases hW : W e.1 with
      | none => rfl
      | some w =>
        have hlive : Live now window w := (hdue.live e he).of_id (hid.trans (h.standing _ _ hW).1.symm)
        rw [h.kept _ _ hW hlive] at hbase
        cases hbase
    exact ⟨e.2, rfl, hdue.of e he, by rw [hW]; exact zero_add _⟩

theorem mapM_eq_some {β γ : Type} {f : β → Option γ} {g : β → γ} {xs : List β} (h : ∀ x ∈ xs, f x = some (g x)) :
    xs.mapM f = some (xs.map g) := by
  induction xs with
  | nil => rfl
  | cons x rest ih =>
    rw [List.mapM_cons, h x (List.mem_cons_self ..), ih fun y hy => h y (List.mem_cons_of_mem _ hy)]
    rfl

theorem exists_of_mapM_eq_some {α β : Type} {f : α → Option β} {xs : List α} {ys : List β} (h : xs.mapM f = some ys)
    {y : β} (hy : y ∈ ys) : ∃ x ∈ xs, f x = some y := by
  induction xs generalizing ys with
  | nil =>
    cases h
    cases hy
  | cons x rest ih =>
    simp only [List.mapM_cons, Option.bind_eq_bind, Option.bind_eq_some_iff, Option.pure_def, Option.some.injEq] at h
    obtain ⟨z, hz, zs, hzs, rfl⟩ := h
    rcases List.mem_cons.1 hy with rfl | hy
    · exact ⟨x, List.mem_cons_self .., hz⟩
    · obtain ⟨x', hx', hxy⟩ := ih hzs hy
      exact ⟨x', List.mem_cons_of_mem _ hx', hxy⟩

/-- The contributions to an id together make up for what its snapshots hold beyond those that
stand. -/
theorem combine_spec (h : Books A now window W baselines table) (hdue : Due A now window W entries)
    {ids : List String} {id : String} (hid : id ∈ ids) (hm : ∃ e ∈ entries, e.1.2 = id) :
    ∃ v, Ledger.combine? baselines (Ledger.entriesOf entries id) = some (some v) ∧ A.Of id v ∧
      ∀ origins, (W.advance entries ids).Covers id origins →
        A.total W id origins + A.read v = A.total (W.advance entries ids) id origins := by
  let part (e : Ledger.Entry α) : α := (Ledger.contribution? baselines e).getD e.2
  have hpart : ∀ e ∈ entries, Ledger.contribution? baselines e = some (part e) ∧ A.Of e.1.2 (part e) ∧
      A.worth (W e.1) + A.read (part e) = A.read e.2 := by
    intro e he
    obtain ⟨c, hc, hof, hsum⟩ := h.contribution_spec hdue he
    have hp : part e = c := by simp only [part, hc, Option.getD_some]
    rw [hp]
    exact ⟨hc, hof, hsum⟩
  have hmem : ∀ e ∈ Ledger.entriesOf entries id, e ∈ entries ∧ e.1.2 = id := by
    intro e he
    simpa [Ledger.entriesOf, List.mem_filter] using he
  have hne : (Ledger.entriesOf entries id).map part ≠ [] := by
    obtain ⟨e, he, heid⟩ := hm
    exact List.ne_nil_of_mem (List.mem_map_of_mem
      (List.mem_filter.2 ⟨he, by simp only [heid, decide_true]⟩ : e ∈ Ledger.entriesOf entries id))
  have hall : ∀ x ∈ (Ledger.entriesOf entries id).map part, A.Of id x := by
    intro x hx
    obtain ⟨e, he, rfl⟩ := List.mem_map.1 hx
    obtain ⟨hin, heid⟩ := hmem e he
    exact heid ▸ (hpart e hin).2.1
  obtain ⟨v, hv, hof, hsum⟩ := Account.mergeAll_spec hne hall
  refine ⟨v, ?_, hof, ?_⟩
  · unfold Ledger.combine?
    rw [mapM_eq_some fun e he => (hpart e (hmem e he).1).1]
    exact congrArg some hv
  · intro origins hcov
    have horigin : ∀ e ∈ entries, e.1.2 = id → e.1.1 ∈ origins := by
      intro e he heid
      apply hcov.all
      subst heid
      exact Option.ne_none_iff_exists'.2 ⟨e.2, W.advance_of_mem hdue.distinct he hid⟩
    rw [hsum, List.map_map, Account.sum_entriesOf hdue.distinct hcov.distinct horigin, Account.total_eq,
      Account.total_eq, ← List.sum_map_add]
    congr 1
    apply List.map_congr_left
    intro o _
    rw [Standing.advance, if_pos hid]
    cases hf : Entries.find (o, id) entries with
    | none => exact add_zero _
    | some v => exact (hpart _ ((Entries.find_eq_some_iff hdue.distinct).1 hf)).2.2

/-! ### Rows -/

theorem mergedRow_spec (h : Books A now window W baselines table) (hdue : Due A now window W entries)
    {ids : List String} {id : String} (hid : id ∈ ids) (hm : ∃ e ∈ entries, e.1.2 = id) :
    ∃ v, Ledger.combine? baselines (Ledger.entriesOf entries id) = some (some v) ∧
      Row A (W.advance entries ids) id (Ledger.mergedRow (table.get? id) v) := by
  obtain ⟨v, hv, hof, hsum⟩ := h.combine_spec hdue hid hm
  have hstands : ∃ o, W.advance entries ids (o, id) ≠ none := by
    obtain ⟨e, he, rfl⟩ := hm
    exact ⟨e.1.1, Option.ne_none_iff_exists'.2 ⟨e.2, W.advance_of_mem hdue.distinct he hid⟩⟩
  refine ⟨v, hv, ?_⟩
  unfold Ledger.mergedRow
  cases hrow : table.get? id with
  | none =>
    refine ⟨hof, hstands, fun origins hcov => ?_⟩
    have hzero : A.total W id origins = 0 := by
      rw [Account.total, Standing.under, List.filterMap_eq_nil_iff.2 fun o _ => h.absent id hrow o]
      rfl
    rw [← hsum origins hcov, hzero]
    exact (zero_add _).symm
  | some j =>
    obtain ⟨r, rfl, hr⟩ := h.row id j hrow
    simp only [Option.bind_some, Cumulative.decode?_encode]
    obtain ⟨hmof, hmread⟩ := hr.of.merge hof
    refine ⟨hmof, hstands, fun origins hcov => ?_⟩
    have hbefore : W.Covers id origins := ⟨hcov.distinct, fun o ho => hcov.all o (Standing.advance_ne_none ho)⟩
    rw [hmread, hr.balance origins hbefore, hsum origins hcov]

/-- The new row of an id holds the sum of what stands once its entries are written. -/
theorem fresh_spec {store : Store} (h : Books A now window W baselines (store.table (Rollup.tag α)))
    (hdue : Due A now window W entries) {ids : List String} {id : String} (hid : id ∈ ids)
    (hm : ∃ e ∈ entries, e.1.2 = id) :
    ∃ r, Ledger.freshRow? entries baselines (Ledger.storedRow α store id) id = some r ∧
      Row A (W.advance entries ids) id r := by
  obtain ⟨v, hv, hrow⟩ := h.mergedRow_spec hdue hid hm
  have hstored : Ledger.storedRow α store id = (store.table (Rollup.tag α)).get? id := by
    rw [Ledger.storedRow, Cumulative.mode_additive]
  refine ⟨_, ?_, hrow⟩
  rw [Ledger.freshRow?, hv, hstored]
  rfl

/-! ### Writing -/

omit [Cumulative α] in
/-- The row of an id after rows were put in. -/
theorem row_put (h : Books A now window W baselines table) {ids : List String} {rows : List (String × α)}
    (hfst : rows.map Prod.fst = ids) (hrows : ∀ r ∈ rows, Row A (W.advance entries ids) r.1 r.2) (id : String) :
    ((table.upsert (rows.map fun r => (r.1, Rollup.encode r.2))).get? id = none ∧
        ∀ o, W.advance entries ids (o, id) = none) ∨
      ∃ r, (table.upsert (rows.map fun r => (r.1, Rollup.encode r.2))).get? id = some (Rollup.encode r) ∧
        Row A (W.advance entries ids) id r := by
  have hkeys : (rows.map fun r => (r.1, Rollup.encode r.2)).map Prod.fst = ids := by
    rw [List.map_map, ← hfst]
    rfl
  rcases Table.get?_upsert table (rows.map fun r => (r.1, Rollup.encode r.2)) id with
    ⟨row, hm, hsome⟩ | ⟨hno, hsame⟩
  · obtain ⟨r, hr, heq⟩ := List.mem_map.1 hm
    cases heq
    exact Or.inr ⟨r.2, hsome, hrows r hr⟩
  · -- Of an id that was not written nothing has changed.
    rw [hkeys] at hno
    have hW : ∀ o, W.advance entries ids (o, id) = W (o, id) := fun o => by
      rw [Standing.advance, if_neg hno]
    rw [hsame]
    cases hget : table.get? id with
    | none => exact Or.inl ⟨rfl, fun o => (hW o).trans (h.absent id hget o)⟩
    | some j =>
      obtain ⟨r, rfl, hr⟩ := h.row id j hget
      exact Or.inr ⟨r, rfl, hr.congr hW⟩

/-- Once rows were put in, books are kept of what stands now. -/
theorem put (h : Books A now window W baselines table) (hdue : Due A now window W entries) {ids : List String}
    {rows : List (String × α)} (hfst : rows.map Prod.fst = ids)
    (hrows : ∀ r ∈ rows, Row A (W.advance entries ids) r.1 r.2) {later : Dict OriginKey α}
    (hlater : later.get? = Ledger.baselinesAfter entries baselines ids) :
    Books A now window (W.advance entries ids) later (table.upsert (rows.map fun r => (r.1, Rollup.encode r.2))) := by
  have hrow := h.row_put hfst hrows
  have hadvance : later.get? = Standing.advance baselines.get? entries ids := by
    rw [hlater, Ledger.baselinesAfter, Cumulative.mode_additive]
  refine ⟨fun k w hk => ?_, fun id hget o => ?_, fun id j hget => ?_, fun k b hb => ?_, fun k w hk hlive => ?_⟩
  · rcases Standing.advance_eq_some hdue.distinct hk with ⟨hm, _⟩ | ⟨hW, _⟩
    · exact hdue.of _ hm
    · exact h.standing k w hW
  · rcases hrow id with ⟨_, hnone⟩ | ⟨r, hsome, _⟩
    · exact hnone o
    · rw [hsome] at hget
      cases hget
  · rcases hrow id with ⟨hnone, _⟩ | ⟨r, hsome, hr⟩
    · rw [hnone] at hget
      cases hget
    · rw [hsome] at hget
      cases hget
      exact ⟨r, rfl, hr⟩
  · rw [hadvance] at hb
    rcases Standing.advance_eq_some hdue.distinct hb with ⟨hm, hid⟩ | ⟨hbase, hno⟩
    · exact W.advance_of_mem hdue.distinct hm hid
    · exact Standing.advance_of_find (h.baseline k b hbase) hno
  · rw [hadvance]
    rcases Standing.advance_eq_some hdue.distinct hk with ⟨hm, hid⟩ | ⟨hW, hno⟩
    · exact Standing.advance_of_mem _ hdue.distinct hm hid
    · exact Standing.advance_of_find (h.kept k w hW hlive) hno

end Books

/-- What writing entries under some ids has come to after the calls `added`. -/
structure Written {α V : Type} [Rollup α] [AddCommMonoid V] (A : Account α V) (now : Instant) (window : Duration)
    (W : Standing α) (entries : List (Ledger.Entry α)) (store : Store) (ids : List String)
    (w : Ledger.Writing α) (added : List CallRecord) : Prop where
  history : w.store.history = added ++ store.history
  books : Books A now window (W.advance entries (writesIn (Rollup.tag α) added)) w.baselines
    (w.store.table (Rollup.tag α))
  only : ∀ id ∈ writesIn (Rollup.tag α) added, id ∈ ids
  all : w.fault = none → ∀ id ∈ ids, id ∈ writesIn (Rollup.tag α) added
  fault : ∀ f, w.fault = some f → (∃ e, f = .storage e) ∧ ∃ r ∈ added, r.Refused

/-- Writing entries that are due leaves books of whatever was written. Unless a call was refused
that is all of them. -/
theorem Books.write {α V : Type} [Rollup α] [AddCommMonoid V] [Cumulative α] {A : Account α V} {now : Instant}
    {window : Duration} {W : Standing α} {entries : List (Ledger.Entry α)} {baselines : Dict OriginKey α}
    {store : Store} {batchSize : Nat} (h : Books A now window W baselines (store.table (Rollup.tag α)))
    (hdue : Due A now window W entries) (hbatch : 0 < batchSize) :
    ∃ added, Written A now window W entries store (Ledger.sortedIds entries)
      (Ledger.write batchSize entries baselines store) added := by
  obtain ⟨done, rest, rows, added, hsplit, hw, hall⟩ := Ledger.progress_write hdue.distinct batchSize baselines store
  have honly : ∀ id ∈ done.flatten, id ∈ Ledger.sortedIds entries := fun id hid =>
    (hw.sublist hsplit).subset (hw.ids ▸ hid)
  have hwrites : ∀ id, id ∈ writesIn (Rollup.tag α) added ↔ id ∈ done.flatten := by
    intro id
    rw [← hw.writes, mem_writesIn_reverse]
  have hrows : ∀ r ∈ rows, Row A (W.advance entries done.flatten) r.1 r.2 := by
    intro r hr
    have hid : r.1 ∈ done.flatten := hw.ids ▸ List.mem_map_of_mem hr
    obtain ⟨row, hrow, hbalanced⟩ := h.fresh_spec hdue hid (Ledger.mem_sortedIds.1 (honly r.1 hid))
    rw [hw.fresh r hr] at hrow
    cases hrow
    exact hbalanced
  refine ⟨added, hw.history, ?_, fun id hid => honly id ((hwrites id).1 hid), fun hnone id hid => ?_, fun f hf => ?_⟩
  · rw [hw.table, Standing.advance_congr W entries hwrites]
    exact h.put hdue hw.ids hrows hw.kept
  · rw [hall hnone, List.append_nil] at hsplit
    rw [hwrites, ← hsplit, Ledger.flatten_chunks_eq hbatch (Nat.le_refl _)]
    exact hid
  · cases f with
    | storage e =>
      obtain ⟨r, hr, hrefused, -⟩ := hw.refused e hf
      exact ⟨⟨e, rfl⟩, r, hr, hrefused⟩
    | overflow =>
      obtain ⟨e, he, hnone⟩ := hw.stuck hf
      obtain ⟨r, hr, -⟩ := h.fresh_spec hdue (List.mem_singleton_self e.1.2) ⟨e, he, rfl⟩
      rw [hnone] at hr
      cases hr

/-! ### Flushing -/

/-- The buffered snapshots follow those that stand. -/
structure Ready {α V : Type} [Rollup α] [AddCommMonoid V] (A : Account α V) (W : Standing α)
    (buffer : Dict OriginKey α) : Prop where
  of : ∀ k b, buffer.get? k = some b → A.Of k.2 b
  follows : ∀ k b w, buffer.get? k = some b → W k = some w → A.Follows w b
  again : ∀ k b, buffer.get? k = some b → A.Follows b b

theorem mem_live {α : Type} [Rollup α] {buffer : Dict OriginKey α} {now : Instant} {retention : Duration}
    {e : Ledger.Entry α} : (e ∈ buffer.toList.filter fun e => !(Rollup.bucket e.2).isExpired now retention) ↔
      buffer.get? e.1 = some e.2 ∧ Live now retention e.2 := by
  rw [List.mem_filter, Bool.not_eq_true', Dict.get?, Entries.find_eq_some_iff buffer.distinct]
  rfl

namespace Ready
variable {α V : Type} [Rollup α] [AddCommMonoid V] {A : Account α V} {W : Standing α} {buffer : Dict OriginKey α}

theorem due (h : Ready A W buffer) (now : Instant) (retention : Duration) :
    Due A now retention W (buffer.toList.filter fun e => !(Rollup.bucket e.2).isExpired now retention) where
  distinct := buffer.distinct.sublist (List.filter_sublist.map Prod.fst)
  of e he := h.of e.1 e.2 (mem_live.1 he).1
  live _ he := (mem_live.1 he).2
  follows e he w hw := h.follows e.1 e.2 w (mem_live.1 he).1 hw
  again e he := h.again e.1 e.2 (mem_live.1 he).1

/-- Of an id of a live snapshot every snapshot is live, since they share their bucket. -/
theorem advance_live [LawfulKey α] (h : Ready A W buffer) {now : Instant} {retention : Duration} {ids : List String}
    (hids : ∀ id ∈ ids, ∃ e ∈ buffer.toList.filter fun e => !(Rollup.bucket e.2).isExpired now retention, e.1.2 = id) :
    W.advance (buffer.toList.filter fun e => !(Rollup.bucket e.2).isExpired now retention) ids =
      W.advance buffer.toList ids := by
  funext k
  unfold Standing.advance
  split
  · rename_i hid
    obtain ⟨e, he, heid⟩ := hids _ hid
    obtain ⟨hget, hlive⟩ := mem_live.1 he
    have hfind := Entries.find_filter (p := fun e => !(Rollup.bucket e.2).isExpired now retention) buffer.distinct k
    have hlist : buffer.toList = buffer.entries := rfl
    rw [hlist, hfind]
    cases hk : Entries.find k buffer.entries with
    | none => rfl
    | some b =>
      have hsame : Rollup.id e.2 = Rollup.id b := ((h.of _ _ hget).1.trans heid).trans (h.of k b hk).1.symm
      have hb : (Rollup.bucket b).isExpired now retention = false := hlive.of_id hsame
      simp only [Option.filter, hb, Bool.not_false, if_true]
  · rfl

end Ready

/-- What a flush has come to after the calls `added`. -/
structure FlushedBooks {α V : Type} [Rollup α] [AddCommMonoid V] (A : Account α V) (now : Instant)
    (retention : Duration) (W : Standing α) (l : Ledger α) (store : Store) (f : Ledger.Flush α)
    (added : List CallRecord) : Prop where
  history : f.store.history = added ++ store.history
  books : Books A now retention (W.advance l.buffer.toList (writesIn (Rollup.tag α) added)) f.ledger.baselines
    (f.store.table (Rollup.tag α))
  all : f.fault = none → ∀ k b, l.buffer.get? k = some b → Live now retention b →
    k.2 ∈ writesIn (Rollup.tag α) added
  fault : ∀ e, f.fault = some e → (∃ e', e = .storage e') ∧ ∃ r ∈ added, r.Refused

theorem Books.flush {α V : Type} [Rollup α] [AddCommMonoid V] [Cumulative α] {A : Account α V} {now : Instant}
    {retention : Duration} {W : Standing α} {l : Ledger α} {store : Store} (hretention : l.retention? = some retention)
    (h : Books A now retention W l.baselines (store.table (Rollup.tag α))) (hready : Ready A W l.buffer)
    (hbatch : 0 < l.batchSize) : ∃ added, FlushedBooks A now retention W l store (l.flush store now) added := by
  obtain ⟨added, hw⟩ := h.write (hready.due now retention) hbatch
  have hsame := hready.advance_live fun id hid => Ledger.mem_sortedIds.1 (hw.only id hid)
  rw [Ledger.flush_eq hretention]
  refine ⟨added, hw.history, ?_, fun hf k b hb hlive => ?_, hw.fault⟩
  · rw [← hsame]
    refine { hw.books with baseline := fun k b hb => ?_, kept := fun k w hW hlive => ?_ }
    · exact hw.books.baseline k b (Ledger.Writing.get?_of_keep hb)
    · exact Ledger.Writing.get?_keep (hw.books.kept k w hW hlive) ((Bool.not_eq_true' _).mpr hlive)
  · exact hw.all hf k.2 (Ledger.mem_sortedIds.2 ⟨(k, b), mem_live.2 ⟨hb, hlive⟩, rfl⟩)

end TraceRollup
