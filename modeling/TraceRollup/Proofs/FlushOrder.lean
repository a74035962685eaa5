import TraceRollup.Proofs.NothingLost
import TraceRollup.Proofs.Unsigned

/-!
# Flushes in any order

Nobody can tell in which order a ledger lists what it has buffered, nor how large its chunks are
(`SharedTable.flush_any_order`). The new row of an id is folded from contributions in the order of
the buffer; what it is read as is their sum, and a row is known by its key and that reading once it
counts a call (`Account.Telling`). A growth may count none, but then its baseline was written, so
there is a stored row to fold it into.
-/

namespace TraceRollup

/-! ### Accounts that tell records apart -/

/-- Records that weigh something are known by their key and what they are read as. -/
structure Account.Telling {α V : Type} [Rollup α] [AddCommMonoid V] (A : Account α V) (Weighs : α → Prop) : Prop where
  since : ∀ {id : String} {now base : α}, A.Of id now → A.Of id base → ∃ d, Rollup.since? now base = some d ∧ A.Of id d
  merge : ∀ {id : String} {a b : α}, A.Of id a → A.Of id b → Weighs a → Weighs (Rollup.merge a b)
  eq_of_read : ∀ {id : String} {a b : α}, A.Of id a → A.Of id b → Weighs a → A.read a = A.read b → a = b
  decode_encode : ∀ a : α, Rollup.decode? (Rollup.encode a) = some a

section
variable {α V : Type} [Rollup α] [LawfulKey α] [AddCommMonoid V]

theorem Account.Telling.mergeAll {A : Account α V} {Weighs : α → Prop} (h : A.Telling Weighs) {id : String} {xs : List α}
    (hxs : ∀ x ∈ xs, A.Of id x ∧ Weighs x) {m : α} (hm : Rollup.mergeAll xs = some m) : Weighs m := by
  cases xs with
  | nil => cases hm
  | cons a rest =>
    cases hm
    obtain ⟨ha, hweighs⟩ := hxs a (List.mem_cons_self ..)
    have hrest : ∀ x ∈ rest, A.Of id x := fun x hx => (hxs x (List.mem_cons_of_mem _ hx)).1
    clear hxs
    induction rest generalizing a with
    | nil => exact hweighs
    | cons x rest ih =>
      have hx := hrest x (List.mem_cons_self ..)
      exact ih (Rollup.merge a x) (ha.merge hx).1 (h.merge ha hx hweighs) fun y hy => hrest y (List.mem_cons_of_mem _ hy)

/-! ### Ledgers and tables of such records -/

variable (A : String → Account α V) (Weighs : α → Prop)

def Fits (id : String) (a : α) : Prop := (A id).Of id a ∧ Weighs a

/-- All records of a ledger and its table fit, and under every baseline there is a row. -/
structure Ledger.Fitting (l : Ledger α) (t : Table) : Prop where
  buffer : ∀ key b, l.buffer.get? key = some b → Fits A Weighs key.2 b
  baselines : ∀ key b, l.baselines.get? key = some b → Fits A Weighs key.2 b ∧ t.get? key.2 ≠ none
  rows : ∀ id row, t.get? id = some row → ∃ a, row = Rollup.encode a ∧ Fits A Weighs id a

namespace Ledger
variable {A Weighs} {l m : Ledger α} {store : Store}

omit [LawfulKey α] in
theorem contribution_spec (h : ∀ id, (A id).Telling Weighs) (hl : l.Fitting A Weighs (store.table (Rollup.tag α)))
    {e : Entry α} (he : Fits A Weighs e.1.2 e.2) :
    ∃ c, contribution? l.baselines e = some c ∧ (A e.1.2).Of e.1.2 c ∧ (storedRow α store e.1.2 = none → Weighs c) := by
  unfold contribution? storedRow
  cases Rollup.mode α with
  | replace => exact ⟨e.2, rfl, he.1, fun _ => he.2⟩
  | additive =>
    cases hbase : l.baselines.get? e.1 with
    | none => exact ⟨e.2, rfl, he.1, fun _ => he.2⟩
    | some base =>
      obtain ⟨hfits, hrow⟩ := hl.baselines e.1 base hbase
      obtain ⟨d, hd, hof⟩ := (h e.1.2).since he.1 hfits.1
      exact ⟨d, hd, hof, fun hnone => absurd hnone hrow⟩

/-- What the contributions to a row are read as, with the row that is stored already. -/
def readings (A : Account α V) (baselines : Dict OriginKey α) (entries : List (Entry α)) (stored : Option Json) : V :=
  (stored.bind Rollup.decode?).elim 0 A.read +
    (entries.map fun e => A.read ((contribution? baselines e).getD e.2)).sum

theorem row_spec (h : ∀ id, (A id).Telling Weighs) (hl : l.Fitting A Weighs (store.table (Rollup.tag α)))
    {entries : List (Entry α)} (he : ∀ e ∈ entries, Fits A Weighs e.1.2 e.2) {id : String}
    (hm : ∃ e ∈ entries, e.1.2 = id) :
    ∃ r, freshRow? entries l.baselines (storedRow α store id) id = some r ∧ Fits A Weighs id r ∧
      (A id).read r = readings (A id) l.baselines (entriesOf entries id) (storedRow α store id) := by
  -- A growth may weigh nothing, but then a baseline was written, and with it a row to fold the growth into.
  let part (e : Entry α) : α := (contribution? l.baselines e).getD e.2
  have hpart : ∀ e ∈ entriesOf entries id, contribution? l.baselines e = some (part e) ∧ (A id).Of id (part e) ∧
      (storedRow α store id = none → Weighs (part e)) := by
    intro e hmem
    obtain ⟨hin, hid⟩ := List.mem_filter.1 hmem
    obtain ⟨c, hc, hof, hweighs⟩ := contribution_spec h hl (he e hin)
    have heq : part e = c := by simp only [part, hc, Option.getD_some]
    rw [of_decide_eq_true hid] at hof hweighs
    exact ⟨heq ▸ hc, heq ▸ hof, heq ▸ hweighs⟩
  have hparts : ∀ x ∈ (entriesOf entries id).map part, (A id).Of id x ∧ (storedRow α store id = none → Weighs x) := by
    intro x hx
    obtain ⟨e, hmem, rfl⟩ := List.mem_map.1 hx
    exact (hpart e hmem).2
  have hne : (entriesOf entries id).map part ≠ [] := by
    obtain ⟨e, hin, hid⟩ := hm
    have hmem : e ∈ entriesOf entries id := List.mem_filter.2 ⟨hin, decide_eq_true hid⟩
    exact List.ne_nil_of_mem (List.mem_map_of_mem hmem)
  obtain ⟨v, hv, hof, hsum⟩ := Account.mergeAll_spec hne fun x hx => (hparts x hx).1
  have hweighs : storedRow α store id = none → Weighs v := fun hnone =>
    (h id).mergeAll (fun x hx => ⟨(hparts x hx).1, (hparts x hx).2 hnone⟩) hv
  have hcombine : combine? l.baselines (entriesOf entries id) = some (some v) := by
    rw [combine?, Books.mapM_eq_some fun e hmem => (hpart e hmem).1]
    exact congrArg some hv
  rw [List.map_map] at hsum
  refine ⟨mergedRow (storedRow α store id) v, ?_, ?_⟩
  · rw [freshRow?, hcombine]
    rfl
  · unfold mergedRow readings
    cases hstored : storedRow α store id with
    | none => exact ⟨⟨hof, hweighs hstored⟩, hsum.trans (zero_add _).symm⟩
    | some row =>
      obtain ⟨a, rfl, ha, hheavy⟩ := hl.rows id row (get?_of_storedRow hstored)
      obtain ⟨hmerged, hread⟩ := ha.merge hof
      simp only [Option.bind_some, (h id).decode_encode, Option.elim_some]
      exact ⟨⟨hmerged, (h id).merge ha hof hheavy⟩, by rw [hread, hsum]; rfl⟩

/-- Two ledgers that hold the same, in whatever order. -/
structure Alike (l m : Ledger α) : Prop where
  window : l.window = m.window
  buffer : ∀ key, l.buffer.get? key = m.buffer.get? key
  baselines : ∀ key, l.baselines.get? key = m.baselines.get? key

omit [Rollup α] [LawfulKey α] in
theorem Alike.symm (h : l.Alike m) : m.Alike l :=
  ⟨h.window.symm, fun key => (h.buffer key).symm, fun key => (h.baselines key).symm⟩

omit [Rollup α] [LawfulKey α] in
theorem Alike.trans {n : Ledger α} (h : l.Alike m) (h' : m.Alike n) : l.Alike n :=
  ⟨h.window.trans h'.window, fun key => (h.buffer key).trans (h'.buffer key),
    fun key => (h.baselines key).trans (h'.baselines key)⟩

omit [LawfulKey α] in
theorem Fitting.alike {t : Table} (hl : l.Fitting A Weighs t) (h : m.Alike l) : m.Fitting A Weighs t where
  buffer key b hb := hl.buffer key b (h.buffer key ▸ hb)
  baselines key b hb := hl.baselines key b (h.baselines key ▸ hb)
  rows := hl.rows

omit [LawfulKey α] in
theorem Fitting.due {t : Table} (hl : l.Fitting A Weighs t) (now : Instant) (d : Duration) :
    ∀ e ∈ l.due now d, Fits A Weighs e.1.2 e.2 := fun e he => hl.buffer e.1 e.2 (mem_live.1 he).1

omit [LawfulKey α] in
theorem Alike.due_perm (h : l.Alike m) (now : Instant) (d : Duration) : (l.due now d).Perm (m.due now d) := by
  refine (List.perm_ext_iff_of_nodup (.of_map Prod.fst (l.nodup_due now d)) (.of_map Prod.fst (m.nodup_due now d))).2
    fun e => ?_
  rw [due, due, mem_live, mem_live, h.buffer]

omit [LawfulKey α] in
theorem Alike.sortedIds_eq (h : l.Alike m) (now : Instant) (d : Duration) :
    sortedIds (l.due now d) = sortedIds (m.due now d) := by
  refine List.Perm.eq_of_pairwise (fun a b _ _ hab hba => absurd (String.lt_trans hab hba) (String.lt_irrefl a))
    (pairwise_sortedIds _) (pairwise_sortedIds _) ?_
  refine (List.perm_ext_iff_of_nodup (nodup_sortedIds _) (nodup_sortedIds _)).2 fun id => ?_
  rw [mem_sortedIds, mem_sortedIds]
  simp only [(h.due_perm now d).mem_iff]

omit [LawfulKey α] in
theorem Alike.baselinesAfter_eq (h : l.Alike m) (now : Instant) (d : Duration) (ids : List String) (key : OriginKey) :
    baselinesAfter (l.due now d) l.baselines ids key = baselinesAfter (m.due now d) m.baselines ids key := by
  unfold baselinesAfter
  cases Rollup.mode α with
  | replace => exact h.baselines key
  | additive => simp only [Standing.advance, find_due, h.buffer, h.baselines]

theorem Fitting.of_fresh (h : ∀ id, (A id).Telling Weighs) (hl : l.Fitting A Weighs (store.table (Rollup.tag α)))
    {now : Instant} {d : Duration} {id : String} (hid : id ∈ sortedIds (l.due now d)) {a : α}
    (ha : freshRow? (l.due now d) l.baselines (storedRow α store id) id = some a) : Fits A Weighs id a := by
  obtain ⟨r, hr, hfits, -⟩ := row_spec h hl (hl.due now d) (mem_sortedIds.1 hid)
  rw [ha] at hr
  cases hr
  exact hfits

/-- Whatever the order of the buffer, an id has the same new row. -/
theorem Alike.freshRow?_eq (h : ∀ id, (A id).Telling Weighs) (hl : l.Fitting A Weighs (store.table (Rollup.tag α)))
    (hlm : l.Alike m) (now : Instant) (d : Duration) {id : String} (hid : id ∈ sortedIds (l.due now d)) :
    freshRow? (l.due now d) l.baselines (storedRow α store id) id =
      freshRow? (m.due now d) m.baselines (storedRow α store id) id := by
  have hm := hl.alike hlm.symm
  have hperm : (entriesOf (l.due now d) id).Perm (entriesOf (m.due now d) id) := (hlm.due_perm now d).filter _
  obtain ⟨r, hr, hfits, hread⟩ := row_spec h hl (hl.due now d) (mem_sortedIds.1 hid)
  obtain ⟨r', hr', hfits', hread'⟩ := row_spec h hm (hm.due now d) (mem_sortedIds.1 (hlm.sortedIds_eq now d ▸ hid))
  have hcontribution : ∀ e : Entry α, contribution? m.baselines e = contribution? l.baselines e := by
    intro e
    unfold contribution?
    rw [hlm.baselines]
  have hsame : (A id).read r = (A id).read r' := by
    rw [hread, hread', readings, readings]
    simp only [hcontribution]
    rw [(hperm.map _).sum_eq]
  rw [hr, hr', (h id).eq_of_read hfits.1 hfits'.1 hfits.2 hsame]

/-- In a healthy store both are flushed to the end, write the same rows and leave the same behind. -/
theorem Alike.flush (h : ∀ id, (A id).Telling Weighs) (hl : l.Fitting A Weighs (store.table (Rollup.tag α)))
    (hlm : l.Alike m) (hhealthy : store.Healthy) {d : Duration} (hd : l.retention? = some d) (hbatch : 0 < l.batchSize)
    (hbatch' : 0 < m.batchSize) (now : Instant) :
    ∃ rows, Flushed l store now d rows (l.flush store now) ∧ Flushed m store now d rows (m.flush store now) ∧
      (l.flush store now).fault = none ∧ (m.flush store now).fault = none := by
  have hm := hl.alike hlm.symm
  have hd' : m.retention? = some d := by
    rw [retention?, ← hlm.window]
    exact hd
  -- Only now is it known that both flushes write all their ids, and so in the same order.
  have ends : ∀ {n : Ledger α}, n.Fitting A Weighs (store.table (Rollup.tag α)) → n.retention? = some d →
      (n.flush store now).fault = none := by
    intro n hn hretention
    rw [flush_eq hretention]
    refine fault_write_of_healthy (n.nodup_due now d) hhealthy (fun e he => ?_) _
    obtain ⟨r, hr, -⟩ := row_spec h hn (hn.due now d) ⟨e, he, rfl⟩
    rw [hr]
    exact Option.some_ne_none r
  obtain ⟨rows, hf⟩ := flushed_of_fault hd hbatch (ends hl hd)
  obtain ⟨rows', hg⟩ := flushed_of_fault hd' hbatch' (ends hm hd')
  have hrows : rows = rows' := by
    refine List.map_injective_iff.2 (fun r r' heq => ?_) (?_ : rows.map (fun r => (r.1, some r.2)) = rows'.map _)
    · simp only [Prod.mk.injEq, Option.some.injEq] at heq
      exact Prod.ext heq.1 heq.2
    · rw [hf.rows_eq, hg.rows_eq, ← hlm.sortedIds_eq]
      refine List.map_congr_left fun id hid => ?_
      rw [hlm.freshRow?_eq h hl now d hid]
  exact ⟨rows, hf, hrows ▸ hg, ends hl hd, ends hm hd'⟩

/-! ### Flushes and batches keep them fitting -/

/-- What a flush puts into the table fits, and no row goes. -/
theorem Fitting.flush (h : ∀ id, (A id).Telling Weighs) (hl : l.Fitting A Weighs (store.table (Rollup.tag α)))
    (now : Instant) :
    (l.flush store now).ledger.Fitting A Weighs ((l.flush store now).store.table (Rollup.tag α)) ∧
      ∀ {m : Ledger α}, m.Fitting A Weighs (store.table (Rollup.tag α)) →
        m.Fitting A Weighs ((l.flush store now).store.table (Rollup.tag α)) := by
  cases hretention : l.retention? with
  | none =>
    have hsame : l.flush store now = ⟨[], some .overflow, l, store⟩ := by
      rw [Ledger.flush, hretention]
    rw [hsame]
    exact ⟨hl, fun hm => hm⟩
  | some d =>
    obtain ⟨done, rest, rows, records, hsplit, hw, -⟩ := progress_write (l.nodup_due now d) l.batchSize l.baselines store
    have hrow : ∀ r ∈ rows, Fits A Weighs r.1 r.2 := fun r hr =>
      hl.of_fresh h ((hw.sublist hsplit).subset (List.mem_map_of_mem hr)) (hw.fresh r hr)
    rw [flush_eq hretention]
    simp only [hw.table]
    have hrows : ∀ id row, ((store.table (Rollup.tag α)).upsert (rows.map fun r => (r.1, Rollup.encode r.2))).get? id = some row →
        ∃ a, row = Rollup.encode a ∧ Fits A Weighs id a := by
      intro id row hget
      rcases Table.get?_upsert (store.table (Rollup.tag α)) (rows.map fun r => (r.1, Rollup.encode r.2)) id with
        ⟨new, hnew, hsome⟩ | ⟨-, hsame⟩
      · obtain ⟨r, hr, heq⟩ := List.mem_map.1 hnew
        rw [hsome] at hget
        cases hget
        cases heq
        exact ⟨r.2, rfl, hrow r hr⟩
      · exact hl.rows id row (hsame ▸ hget)
    have hgrown : ∀ id, (store.table (Rollup.tag α)).get? id ≠ none →
        ((store.table (Rollup.tag α)).upsert (rows.map fun r => (r.1, Rollup.encode r.2))).get? id ≠ none :=
      fun id hid => Table.get?_upsert_ne_none _ (Or.inr hid)
    refine ⟨⟨fun key b hb => (by cases hb), fun key b hb => ?_, hrows⟩, fun hm => ⟨hm.buffer, fun key b hb => ?_, hrows⟩⟩
    · have hkept := Writing.get?_of_keep hb
      rw [hw.kept] at hkept
      rcases mem_of_baselinesAfter (l.nodup_due now d) hkept with ⟨hmem, hid⟩ | hold
      · refine ⟨hl.due now d _ hmem, Table.get?_upsert_ne_none _ (Or.inl ?_)⟩
        rw [← hw.ids] at hid
        rwa [List.map_map]
      · exact ⟨(hl.baselines key b hold).1, hgrown _ (hl.baselines key b hold).2⟩
    · exact ⟨(hm.baselines key b hb).1, hgrown _ (hm.baselines key b hb).2⟩

omit [LawfulKey α] in
theorem Fitting.acceptBatch {t : Table} (hl : l.Fitting A Weighs t) {batch : List (Snapshot α)}
    (hbatch : ∀ s ∈ batch, Fits A Weighs (Rollup.id s.record) s.record) (now : Instant) :
    (l.acceptBatch batch now).2.Fitting A Weighs t where
  buffer key b hb := by
    rw [LedgerRun.buffer_acceptBatch, Option.or_eq_some_iff] at hb
    rcases hb with hlast | ⟨-, hold⟩
    · obtain ⟨s, hs, rfl⟩ := List.mem_map.1 (List.mem_of_getLast? hlast)
      obtain ⟨hmem, hkey⟩ := List.mem_filter.1 hs
      simp only [Bool.and_eq_true, decide_eq_true_eq] at hkey
      rw [← hkey.2]
      exact hbatch s hmem
    · exact hl.buffer key b hold
  baselines key b hb := by
    rw [(LedgerRun.window_acceptBatch l batch now).2.2] at hb
    exact hl.baselines key b hb
  rows := hl.rows

end Ledger
end

/-! ### Totals and heartbeats -/

namespace Heartbeat

def account (application : Int32) : Account Heartbeat (Extreme max) where
  Sound m := m.application = application
  read m := ⟨some m.time⟩
  sound_merge ha _ _ := ha
  read_merge _ _ _ := rfl

theorem telling (application : Int32) : (account application).Telling fun _ => True where
  since hn _ := ⟨_, rfl, hn⟩
  merge _ _ _ := trivial
  eq_of_read {_ a b} ha hb _ h := by
    obtain ⟨hbucket, hinstance⟩ := subject_of_id (ha.1.trans hb.1.symm)
    have happlication : a.application = b.application := ha.2.trans hb.2.symm
    have htime : a.time = b.time := Option.some.inj (congrArg Extreme.value h)
    cases a
    cases b
    simp only at hbucket hinstance happlication htime
    simp only [hbucket, hinstance, happlication, htime]
  decode_encode := decode?_encode

end Heartbeat

theorem CallSummary.telling : (Counted.account CallSummary).Telling fun _ => True where
  since hn hb := by
    obtain ⟨d, hd, hid, hunsigned⟩ := RecordKind.exists_since (k := .callSummary) hn.2 hb.2
    exact ⟨d, hd, hid.trans hn.1, hunsigned⟩
  merge _ _ _ := trivial
  eq_of_read ha hb _ h := eq_of_read ha hb h
  decode_encode := decode?_encode

theorem ServiceStats.telling (application : Int32 → Int32) :
    (account application).Telling fun m => 0 < m.calls.toInt where
  since hn hb := by
    obtain ⟨d, hd, hid, hunsigned⟩ := RecordKind.exists_since (k := .serviceStats) hn.2.counters hb.2.counters
    exact ⟨d, hd, hid.trans hn.1, sound_since hn.2 hd hunsigned⟩
  merge {_ a b} _ hb hweighs := by
    have hcalls : 0 ≤ b.calls.toInt := hb.2.counters 0
    show 0 < (Counter.add a.calls b.calls).toInt
    rw [Counter.toInt_add]
    omega
  eq_of_read ha hb hweighs h := eq_of_read ha hb (ne_zero_of_pos hweighs) h
  decode_encode := decode?_encode

namespace RecordKind

/-- A total of calls, merged in any order. -/
def IsTotal (k : RecordKind) (m : k.Carrier) : Prop := ∃ t : MergeTree k.Carrier, (∀ c ∈ t.leaves, k.IsCall c) ∧ t.merged = m

/-- Totals of calls, and heartbeats, with the application that goes with their id. -/
def Admits (application : String → Int32) : (k : RecordKind) → k.Carrier → Prop
  | .callSummary, m => IsTotal .callSummary m
  | .serviceStats, m => IsTotal .serviceStats m ∧ ServiceStats.application m = application (ServiceStats.id m)
  | .heartbeat, m => Heartbeat.application m = application (Heartbeat.id m)
  | .alarm, _ => False

theorem sound_of_isTotal {application : Int32 → Int32} {m : ServiceStats} (h : IsTotal .serviceStats m)
    (happlication : m.application = application m.service) : ServiceStats.Sound application m ∧ 0 < m.calls.toInt := by
  obtain ⟨t, hcalls, rfl⟩ := h
  have hcounters := ServiceStats.tally_calls_nonneg t hcalls
  obtain ⟨c, hc⟩ := List.exists_mem_of_ne_nil _ t.leaves_ne_nil
  refine ⟨⟨hcounters, happlication, ?_⟩, ?_⟩
  · cases t with
    | leaf a =>
      obtain ⟨service, application, bucket, millis, isError, traceId, rfl⟩ := hcalls a (List.mem_singleton_self a)
      simp [MergeTree.merged, ServiceStats.ofCall, SlowTrace.topTraces, SlowTrace.longest, SlowTrace.keepLongest,
        SlowTrace.kept]
    | node left right => exact SlowTrace.topTraces_topTraces _
  · exact ServiceStats.calls_pos_merged t (fun m hm => ServiceStats.tally_call (hcalls m hm)) hc (hcalls c hc).calls_pos

theorem exists_telling (k : RecordKind) (application : String → Int32) :
    ∃ (V : Type) (_ : AddCommMonoid V) (A : String → Account k.Carrier V) (Weighs : k.Carrier → Prop),
      (∀ id, (A id).Telling Weighs) ∧ ∀ m, k.Admits application m → Fits A Weighs (Rollup.id m) m := by
  cases k with
  | callSummary =>
    refine ⟨_, _, fun _ => Counted.account CallSummary, _, fun _ => CallSummary.telling, fun m hm => ⟨⟨rfl, ?_⟩, trivial⟩⟩
    obtain ⟨t, hcalls, rfl⟩ := hm
    exact CallSummary.tally_calls_nonneg t hcalls
  | serviceStats =>
    refine ⟨_, _, fun id => ServiceStats.account fun _ => application id, _, fun _ => ServiceStats.telling _,
      fun m hm => ?_⟩
    have htotal : ServiceStats.Sound (fun _ => application (ServiceStats.id m)) m ∧ 0 < (ServiceStats.calls m).toInt :=
      sound_of_isTotal hm.1 hm.2
    exact ⟨⟨rfl, htotal.1⟩, htotal.2⟩
  | heartbeat =>
    exact ⟨_, _, fun id => Heartbeat.account (application id), _, fun _ => Heartbeat.telling _, fun m hm => ⟨⟨rfl, hm⟩, trivial⟩⟩
  | alarm =>
    refine ⟨Clamped, inferInstance, fun _ => ⟨fun _ => False, fun _ => 0, fun h => h.elim, fun h => h.elim⟩, fun _ => True,
      fun _ => ⟨fun h => h.2.elim, fun h => h.2.elim, fun h => h.2.elim, Alarm.decode?_encode⟩, fun _ h => h.elim⟩

end RecordKind

/-! ### Ledgers that share a table -/

/-- Ledgers that have taken in totals and heartbeats, and the store in whose table they write. A
ledger may list what it holds anew, and be started anew; others may change all but the table. -/
inductive SharedTable (k : RecordKind) (application : String → Int32) : (Nat → Ledger k.Carrier) → Store → Prop
  | start (pipeline : Nat → PipelineId) (window : Nat → Duration) (batchSize : Nat → Nat) {store : Store}
      (hempty : store.table k.tag = Dict.empty) :
      SharedTable k application (fun i => .create (pipeline i) (window i) (batchSize i)) store
  | accept {ledgers : Nat → Ledger k.Carrier} {store : Store} (i : Nat) (batch : List (Snapshot k.Carrier)) (now : Instant)
      (h : SharedTable k application ledgers store) (hbatch : ∀ s ∈ batch, k.Admits application s.record) :
      SharedTable k application (Function.update ledgers i ((ledgers i).acceptBatch batch now).2) store
  | flush {ledgers : Nat → Ledger k.Carrier} {store : Store} (i : Nat) (now : Instant)
      (h : SharedTable k application ledgers store) :
      SharedTable k application (Function.update ledgers i ((ledgers i).flush store now).ledger)
        ((ledgers i).flush store now).store
  | renew {ledgers : Nat → Ledger k.Carrier} {store : Store} (i : Nat) (pipeline : PipelineId) (window : Duration)
      (batchSize : Nat) (h : SharedTable k application ledgers store) :
      SharedTable k application (Function.update ledgers i (.create pipeline window batchSize)) store
  | relist {ledgers : Nat → Ledger k.Carrier} {store : Store} (i : Nat) {l : Ledger k.Carrier}
      (h : SharedTable k application ledgers store) (hl : l.Alike (ledgers i)) :
      SharedTable k application (Function.update ledgers i l) store
  | elsewhere {ledgers : Nat → Ledger k.Carrier} {store : Store} (other : Store)
      (h : SharedTable k application ledgers store) : SharedTable k application ledgers (store.withTableOf other k.tag)

namespace SharedTable
variable {k : RecordKind} {application : String → Int32} {ledgers : Nat → Ledger k.Carrier} {store : Store}

theorem fitting {V : Type} [AddCommMonoid V] {A : String → Account k.Carrier V} {Weighs : k.Carrier → Prop}
    (hA : ∀ id, (A id).Telling Weighs) (hadmits : ∀ m, k.Admits application m → Fits A Weighs (Rollup.id m) m)
    (h : SharedTable k application ledgers store) : ∀ i, (ledgers i).Fitting A Weighs (store.table k.tag) := by
  have only : ∀ {ledgers : Nat → Ledger k.Carrier} {t : Table} {i : Nat} {l : Ledger k.Carrier}, l.Fitting A Weighs t →
      (∀ j, (ledgers j).Fitting A Weighs t) → ∀ j, (Function.update ledgers i l j).Fitting A Weighs t := by
    intro ledgers t i l hl hall j
    by_cases hj : j = i
    · rw [hj, Function.update_self]
      exact hl
    · rw [Function.update_of_ne hj]
      exact hall j
  induction h with
  | start pipeline window batchSize hempty =>
    intro i
    rw [hempty]
    exact ⟨fun _ _ hb => (by cases hb), fun _ _ hb => (by cases hb), fun _ _ hb => (by cases hb)⟩
  | accept i batch now _ hbatch ih => exact only ((ih i).acceptBatch (fun s hs => hadmits s.record (hbatch s hs)) now) ih
  | flush i now _ ih =>
    obtain ⟨hown, hothers⟩ := (ih i).flush hA now
    exact only hown fun j => hothers (ih j)
  | renew i pipeline window batchSize _ ih =>
    exact only ⟨fun _ _ hb => (by cases hb), fun _ _ hb => (by cases hb), (ih i).rows⟩ ih
  | relist i _ hl ih => exact only ((ih i).alike hl) ih
  | elsewhere other _ ih =>
    intro i
    rw [Store.table_withTableOf]
    exact ih i

/-- However two ledgers list what one of them holds, and whatever their chunks, flushes into a
healthy store end, write the same rows in ascending order, and leave the same. -/
theorem flush_any_order (h : SharedTable k application ledgers store) (hhealthy : store.Healthy) {i : Nat} {d : Duration}
    (hd : (ledgers i).window.double? = some d) {l m : Ledger k.Carrier} (hl : l.Alike (ledgers i))
    (hm : m.Alike (ledgers i)) (hlbatch : 0 < l.batchSize) (hmbatch : 0 < m.batchSize) (now : Instant) :
    let f := l.flush store now
    let g := m.flush store now
    f.fault = none ∧ g.fault = none ∧ f.written = g.written ∧
      (∀ name id, (f.store.table name).get? id = (g.store.table name).get? id) ∧ f.ledger.Alike g.ledger ∧
      f.ledger.buffer = Dict.empty ∧ g.ledger.buffer = Dict.empty ∧
      ∃ ids : List String, ids.Pairwise (· < ·) ∧
        (∀ id, id ∈ ids ↔ ∃ o b, (ledgers i).buffer.get? (o, id) = some b ∧ Live now d b) ∧
        f.written.map Rollup.id = ids ∧
        Ledger.InChunks k.Carrier l.batchSize ids ((f.store.callsSince store).reverse.map CallRecord.call) ∧
        Ledger.InChunks k.Carrier m.batchSize ids ((g.store.callsSince store).reverse.map CallRecord.call) := by
  intro f g
  obtain ⟨V, inst, A, Weighs, hA, hadmits⟩ := k.exists_telling application
  have hfits := (h.fitting hA hadmits i).alike hl
  have hlm : l.Alike m := hl.trans hm.symm
  have hretention : l.retention? = some d := by
    rw [Ledger.retention?, hl.window]
    exact hd
  obtain ⟨rows, hf, hg, hfend, hgend⟩ := hlm.flush hA hfits hhealthy hretention hlbatch hmbatch now
  have hsorted := hlm.sortedIds_eq now d
  refine ⟨hfend, hgend, hf.written.trans hg.written.symm, fun name id => ?_, ⟨?_, fun key => ?_, fun key => ?_⟩,
    hf.ledger.1, hg.ledger.1, Ledger.sortedIds (l.due now d), Ledger.pairwise_sortedIds _, fun id => ?_, ?_, hf.calls,
    hsorted ▸ hg.calls⟩
  · by_cases hname : name = k.tag
    · rw [hname]
      exact (hf.table id).trans (hg.table id).symm
    · rw [hf.others name hname, hg.others name hname]
  · rw [hf.ledger.2, hg.ledger.2, hlm.window]
  · rw [hf.ledger.1, hg.ledger.1]
  · rw [hf.baselines, hg.baselines, hsorted, hlm.baselinesAfter_eq]
  · rw [Ledger.mem_sortedIds]
    constructor
    · rintro ⟨e, he, rfl⟩
      obtain ⟨hget, hlive⟩ := mem_live.1 he
      exact ⟨e.1.1, e.2, (hl.buffer e.1).symm.trans hget, hlive⟩
    · rintro ⟨o, b, hget, hlive⟩
      exact ⟨((o, id), b), mem_live.2 ⟨(hl.buffer (o, id)).trans hget, hlive⟩, rfl⟩
  · rw [hf.written, List.map_map, ← hf.ids]
    refine List.map_congr_left fun r hr => ?_
    exact (hfits.of_fresh hA (hf.ids ▸ List.mem_map_of_mem hr) (hf.fresh r hr)).1.1

end SharedTable

/-! ### Two origins -/

theorem Dict.get?_set_comm {κ α : Type} [DecidableEq κ] (d : Dict κ α) {k j : κ} (h : k ≠ j) (v w : α) (i : κ) :
    ((d.set k v).set j w).get? i = ((d.set j w).set k v).get? i := by
  simp only [Dict.get?_set]
  by_cases hk : i = k
  · rw [if_pos hk, if_pos hk, if_neg (hk ▸ h)]
  · rw [if_neg hk, if_neg hk]

namespace SharedTable

/-- A call of service 1. -/
def callOf (application : Int32) : ServiceStats := .ofCall 1 application ⟨201801011234⟩ 100 false "trace"

/-- A ledger that has taken in a batch. -/
def holding (window : Duration) (batchSize : Nat) (batch : List (Snapshot ServiceStats)) : Ledger ServiceStats :=
  ((Ledger.create ⟨2⟩ window batchSize).acceptBatch batch .epoch).2

theorem holding_alike (batchSize batchSize' : Nat) (x y : Int32) :
    (holding (.ofSeconds 600) batchSize [⟨"a", callOf x⟩, ⟨"b", callOf y⟩]).Alike
      (holding (.ofSeconds 600) batchSize' [⟨"b", callOf y⟩, ⟨"a", callOf x⟩]) := by
  have hlive : ∀ application, ((Rollup.bucket (callOf application)).isExpired .epoch (.ofSeconds 600)) = false :=
    fun _ => (by decide +kernel : (⟨201801011234⟩ : TimeBucket).isExpired .epoch (.ofSeconds 600) = false)
  have htake : ∀ (l : Ledger ServiceStats) (o : String) (application : Int32), l.window = .ofSeconds 600 →
      Ledger.accept .epoch l ⟨o, callOf application⟩ =
        { l with buffer := l.buffer.set (o, Rollup.id (callOf application)) (callOf application) } := by
    intro l o application hl
    rw [Ledger.accept, hl, hlive, if_neg Bool.false_ne_true]
  have hkeys : (("a", Rollup.id (callOf x)) : OriginKey) ≠ ("b", Rollup.id (callOf y)) := by simp
  simp only [holding, Ledger.acceptBatch, List.foldl_cons, List.foldl_nil]
  rw [htake (.create ⟨2⟩ (.ofSeconds 600) batchSize) "a" x rfl, htake _ "b" y rfl,
    htake (.create ⟨2⟩ (.ofSeconds 600) batchSize') "b" y rfl, htake _ "a" x rfl]
  exact ⟨rfl, Dict.get?_set_comm _ hkeys _ _, fun _ => rfl⟩

theorem isTotal_callOf (application : Int32) : RecordKind.serviceStats.IsTotal (callOf application) := by
  refine ⟨.leaf (callOf application), fun _ hc => ?_, rfl⟩
  rw [List.mem_singleton.1 hc]
  exact ⟨1, application, _, 100, false, _, rfl⟩

theorem flush_any_order_reversed :
    let f := (holding (.ofSeconds 600) 1 [⟨"a", callOf 1⟩, ⟨"b", callOf 1⟩]).flush .fresh .epoch
    let g := (holding (.ofSeconds 600) 2000 [⟨"b", callOf 1⟩, ⟨"a", callOf 1⟩]).flush .fresh .epoch
    f.fault = none ∧ f.written = g.written ∧ f.ledger.Alike g.ledger ∧ f.written.map (fun r => r.calls) = [2] := by
  intro f g
  have hadmits : ∀ s ∈ [(⟨"a", callOf 1⟩ : Snapshot ServiceStats), ⟨"b", callOf 1⟩],
      RecordKind.serviceStats.Admits (fun _ => 1) s.record := by
    intro s hs
    rcases List.mem_pair.1 hs with rfl | rfl
    · exact ⟨isTotal_callOf 1, rfl⟩
    · exact ⟨isTotal_callOf 1, rfl⟩
  have hreached : SharedTable .serviceStats (fun _ => 1) _ .fresh :=
    .accept 0 _ .epoch (.start (fun _ => ⟨2⟩) (fun _ => .ofSeconds 600) (fun _ => 1) rfl) hadmits
  have hheld : (holding (.ofSeconds 600) 1 [⟨"a", callOf 1⟩, ⟨"b", callOf 1⟩]).Alike (Function.update
      (fun _ => Ledger.create ⟨2⟩ (.ofSeconds 600) 1) 0 (holding (.ofSeconds 600) 1 [⟨"a", callOf 1⟩, ⟨"b", callOf 1⟩]) 0) := by
    rw [Function.update_self]
    exact ⟨rfl, fun _ => rfl, fun _ => rfl⟩
  obtain ⟨hends, -, hwritten, -, halike, -⟩ := flush_any_order hreached (fun _ _ _ h => by cases h) (i := 0)
    (d := .ofSeconds 1200) (by decide +kernel) hheld ((holding_alike 1 2000 1 1).symm.trans hheld) (by decide +kernel)
    (by decide +kernel) .epoch
  exact ⟨hends, hwritten, halike, by decide +kernel⟩

/-- Totals of one service that come with different applications are told apart by their order, and a
window without a double leaves no flush at all. -/
theorem flush_in_some_order :
    (∀ application, RecordKind.serviceStats.IsTotal (callOf application)) ∧
      (holding (.ofSeconds 600) 2000 [⟨"a", callOf 1⟩, ⟨"b", callOf 2⟩]).Alike
        (holding (.ofSeconds 600) 2000 [⟨"b", callOf 2⟩, ⟨"a", callOf 1⟩]) ∧
      ((holding (.ofSeconds 600) 2000 [⟨"a", callOf 1⟩, ⟨"b", callOf 2⟩]).flush .fresh .epoch).written.map
        ServiceStats.application = [1] ∧
      ((holding (.ofSeconds 600) 2000 [⟨"b", callOf 2⟩, ⟨"a", callOf 1⟩]).flush .fresh .epoch).written.map
        ServiceStats.application = [2] ∧
      ((holding (.ofSeconds 18446744073709551615) 2000 [⟨"a", callOf 1⟩]).flush .fresh .epoch).fault = some .overflow ∧
      ((holding (.ofSeconds 18446744073709551615) 2000 [⟨"a", callOf 1⟩]).flush .fresh .epoch).ledger.buffer.size = 1 :=
  ⟨isTotal_callOf, holding_alike 2000 2000 _ _, by decide +kernel, by decide +kernel, by decide +kernel, by decide +kernel⟩

end SharedTable
end TraceRollup
