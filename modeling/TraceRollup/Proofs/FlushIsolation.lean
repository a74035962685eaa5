import TraceRollup.Proofs.FlushReports

/-!
# Flushes keep to their tables

A flush asks the store for its own table only, so it cannot be told from one in a store that is alike
on that table (`Ledger.flush_alikeOn`), and it leaves all others as they were, also when it fails
(`Ledger.alikeOn_flush`). A round of flushes does to every ledger and table what each flush alone would
do, as long as the arithmetic of none leaves its range (`flushAll_isolated`).
-/

namespace TraceRollup

/-! ### Stores that are alike on a table -/

/-- The table that a call is about. Names are in none. -/
def StoreCall.table? : StoreCall → Option String
  | .read table _ => some table
  | .write table _ => some table
  | .delete table => some table
  | .find _ _ => none
  | .create _ _ => none

def callsOn (name : String) (calls : List CallRecord) : List CallRecord :=
  calls.filter fun r => decide (r.call.table? = some name)

theorem callsOn_cons (name : String) (r : CallRecord) (calls : List CallRecord) :
    callsOn name (r :: calls) = if r.call.table? = some name then r :: callsOn name calls else callsOn name calls := by
  simp only [callsOn, List.filter_cons, decide_eq_true_eq]

/-- What befalls a call about a table does not depend on the calls about others. -/
def FaultPlan.ByTable (plan : FaultPlan) : Prop :=
  ∀ (name : String) (call : StoreCall) (past past' : List CallRecord), call.table? = some name →
    callsOn name past = callsOn name past' → plan past call = plan past' call

theorem Outage.byTable_plan {o : Outage} (h : o.writeBudget = none) (since : Nat) : (o.plan since).ByTable := by
  intro name call past past' _ _
  cases call with
  | write table ids => simp only [plan, h]
  | read | delete | find | create => rfl

namespace Store

/-- Two stores that no call about a table tells apart. -/
structure AlikeOn (name : String) (s t : Store) : Prop where
  table : s.table name = t.table name
  past : callsOn name s.history = callsOn name t.history
  plan : s.plan = t.plan
  fair : s.plan.ByTable

variable {name other : String} {s t u : Store}

theorem AlikeOn.refl (name : String) (h : s.plan.ByTable) : s.AlikeOn name s := ⟨rfl, rfl, rfl, h⟩

theorem AlikeOn.trans (h : s.AlikeOn name t) (h' : t.AlikeOn name u) : s.AlikeOn name u :=
  ⟨h.table.trans h'.table, h.past.trans h'.past, h.plan.trans h'.plan, h.fair⟩

theorem AlikeOn.meet (h : s.AlikeOn name t) (call : StoreCall) (hcall : call.table? = some name) :
    (s.meet call).1 = (t.meet call).1 ∧ (s.meet call).2.AlikeOn name (t.meet call).2 := by
  have hverdict : s.plan s.history call = t.plan t.history call := by
    rw [← h.plan]
    exact h.fair name call _ _ hcall h.past
  refine ⟨hverdict, h.table, ?_, h.plan, h.fair⟩
  simp only [Store.meet, callsOn_cons, hverdict, h.past]

theorem alikeOn_meet (hs : s.plan.ByTable) (call : StoreCall) (hcall : call.table? = some name) (hother : other ≠ name) :
    (s.meet call).2.AlikeOn other s := by
  refine ⟨rfl, ?_, rfl, hs⟩
  -- the call joins the history, but not what was asked of the other table
  have hne : call.table? ≠ some other := fun heq => hother (Option.some.inj (heq.symm.trans hcall))
  rw [Store.meet, callsOn_cons, if_neg hne]

theorem AlikeOn.getMany (h : s.AlikeOn name t) (ids : List String) :
    (s.getMany name ids).1 = (t.getMany name ids).1 ∧ (s.getMany name ids).2.AlikeOn name (t.getMany name ids).2 := by
  obtain ⟨hverdict, halike⟩ := h.meet (.read name ids) rfl
  unfold Store.getMany
  generalize s.meet (.read name ids) = x at hverdict halike ⊢
  generalize t.meet (.read name ids) = y at hverdict halike ⊢
  obtain ⟨v, s'⟩ := x
  obtain ⟨v', t'⟩ := y
  obtain rfl : v = v' := hverdict
  have htable : s'.contents.table name = t'.contents.table name := halike.table
  cases v with
  | refuse what => exact ⟨rfl, halike⟩
  | answer | findNothing | giveZero => exact ⟨by simp only [htable], halike⟩

theorem alikeOn_getMany (hs : s.plan.ByTable) (hother : other ≠ name) (ids : List String) :
    (s.getMany name ids).2.AlikeOn other s := by
  have halike := alikeOn_meet hs (.read name ids) rfl hother
  unfold Store.getMany
  generalize s.meet (.read name ids) = x at halike ⊢
  obtain ⟨v, s'⟩ := x
  cases v with
  | refuse what => exact halike
  | answer | findNothing | giveZero => exact halike

theorem AlikeOn.upsert (h : s.AlikeOn name t) (rows : List (String × Json)) :
    (s.upsert name rows).1 = (t.upsert name rows).1 ∧ (s.upsert name rows).2.AlikeOn name (t.upsert name rows).2 := by
  obtain ⟨hverdict, halike⟩ := h.meet (.write name (rows.map Prod.fst)) rfl
  unfold Store.upsert
  generalize s.meet (.write name (rows.map Prod.fst)) = x at hverdict halike ⊢
  generalize t.meet (.write name (rows.map Prod.fst)) = y at hverdict halike ⊢
  obtain ⟨v, s'⟩ := x
  obtain ⟨v', t'⟩ := y
  obtain rfl : v = v' := hverdict
  have htable : (s'.contents.upsert name rows).table name = (t'.contents.upsert name rows).table name := by
    rw [Contents.table_upsert, Contents.table_upsert]
    exact congrArg (Table.upsert · rows) halike.table
  cases v with
  | refuse what => exact ⟨rfl, halike⟩
  | answer | findNothing | giveZero => exact ⟨rfl, htable, halike.past, halike.plan, halike.fair⟩

theorem alikeOn_upsert (hs : s.plan.ByTable) (hother : other ≠ name) (rows : List (String × Json)) :
    (s.upsert name rows).2.AlikeOn other s := by
  have halike := alikeOn_meet hs (.write name (rows.map Prod.fst)) rfl hother
  unfold Store.upsert
  generalize s.meet (.write name (rows.map Prod.fst)) = x at halike ⊢
  obtain ⟨v, s'⟩ := x
  have htable := (Contents.table_upsert_of_ne s'.contents hother rows).trans halike.table
  cases v with
  | refuse what => exact halike
  | answer | findNothing | giveZero => exact ⟨htable, halike.past, halike.plan, halike.fair⟩

end Store

/-! ### One flush -/

namespace Ledger
variable {α : Type} [Rollup α] {name : String} {s t : Store} {entries : List (Entry α)} {w w' : Writing α}

theorem readChunk_alikeOn (h : s.AlikeOn (Rollup.tag α) t) (ids : List String) :
    (readChunk (α := α) s ids).1 = (readChunk (α := α) t ids).1 ∧
      (readChunk (α := α) s ids).2.AlikeOn (Rollup.tag α) (readChunk (α := α) t ids).2 := by
  unfold readChunk
  cases Rollup.mode α with
  | additive => exact h.getMany ids
  | replace => exact ⟨rfl, h⟩

theorem alikeOn_readChunk (hs : s.plan.ByTable) (hname : name ≠ Rollup.tag α) (ids : List String) :
    (readChunk (α := α) s ids).2.AlikeOn name s := by
  unfold readChunk
  cases Rollup.mode α with
  | additive => exact Store.alikeOn_getMany hs hname ids
  | replace => exact .refl name hs

/-- Two writings that went the same way in stores alike on their table. -/
structure Writing.Alike (w w' : Writing α) : Prop where
  written : w.written = w'.written
  baselines : w.baselines = w'.baselines
  fault : w.fault = w'.fault
  store : w.store.AlikeOn (Rollup.tag α) w'.store

theorem Writing.Alike.keep (h : w.Alike w') (live : α → Bool) : w.keep live = w'.keep live := by
  rw [Writing.keep, h.fault, h.baselines, Writing.keep]

theorem Writing.Alike.writeChunk (h : w.Alike w') (entries : List (Entry α)) (ids : List String) :
    (writeChunk entries w ids).Alike (writeChunk entries w' ids) := by
  obtain ⟨hread, halike⟩ := readChunk_alikeOn h.store ids
  unfold Ledger.writeChunk
  rw [← h.fault, ← h.baselines]
  cases w.fault with
  | some f => exact h
  | none =>
    dsimp only
    generalize readChunk (α := α) w.store ids = x at hread halike ⊢
    generalize readChunk (α := α) w'.store ids = y at hread halike ⊢
    obtain ⟨stored, s⟩ := x
    obtain ⟨stored', t⟩ := y
    obtain rfl : stored = stored' := hread
    cases stored with
    | error e => exact ⟨h.written, rfl, rfl, halike⟩
    | ok stored =>
      dsimp only
      cases rowsOf? entries w.baselines stored ids with
      | none => exact ⟨h.written, rfl, rfl, halike⟩
      | some rows =>
        obtain ⟨hput, hafter⟩ := halike.upsert (rows.map fun r => (r.1, Rollup.encode r.2))
        dsimp only at hput hafter ⊢
        generalize s.upsert (Rollup.tag α) (rows.map fun r => (r.1, Rollup.encode r.2)) = x at hput hafter ⊢
        generalize t.upsert (Rollup.tag α) (rows.map fun r => (r.1, Rollup.encode r.2)) = y at hput hafter ⊢
        obtain ⟨answer, s⟩ := x
        obtain ⟨answer', t⟩ := y
        obtain rfl : answer = answer' := hput
        cases answer with
        | error e => exact ⟨h.written, rfl, rfl, hafter⟩
        | ok _ => exact ⟨by rw [h.written], rfl, rfl, hafter⟩

theorem alikeOn_writeChunk (hw : w.store.plan.ByTable) (hname : name ≠ Rollup.tag α) (entries : List (Entry α))
    (ids : List String) : (writeChunk entries w ids).store.AlikeOn name w.store := by
  have halike := alikeOn_readChunk (α := α) hw hname ids
  unfold writeChunk
  cases w.fault with
  | some f => exact .refl name hw
  | none =>
    dsimp only
    generalize readChunk (α := α) w.store ids = x at halike ⊢
    obtain ⟨stored, s⟩ := x
    cases stored with
    | error e => exact halike
    | ok stored =>
      dsimp only
      cases rowsOf? entries w.baselines stored ids with
      | none => exact halike
      | some rows =>
        have hafter := (Store.alikeOn_upsert halike.fair hname (rows.map fun r => (r.1, Rollup.encode r.2))).trans halike
        dsimp only at hafter ⊢
        generalize s.upsert (Rollup.tag α) (rows.map fun r => (r.1, Rollup.encode r.2)) = x at hafter ⊢
        obtain ⟨answer, s⟩ := x
        cases answer with
        | error e => exact hafter
        | ok _ => exact hafter

theorem write_alikeOn (h : s.AlikeOn (Rollup.tag α) t) (batchSize : Nat) (entries : List (Entry α))
    (baselines : Dict OriginKey α) : (write batchSize entries baselines s).Alike (write batchSize entries baselines t) := by
  have key : ∀ (todo : List (List String)) (w w' : Writing α), w.Alike w' →
      (todo.foldl (writeChunk entries) w).Alike (todo.foldl (writeChunk entries) w') := by
    intro todo
    induction todo with
    | nil => exact fun _ _ h => h
    | cons ids rest ih => exact fun _ _ h => ih _ _ (h.writeChunk entries ids)
  exact key _ _ _ ⟨rfl, rfl, rfl, h⟩

theorem alikeOn_write (hs : s.plan.ByTable) (hname : name ≠ Rollup.tag α) (batchSize : Nat) (entries : List (Entry α))
    (baselines : Dict OriginKey α) : (write batchSize entries baselines s).store.AlikeOn name s := by
  refine List.foldlRecOn (motive := fun w : Writing α => w.store.AlikeOn name s) _ (writeChunk entries)
    (.refl name hs) fun w hw ids _ => ?_
  exact (alikeOn_writeChunk hw.fair hname entries ids).trans hw

structure Flush.Alike (f g : Flush α) : Prop where
  written : f.written = g.written
  fault : f.fault = g.fault
  ledger : f.ledger = g.ledger
  store : f.store.AlikeOn (Rollup.tag α) g.store

theorem flush_alikeOn (h : s.AlikeOn (Rollup.tag α) t) (l : Ledger α) (now : Instant) :
    (l.flush s now).Alike (l.flush t now) := by
  cases hd : l.retention? with
  | none =>
    simp only [flush, hd]
    exact ⟨rfl, rfl, rfl, h⟩
  | some d =>
    have halike := write_alikeOn h l.batchSize (l.due now d) l.baselines
    rw [flush_eq hd, flush_eq hd, halike.keep]
    exact ⟨halike.written, halike.fault, rfl, halike.store⟩

/-- A flush leaves the tables of others as they were, also if it fails. -/
theorem alikeOn_flush (hs : s.plan.ByTable) (hname : name ≠ Rollup.tag α) (l : Ledger α) (now : Instant) :
    (l.flush s now).store.AlikeOn name s := by
  cases hd : l.retention? with
  | none =>
    simp only [flush, hd]
    exact .refl name hs
  | some d =>
    rw [flush_eq hd]
    exact alikeOn_write hs hname l.batchSize (l.due now d) l.baselines

/-! ### What a flush counts -/

def Flush.rows (f : Flush α) : Nat := if f.fault.isSome then 0 else f.written.length

def Flush.failures (f : Flush α) : Nat := if f.fault.isSome then 1 else 0

theorem flushCounted_eq_none_iff {l : Ledger α} {now : Instant} {c : Counters} :
    l.flushCounted s now c = none ↔ (l.flush s now).fault = some .overflow := by
  simp only [flushCounted]
  cases hfault : (l.flush s now).fault with
  | none => simp
  | some f => cases f <;> simp

theorem flushCounted_counts {l : Ledger α} {now : Instant} {c : Counters} {g : Counted α}
    (hg : l.flushCounted s now c = some g) :
    g.report = ⟨(l.flush s now).rows, (l.flush s now).failures⟩ ∧ ∀ x, g.counters.get x = c.get x +
      if x = .flushErrors (Rollup.tag α) then (l.flush s now).failures
      else if x = .rowsFlushed (Rollup.tag α) then (l.flush s now).rows else 0 := by
  simp only [flushCounted] at hg
  unfold Flush.rows Flush.failures
  cases hfault : (l.flush s now).fault with
  | some f =>
    cases f with
    | overflow =>
      rw [hfault] at hg
      cases hg
    | storage e =>
      simp only [hfault, Option.some.injEq] at hg
      subst hg
      refine ⟨rfl, fun x => (Counters.get_add _ _ _ _).trans ?_⟩
      simp
  | none =>
    simp only [hfault, Option.some.injEq] at hg
    subst hg
    refine ⟨rfl, fun x => ?_⟩
    by_cases hrows : (l.flush s now).written.length = 0
    · simp [Counters.countFlush, hrows]
    · have hcount : (c.countFlush (Rollup.tag α) ⟨(l.flush s now).written.length, 0⟩) =
          c.add (.rowsFlushed (Rollup.tag α)) (l.flush s now).written.length := by
        simp [Counters.countFlush, hrows]
      rw [hcount, Counters.get_add]
      by_cases hx : x = .rowsFlushed (Rollup.tag α)
      · subst hx
        simp
      · simp [hx]

end Ledger

/-! ### A round of flushes -/

def AnyLedger.alone (store : Store) (now : Instant) (l : AnyLedger) : Ledger.Flush l.kind.Carrier :=
  l.ledger.flush store now

/-- A round in which some ledgers were flushed, as each alone would have been. -/
structure FlushRound.Isolated (store : Store) (now : Instant) (c : Counters) (done : List AnyLedger) (r : FlushRound) :
    Prop where
  ledgers : r.ledgers = done.map fun l => ⟨l.kind, (l.alone store now).ledger⟩
  own : ∀ l ∈ done, r.store.AlikeOn l.kind.tag (l.alone store now).store
  others : ∀ name, (∀ l ∈ done, name ≠ l.kind.tag) → r.store.AlikeOn name store
  failed : r.report.failed = done.countP fun l => (l.alone store now).fault.isSome
  rows : r.report.rows = done.foldl (fun n l => n + (l.alone store now).rows) 0
  counted : ∀ l ∈ done,
    r.counters.get (.flushErrors l.kind.tag) = c.get (.flushErrors l.kind.tag) + (l.alone store now).failures ∧
      r.counters.get (.rowsFlushed l.kind.tag) = c.get (.rowsFlushed l.kind.tag) + (l.alone store now).rows
  uncounted : ∀ s, (∀ l ∈ done, s ≠ .flushErrors l.kind.tag ∧ s ≠ .rowsFlushed l.kind.tag) → r.counters.get s = c.get s

namespace FlushRound.Isolated
variable {store : Store} {now : Instant} {c : Counters} {done rest : List AnyLedger} {l : AnyLedger} {r r' : FlushRound}

theorem start (hs : store.plan.ByTable) (now : Instant) (c : Counters) : Isolated store now c [] ⟨{}, [], [], store, c⟩ where
  ledgers := rfl
  own _ h := absurd h List.not_mem_nil
  others name _ := .refl name hs
  failed := rfl
  rows := rfl
  counted _ h := absurd h List.not_mem_nil
  uncounted _ _ := rfl

theorem alike (h : Isolated store now c done r) (hnew : ∀ d ∈ done, l.kind.tag ≠ d.kind.tag) :
    (l.ledger.flush r.store now).Alike (l.alone store now) :=
  Ledger.flush_alikeOn (h.others l.kind.tag hnew) l.ledger now

theorem step_eq_none_iff (h : Isolated store now c done r) (hnew : ∀ d ∈ done, l.kind.tag ≠ d.kind.tag) :
    FlushRound.step now r l = none ↔ (l.alone store now).fault = some .overflow := by
  rw [← (h.alike hnew).fault, ← Ledger.flushCounted_eq_none_iff]
  unfold FlushRound.step
  cases l.ledger.flushCounted r.store now r.counters <;> simp

theorem step (h : Isolated store now c done r) (hnew : ∀ d ∈ done, l.kind.tag ≠ d.kind.tag)
    (hstep : FlushRound.step now r l = some r') : Isolated store now c (done ++ [l]) r' := by
  obtain ⟨g, hg, hr'⟩ := Option.bind_eq_some_iff.1 hstep
  cases hr'
  have halike := h.alike hnew
  obtain ⟨hledger, hstore, -⟩ := Ledger.flushCounted_eq_some hg
  obtain ⟨hreport, hcount⟩ := Ledger.flushCounted_counts hg
  -- the ledgers before have left this one's table and calls alone, so it counts what it would alone
  have hrows : (l.ledger.flush r.store now).rows = (l.alone store now).rows := by
    rw [Ledger.Flush.rows, Ledger.Flush.rows, halike.fault, halike.written]
  have hfailures : (l.ledger.flush r.store now).failures = (l.alone store now).failures := by
    rw [Ledger.Flush.failures, Ledger.Flush.failures, halike.fault]
  rw [hrows, hfailures] at hreport hcount
  have hframe : ∀ name, name ≠ l.kind.tag → g.store.AlikeOn name r.store := by
    intro name hname
    rw [hstore]
    exact Ledger.alikeOn_flush (h.others l.kind.tag hnew).fair hname l.ledger now
  refine ⟨?_, fun m hm => ?_, fun name hname => ?_, ?_, ?_, fun m hm => ?_, fun s hs => ?_⟩
  · rw [List.map_append, ← h.ledgers, hledger, halike.ledger]
    rfl
  · rcases List.mem_append.1 hm with hm | hm
    · exact (hframe _ (Ne.symm (hnew m hm))).trans (h.own m hm)
    · rw [List.mem_singleton.1 hm, hstore]
      exact halike.store
  · refine (hframe name (hname l (List.mem_append_right _ (List.mem_singleton_self l)))).trans ?_
    exact h.others name fun m hm => hname m (List.mem_append_left _ hm)
  · show r.report.failed + g.report.failed = _
    rw [hreport, h.failed, List.countP_append, List.countP_singleton]
    rfl
  · show r.report.rows + g.report.rows = _
    rw [hreport, h.rows, List.foldl_append]
    rfl
  · dsimp only
    rw [hcount, hcount]
    rcases List.mem_append.1 hm with hm | hm
    · have hne : m.kind.tag ≠ Rollup.tag l.kind.Carrier := Ne.symm (hnew m hm)
      obtain ⟨herrors, hflushed⟩ := h.counted m hm
      simp [hne, herrors, hflushed]
    · rw [List.mem_singleton.1 hm]
      rw [h.uncounted (.flushErrors l.kind.tag) fun d hd => ⟨by simpa using hnew d hd, by simp⟩,
        h.uncounted (.rowsFlushed l.kind.tag) fun d hd => ⟨by simp, by simpa using hnew d hd⟩]
      simp [RecordKind.tag]
  · dsimp only
    obtain ⟨herrors, hflushed⟩ := hs l (List.mem_append_right _ (List.mem_singleton_self l))
    unfold RecordKind.tag at herrors hflushed
    rw [hcount, if_neg herrors, if_neg hflushed, Nat.add_zero]
    exact h.uncounted s fun m hm => hs m (List.mem_append_left _ hm)

/-- A round ends where a flush of its own would leave the range of the arithmetic. -/
theorem foldlM (h : Isolated store now c done r) (hnodup : ((done ++ rest).map fun l => l.kind.tag).Nodup) :
    ((rest.foldlM (FlushRound.step now) r).isSome = true ↔ ∀ l ∈ rest, (l.alone store now).fault ≠ some .overflow) ∧
      ∀ r', rest.foldlM (FlushRound.step now) r = some r' → Isolated store now c (done ++ rest) r' := by
  induction rest generalizing done r with
  | nil =>
    refine ⟨⟨fun _ _ hl => absurd hl List.not_mem_nil, fun _ => rfl⟩, fun r' hr' => ?_⟩
    cases hr'
    rwa [List.append_nil]
  | cons l rest ih =>
    have hnew : ∀ d ∈ done, l.kind.tag ≠ d.kind.tag := by
      intro d hd heq
      rw [List.map_append, List.nodup_append] at hnodup
      exact hnodup.2.2 _ (List.mem_map_of_mem hd) _ (List.mem_cons_self ..) heq.symm
    rw [List.foldlM_cons]
    cases hstep : FlushRound.step now r l with
    | none =>
      have hoverflow := (h.step_eq_none_iff hnew).1 hstep
      refine ⟨⟨fun hsome => absurd hsome Bool.false_ne_true, fun hends => ?_⟩, fun r' hr' => by cases hr'⟩
      exact absurd hoverflow (hends l (List.mem_cons_self ..))
    | some r₁ =>
      have hends : (l.alone store now).fault ≠ some .overflow := by
        intro hoverflow
        rw [(h.step_eq_none_iff hnew).2 hoverflow] at hstep
        cases hstep
      rw [List.append_cons] at hnodup ⊢
      obtain ⟨hsome, hround⟩ := ih (h.step hnew hstep) hnodup
      refine ⟨hsome.trans ⟨fun hall m hm => ?_, fun hall m hm => hall m (List.mem_cons_of_mem _ hm)⟩, hround⟩
      rcases List.mem_cons.1 hm with rfl | hm
      · exact hends
      · exact hall m hm

end FlushRound.Isolated

/-- Ledgers with tables of their own, some of which cannot be read or written. A round of flushes ends
as long as no flush leaves the range of its arithmetic. Then every ledger and every table is as its own
flush alone leaves it, and what the round reports and counts is what these come to. A flush, whether it
fails or not, leaves the tables of all others as they were. -/
theorem flushAll_isolated (ledgers : List AnyLedger) (hnodup : (ledgers.map fun l => l.kind.tag).Nodup) (store : Store)
    (hplan : store.plan.ByTable) (now : Instant) (c : Counters) :
    let alone := fun l : AnyLedger => l.alone store now
    (∀ l name, name ≠ l.kind.tag → (alone l).store.table name = store.table name) ∧
    ((flushAll now ledgers store c).isSome = true ↔ ∀ l ∈ ledgers, (alone l).fault ≠ some .overflow) ∧
    ∀ round, flushAll now ledgers store c = some round →
      round.ledgers = ledgers.map (fun l => ⟨l.kind, (alone l).ledger⟩) ∧
      (∀ l ∈ ledgers, round.store.table l.kind.tag = (alone l).store.table l.kind.tag) ∧
      (∀ name, (∀ l ∈ ledgers, name ≠ l.kind.tag) → round.store.table name = store.table name) ∧
      round.report.failed = ledgers.countP (fun l => (alone l).fault.isSome) ∧
      round.report.rows = ledgers.foldl
        (fun n l => n + if (alone l).fault.isSome then 0 else (alone l).written.length) 0 ∧
      (∀ l ∈ ledgers,
        round.counters.get (.flushErrors l.kind.tag) =
          c.get (.flushErrors l.kind.tag) + (if (alone l).fault.isSome then 1 else 0) ∧
        round.counters.get (.rowsFlushed l.kind.tag) =
          c.get (.rowsFlushed l.kind.tag) + if (alone l).fault.isSome then 0 else (alone l).written.length) ∧
      ∀ s, (∀ l ∈ ledgers, s ≠ .flushErrors l.kind.tag ∧ s ≠ .rowsFlushed l.kind.tag) →
        round.counters.get s = c.get s := by
  intro alone
  obtain ⟨hsome, hround⟩ := (FlushRound.Isolated.start hplan now c).foldlM hnodup
  refine ⟨fun l name hname => ?_, hsome, fun round hr => ?_⟩
  · exact (Ledger.alikeOn_flush hplan hname l.ledger now).table
  · have h := hround round hr
    exact ⟨h.ledgers, fun l hl => (h.own l hl).table, fun name hname => (h.others name hname).table, h.failed, h.rows,
      h.counted, h.uncounted⟩

namespace AnyLedger

def calls : AnyLedger :=
  ⟨.serviceStats, ((Ledger.create ⟨2⟩ (.ofSeconds 600) 1).acceptBatch
    [⟨"a", ServiceStats.ofCall 1 1 ⟨201801011234⟩ 100 false "trace"⟩] .epoch).2⟩

def boundless : AnyLedger := ⟨.serviceStats, Ledger.create ⟨2⟩ (.ofSeconds 18446744073709551615) 1⟩

end AnyLedger

/-- A store one table of which takes no rows. -/
def Store.barred : Store := { fresh with plan := Outage.plan { writeDown := ["service_metric"] } 0 }

/-- The first flush fails and the second is as it would be alone. -/
theorem flushAll_isolated_barred :
    ([AnyLedger.calls, .heartbeats].map fun l => l.kind.tag).Nodup ∧ Store.barred.plan.ByTable ∧
    ∃ round, flushAll .epoch [.calls, .heartbeats] .barred .fresh = some round ∧ round.report = ⟨2, 1⟩ ∧
      (round.store.table "instance_heartbeat").get? "1_2" = some (Heartbeat.mk 2 1 ⟨1⟩ 5).encode ∧
      round.counters.get (.flushErrors "service_metric") = 1 := by
  have hnodup : ([AnyLedger.calls, .heartbeats].map fun l => l.kind.tag).Nodup := by decide +kernel
  have hplan : Store.barred.plan.ByTable := Outage.byTable_plan rfl 0
  obtain ⟨-, hsome, hround⟩ := flushAll_isolated [.calls, .heartbeats] hnodup .barred hplan .epoch .fresh
  have hends : ∀ l ∈ [AnyLedger.calls, .heartbeats], (l.alone .barred .epoch).fault ≠ some .overflow := by decide +kernel
  obtain ⟨round, hr⟩ := Option.isSome_iff_exists.1 (hsome.2 hends)
  obtain ⟨-, htables, -, hfailed, hrows, hcounted, -⟩ := hround round hr
  refine ⟨hnodup, hplan, round, hr, ?_, ?_, ?_⟩
  · have hsums : round.report.failed = 1 ∧ round.report.rows = 2 :=
      ⟨hfailed.trans (by decide +kernel), hrows.trans (by decide +kernel)⟩
    rw [show round.report = ⟨round.report.rows, round.report.failed⟩ from rfl, hsums.1, hsums.2]
  · have htable := htables .heartbeats (by simp)
    exact (congrArg (Dict.get? · "1_2") htable).trans rfl
  · exact (hcounted .calls (List.mem_cons_self ..)).1.trans (by decide +kernel)

/-- A ledger whose window has no double ends the round before the next one is flushed, which would
have written its rows alone. -/
theorem flushAll_stopped_by_window :
    ([AnyLedger.boundless, .heartbeats].map fun l => l.kind.tag).Nodup ∧
      flushAll .epoch [.boundless, .heartbeats] .fresh .fresh = none ∧
      (AnyLedger.heartbeats.alone .fresh .epoch).fault = none ∧
      (AnyLedger.heartbeats.alone .fresh .epoch).written.map Heartbeat.id = ["1_1", "1_2"] :=
  ⟨by decide +kernel, Option.isNone_iff_eq_none.1 (by decide +kernel), by decide +kernel, by decide +kernel⟩

end TraceRollup
