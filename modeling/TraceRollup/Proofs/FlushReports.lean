import TraceRollup.Proofs.Writes
import TraceRollup.Store.Outage

/-!
# What a flush reports

A flush whose calls to the store were all answered tells its listener of the rows that it wrote,
each once and as stored, and counts as many. A flush with a refused call tells of none and
counts as failed, also when chunks before the refused call were written
(`flushAll_tells_written`).
-/

namespace TraceRollup

/-- The ids that calls since an earlier state of the store wrote rows under, in order. -/
def Store.writtenSince (s before : Store) (table : String) : List String := writesIn table (s.callsSince before).reverse

namespace Ledger
variable {α : Type} [Rollup α]

/-- Every row that was put in is in the table as it was encoded. -/
theorem Progress.stored {entries : List (Entry α)} {baselines : Dict OriginKey α} {before : Store}
    {done : List (List String)} {w : Writing α} {rows : List (String × α)} {records : List CallRecord}
    (h : Progress entries baselines before done w rows records) (hids : (rows.map Prod.fst).Nodup) :
    (rows.map Prod.fst).map (w.store.table (Rollup.tag α)).get? = rows.map fun r => some (Rollup.encode r.2) := by
  rw [List.map_map]
  refine List.map_congr_left fun r hr => ?_
  have hfind : Entries.find r.1 rows = some r.2 := (Entries.find_eq_some_iff hids).2 hr
  rw [Function.comp_apply, h.table, Table.get?_upsert_map _ _ hids, hfind]
  rfl

/-! ### What is told and counted -/

/-- A flush is told and counted for what it wrote, or for having failed. What a failed flush does
to the count of written rows is left open. -/
structure Counted.Exact (g : Counted α) (before : Store) (c : Counters) : Prop where
  once : (g.store.writtenSince before (Rollup.tag α)).Nodup
  whole : (∀ r ∈ g.store.callsSince before, ¬ r.Refused) →
    (g.store.writtenSince before (Rollup.tag α)).map (g.store.table (Rollup.tag α)).get? =
        g.told.map (fun a => some (Rollup.encode a)) ∧
      g.report = ⟨g.told.length, 0⟩ ∧
      ∀ s, g.counters.get s = c.get s + if s = .rowsFlushed (Rollup.tag α) then g.told.length else 0
  broken : (∃ r ∈ g.store.callsSince before, r.Refused) →
    g.told = [] ∧ g.report.failed = 1 ∧
      ∀ s, s ≠ .rowsFlushed (Rollup.tag α) →
        g.counters.get s = c.get s + if s = .flushErrors (Rollup.tag α) then 1 else 0

variable {l : Ledger α} {store : Store} {now : Instant} {c : Counters} {g : Counted α}

theorem exact_flushCounted (hg : l.flushCounted store now c = some g) : g.Exact store c := by
  obtain ⟨-, -, d, hd⟩ := flushCounted_eq_some hg
  obtain ⟨done, rest, rows, calls, hsplit, hw, -⟩ := progress_write (l.nodup_due now d) l.batchSize l.baselines store
  have hids := (nodup_sortedIds (l.due now d)).sublist (hw.sublist hsplit)
  obtain ⟨hstore, hoverflow⟩ := flushCounted_write hg hd
  have hcalls : g.store.callsSince store = calls := by
    rw [hstore]
    exact Store.callsSince_append hw.history
  have hwrites : g.store.writtenSince store (Rollup.tag α) = rows.map Prod.fst := by
    rw [Store.writtenSince, hcalls, hw.writes, hw.ids]
  have hflush : (l.flush store now).fault = (write l.batchSize (l.due now d) l.baselines store).fault ∧
      (l.flush store now).written = (write l.batchSize (l.due now d) l.baselines store).written := by
    rw [flush, hd]
    exact ⟨rfl, rfl⟩
  simp only [flushCounted, hflush.1, hflush.2, hw.written] at hg
  refine ⟨hwrites ▸ hids, fun hanswered => ?_, fun hrefused => ?_⟩
  · rw [hcalls] at hanswered
    cases hfault : (write l.batchSize (l.due now d) l.baselines store).fault with
    | none =>
      rw [hwrites, hstore, hw.stored hids]
      simp only [hfault, Option.some.injEq] at hg
      subst hg
      refine ⟨?_, rfl, fun s => ?_⟩
      · rw [List.map_map]
        rfl
      · show (c.countFlush (Rollup.tag α) ⟨(rows.map Prod.snd).length, 0⟩).get s = _
        simp only [Counters.countFlush, ne_eq, not_true_eq_false, if_false]
        split
        · exact Counters.get_add _ _ _ _
        · rename_i hzero
          rw [not_not.1 hzero, ite_self, Nat.add_zero]
    | some fault =>
      cases fault with
      | overflow => exact absurd hfault hoverflow
      | storage e =>
        obtain ⟨r, hr, hrefused, -⟩ := hw.refused e hfault
        exact absurd hrefused (hanswered r hr)
  · rw [hcalls] at hrefused
    cases hfault : (write l.batchSize (l.due now d) l.baselines store).fault with
    | none =>
      obtain ⟨r, hr, hr'⟩ := hrefused
      exact absurd hr' ((hw.calls hfault).2 r hr)
    | some fault =>
      cases fault with
      | overflow => exact absurd hfault hoverflow
      | storage e =>
        simp only [hfault, Option.some.injEq] at hg
        subst hg
        exact ⟨rfl, rfl, fun s _ => Counters.get_add _ _ _ _⟩

end Ledger

/-! ### Rounds of flushes -/

theorem flushAll_append {now : Instant} {first rest : List AnyLedger} {store : Store} {c : Counters} :
    flushAll now (first ++ rest) store c =
      (flushAll now first store c).bind fun r => rest.foldlM (FlushRound.step now) r := by
  unfold flushAll
  rw [List.foldlM_append]
  rfl

/-- In a round of flushes each ledger comes after those before it. Its listener is told, and its
rows are counted, as its flush has left the store. -/
theorem flushAll_tells_written {now : Instant} {ledgers first rest : List AnyLedger} {l : AnyLedger} {store : Store}
    {c : Counters} {round : FlushRound} (h : flushAll now ledgers store c = some round)
    (hl : ledgers = first ++ l :: rest) :
    ∃ before g, flushAll now first store c = some before ∧
      l.ledger.flushCounted before.store now before.counters = some g ∧ g.Exact before.store before.counters ∧
      ∃ after, flushAll now (first ++ [l]) store c = some after ∧
        after.told = (if g.told = [] then before.told else before.told ++ [(l.kind.tag, g.told.map Rollup.id)]) ∧
        after.report = before.report.add g.report ∧ after.store = g.store ∧ after.counters = g.counters := by
  subst hl
  rw [flushAll_append] at h
  obtain ⟨before, hbefore, hrest⟩ := Option.bind_eq_some_iff.1 h
  rw [List.foldlM_cons] at hrest
  obtain ⟨after, hafter, -⟩ := Option.bind_eq_some_iff.1 hrest
  obtain ⟨g, hg, hstep⟩ := Option.bind_eq_some_iff.1 hafter
  refine ⟨before, g, hbefore, hg, Ledger.exact_flushCounted hg, after, ?_, ?_⟩
  · rw [flushAll_append, hbefore]
    show [l].foldlM (FlushRound.step now) before = some after
    rw [List.foldlM_cons, hafter]
    rfl
  · cases hstep
    refine ⟨?_, rfl, rfl, rfl⟩
    simp only [List.isEmpty_iff]

namespace AnyLedger

/-- Two heartbeats that are written one by one. -/
def heartbeats : AnyLedger :=
  ⟨.heartbeat, ((Ledger.create ⟨3⟩ (.ofSeconds 600) 1).acceptBatch
    [⟨"a", Heartbeat.mk 1 1 ⟨1⟩ 5⟩, ⟨"a", Heartbeat.mk 2 1 ⟨1⟩ 5⟩] .epoch).2⟩

end AnyLedger

namespace Store

/-- A store that takes one write and refuses all that follow. -/
def exhausted : Store := { fresh with plan := Outage.plan { writeBudget := some 1 } 0 }

end Store

theorem flushAll_tells_written_heartbeats : (flushAll .epoch [.heartbeats] .fresh .fresh).isSome = true ∧
    ∃ g, AnyLedger.heartbeats.ledger.flushCounted .fresh .epoch .fresh = some g ∧ g.Exact .fresh .fresh ∧
      g.told.map Heartbeat.id = ["1_1", "1_2"] ∧ g.report = ⟨2, 0⟩ := by
  have hround : (flushAll .epoch [.heartbeats] .fresh .fresh).isSome = true := by decide +kernel
  obtain ⟨before, g, hbefore, hg, hexact, -⟩ :=
    flushAll_tells_written (Option.some_get hround).symm (show _ = [] ++ AnyLedger.heartbeats :: [] from rfl)
  cases hbefore
  have htold : (AnyLedger.heartbeats.ledger.flushCounted .fresh .epoch .fresh).map
      (fun g => (g.told.map Heartbeat.id, g.report)) = some (["1_1", "1_2"], ⟨2, 0⟩) := by decide +kernel
  rw [hg, Option.map_some, Option.some.injEq, Prod.mk.injEq] at htold
  exact ⟨hround, g, hg, hexact, htold⟩

/-- A row that was written before a call was refused: the listener is not told of it, and it is not counted. -/
theorem written_row_untold : ∃ round, flushAll .epoch [.heartbeats] .exhausted .fresh = some round ∧
    round.store.writtenSince .exhausted "instance_heartbeat" = ["1_1"] ∧
    (round.store.table "instance_heartbeat").get? "1_1" = some (Heartbeat.mk 1 1 ⟨1⟩ 5).encode ∧
    round.told = [] ∧ round.counters.get (.rowsFlushed "instance_heartbeat") = 0 := by
  refine ⟨(flushAll .epoch [.heartbeats] .exhausted .fresh).get (by decide +kernel), (Option.some_get _).symm,
    ?_, ?_, ?_, ?_⟩
  · decide +kernel
  · rfl
  · decide +kernel
  · decide +kernel

end TraceRollup
