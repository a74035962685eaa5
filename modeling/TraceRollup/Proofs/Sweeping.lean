import Mathlib.Tactic.SplitIfs
import TraceRollup.Collector
import TraceRollup.Proofs.Lateness
import TraceRollup.Proofs.Standing

/-!
# Sweeps and lateness

A sweep compares numbers: in each table it deletes what is below the cutoff of the table's own
granularity. Where a bucket has the digits of that granularity this is lateness; a bucket with
fewer digits is below every cutoff, and one with more is above (`TimeBucket.lt_cutoff_iff`). So
whether a row goes is told by the row and its table alone, whatever befalls the other tables
(`Collector.sweep_by_table`).
-/

namespace TraceRollup

/-! ### Cutoffs -/

/-- The smallest number with the digits of the granularity. -/
def Granularity.least (g : Granularity) : Nat := Nat.pow 10 (g.digits - 1)

namespace TimeBucket

/-- Between 1970 and 9999 a cutoff has the digits of its granularity. -/
theorem granularity?_cutoff {now : Instant} (h : now.InEra) (w : Duration) (g : Granularity) :
    (cutoff now w g).granularity? = some g := by
  have hback := Instant.inEra_back h w
  have hmillis := Instant.toInt_millis hback
  have first : Date.yearStart 1000 = -354285 := by decide
  have last : Date.yearStart 10000 = 2932897 := by decide
  apply granularity?_ofMillis
  unfold Instant.InEra millisTo9999 at hback
  unfold FourDigitYear
  omega

theorem granularity?_eq_some_iff (b : TimeBucket) (g : Granularity) :
    b.granularity? = some g ↔ g.least ≤ b.value.toNat ∧ b.value.toNat < g.least * 10 := by
  have hday : Granularity.day.least = 10000000 := by decide
  have hhour : Granularity.hour.least = 1000000000 := by decide
  have hminute : Granularity.minute.least = 100000000000 := by decide
  have hsecond : Granularity.second.least = 10000000000000 := by decide
  unfold granularity?
  simp only
  cases g <;> split_ifs <;> simp <;> omega

theorem lt_cutoff_iff {now : Instant} (h : now.InEra) (w : Duration) (g : Granularity) (b : TimeBucket) :
    b.value < (cutoff now w g).value ↔
      b.value.toNat < g.least ∨ (b.granularity? = some g ∧ b.isExpired now w = true) := by
  obtain ⟨hlow, hhigh⟩ := (granularity?_eq_some_iff _ g).1 (granularity?_cutoff h w g)
  have hdigits := granularity?_eq_some_iff b g
  rw [UInt64.lt_iff_toNat_lt]
  -- a bucket with fewer digits than the cutoff is below it, and one below it has not more
  constructor
  · intro hlt
    by_cases hshort : b.value.toNat < g.least
    · exact Or.inl hshort
    · have hg : b.granularity? = some g := hdigits.2 (by omega)
      refine Or.inr ⟨hg, ?_⟩
      rw [isExpired, hg]
      exact decide_eq_true (UInt64.lt_iff_toNat_lt.2 hlt)
  · rintro (hshort | ⟨hg, hexpired⟩)
    · omega
    · rw [isExpired, hg] at hexpired
      exact UInt64.lt_iff_toNat_lt.1 (of_decide_eq_true hexpired)

end TimeBucket

/-! ### One table -/

namespace SweepTarget

/-- A row goes when its bucket has the digits of the table's buckets and is late, or has fewer. -/
def outdates (t : SweepTarget) (now : Instant) (retention : Duration) (row : Json) : Bool :=
  match rowBucket? row with
  | none => false
  | some b =>
    decide (b.toNat < t.granularity.least) ||
      (decide ((⟨b⟩ : TimeBucket).granularity? = some t.granularity) && (⟨b⟩ : TimeBucket).isExpired now retention)

theorem rowExpired_cutoff {now : Instant} (h : now.InEra) (retention : Duration) (t : SweepTarget) (row : Json) :
    Table.rowExpired (TimeBucket.cutoff now retention t.granularity).value row = t.outdates now retention row := by
  unfold Table.rowExpired outdates
  cases rowBucket? row with
  | none => rfl
  | some b =>
    have hiff := TimeBucket.lt_cutoff_iff h retention t.granularity ⟨b⟩
    apply Bool.eq_iff_iff.2
    simp only [decide_eq_true_eq, Bool.or_eq_true, Bool.and_eq_true]
    exact hiff

end SweepTarget

namespace Contents
variable (c : Contents) (name : String) (before : UInt64)

theorem table_deleteExpired : (c.deleteExpired name before).1.table name = (c.table name).deleteExpired before := by
  unfold deleteExpired table
  cases hget : c.tables.get? name with
  | none =>
    simp only [hget]
    rfl
  | some t => simp only [Dict.get?_set_self, Option.getD_some]

theorem get?_deleteExpired_of_ne {other : String} (h : other ≠ name) :
    (c.deleteExpired name before).1.tables.get? other = c.tables.get? other := by
  unfold deleteExpired
  cases c.tables.get? name with
  | none => rfl
  | some t => exact (Dict.get?_set _ _ _ _).trans (if_neg h)

theorem names_deleteExpired : (c.deleteExpired name before).1.names = c.names := by
  unfold deleteExpired
  cases c.tables.get? name <;> rfl

theorem deleted_deleteExpired :
    (c.deleteExpired name before).2 = (c.table name).size - ((c.deleteExpired name before).1.table name).size := by
  rw [table_deleteExpired]
  unfold deleteExpired table
  cases c.tables.get? name <;> rfl

end Contents

namespace SweepTarget

/-- How many rows of the table one store holds beyond another. -/
def gone (before after : Store) (t : SweepTarget) : Nat := (before.table t.table).size - (after.table t.table).size

def sum (amount : SweepTarget → Nat) (targets : List SweepTarget) : Nat := (targets.map amount).foldr (· + ·) 0

theorem sum_cons (amount : SweepTarget → Nat) (t : SweepTarget) (targets : List SweepTarget) :
    sum amount (t :: targets) = amount t + sum amount targets := rfl

theorem sum_congr {amount amount' : SweepTarget → Nat} {targets : List SweepTarget}
    (h : ∀ t ∈ targets, amount t = amount' t) : sum amount targets = sum amount' targets :=
  congrArg (fun amounts => amounts.foldr (· + ·) 0) (List.map_congr_left h)

end SweepTarget

/-! ### Table by table -/

/-- What a sweep has done to some targets, with what befell each call to delete from a table. -/
structure Swept (now : Instant) (retention : Duration) (targets : List SweepTarget) (verdict : String → Verdict)
    (before after : SweepResult) : Prop where
  plan : after.store.plan = before.store.plan
  verdicts : ∀ t ∈ targets, ∃ past, verdict t.table = before.store.plan past (.delete t.table)
  history : after.store.history =
    (targets.map fun t => ⟨.delete t.table, verdict t.table⟩).reverse ++ before.store.history
  names : after.store.contents.names = before.store.contents.names
  others : ∀ name, (∀ t ∈ targets, t.table ≠ name) →
    after.store.contents.tables.get? name = before.store.contents.tables.get? name
  refused : ∀ t ∈ targets, ∀ what, verdict t.table = .refuse what →
    after.store.table t.table = before.store.table t.table
  purged : ∀ t ∈ targets, (∀ what, verdict t.table ≠ .refuse what) → after.store.table t.table =
    (before.store.table t.table).deleteExpired (TimeBucket.cutoff now retention t.granularity).value
  deleted : after.deleted = before.deleted + SweepTarget.sum (SweepTarget.gone before.store after.store) targets
  counted : ∀ t ∈ targets, after.counters.get (.rowsExpired t.table) =
    before.counters.get (.rowsExpired t.table) + t.gone before.store after.store
  uncounted : ∀ s, (∀ t ∈ targets, s ≠ .rowsExpired t.table) → after.counters.get s = before.counters.get s

namespace Swept
variable {now : Instant} {retention : Duration} {targets : List SweepTarget} {verdict : String → Verdict}
  {before after mid : SweepResult} {t : SweepTarget} {v : Verdict}

theorem table_of_ne (h : Swept now retention targets verdict before after) {name : String}
    (hname : ∀ t ∈ targets, t.table ≠ name) : after.store.table name = before.store.table name :=
  congrArg (fun got => got.getD Dict.empty) (h.others name hname)

theorem nil (before : SweepResult) : Swept now retention [] verdict before before where
  plan := rfl
  verdicts _ ht := absurd ht List.not_mem_nil
  history := rfl
  names := rfl
  others _ _ := rfl
  refused _ ht := absurd ht List.not_mem_nil
  purged _ ht := absurd ht List.not_mem_nil
  deleted := rfl
  counted _ ht := absurd ht List.not_mem_nil
  uncounted _ _ := rfl

theorem one (before : SweepResult) (t : SweepTarget) :
    Swept now retention [t] (fun _ => before.store.plan before.store.history (.delete t.table)) before
      (sweepTable now retention before t) := by
  have hverdicts : ∀ x ∈ [t], ∃ past, before.store.plan before.store.history (.delete t.table) =
      before.store.plan past (.delete x.table) := by
    intro x hx
    rw [List.mem_singleton.1 hx]
    exact ⟨_, rfl⟩
  cases hverdict : before.store.plan before.store.history (.delete t.table) with
  | refuse what =>
    -- nothing but the record of calls changes
    have hstep : sweepTable now retention before t =
        { before with store := { before.store with history := ⟨.delete t.table, .refuse what⟩ :: before.store.history } } := by
      simp only [sweepTable, Store.deleteExpired, Store.meet, hverdict]
    have hnone : ∀ x : SweepTarget, x.gone before.store before.store = 0 := fun x => Nat.sub_self _
    rw [hverdict] at hverdicts
    rw [hstep]
    refine ⟨rfl, hverdicts, rfl, rfl, fun _ _ => rfl, fun _ _ _ _ => rfl, fun _ _ hno => absurd rfl (hno what), ?_,
      fun x _ => ?_, fun _ _ => rfl⟩
    · show before.deleted = before.deleted + (t.gone before.store before.store + 0)
      rw [hnone, Nat.add_zero]
    · show _ = _ + x.gone before.store before.store
      rw [hnone, Nat.add_zero]
  | answer | findNothing | giveZero =>
    let purge := before.store.contents.deleteExpired t.table (TimeBucket.cutoff now retention t.granularity).value
    have hstep : sweepTable now retention before t =
        { deleted := before.deleted + purge.2
          store := { before.store with
            contents := purge.1
            history := ⟨.delete t.table, before.store.plan before.store.history (.delete t.table)⟩ :: before.store.history }
          counters := before.counters.add (.rowsExpired t.table) purge.2 } := by
      simp only [sweepTable, Store.deleteExpired, Store.meet, hverdict]
      rfl
    have hpurged : purge.2 = t.gone before.store { before.store with contents := purge.1 } :=
      Contents.deleted_deleteExpired ..
    rw [hverdict] at hverdicts
    rw [hstep]
    refine ⟨rfl, hverdicts, by rw [hverdict]; rfl, Contents.names_deleteExpired .., fun name hname => ?_,
      fun _ _ what hwhat => (by cases hwhat), fun x hx _ => ?_, congrArg (before.deleted + ·) hpurged, fun x hx => ?_,
      fun s hs => ?_⟩
    · exact Contents.get?_deleteExpired_of_ne _ _ _ (Ne.symm (hname t (List.mem_singleton_self t)))
    · rw [List.mem_singleton.1 hx]
      exact Contents.table_deleteExpired ..
    · rw [List.mem_singleton.1 hx, Counters.get_add, if_pos rfl]
      exact congrArg (before.counters.get _ + ·) hpurged
    · rw [Counters.get_add, if_neg (hs t (List.mem_singleton_self t)), Nat.add_zero]

theorem cons (hone : Swept now retention [t] (fun _ => v) before mid)
    (hrest : Swept now retention targets verdict mid after) (hfresh : ∀ x ∈ targets, x.table ≠ t.table) :
    Swept now retention (t :: targets) (fun name => if name = t.table then v else verdict name) before after := by
  have hmem := List.mem_singleton_self t
  -- no table is swept twice, so neither part of the sweep sees what the other one changes
  have hown : after.store.table t.table = mid.store.table t.table := hrest.table_of_ne hfresh
  have hothers : ∀ x ∈ targets, mid.store.table x.table = before.store.table x.table := fun x hx =>
    hone.table_of_ne fun y hy => (List.mem_singleton.1 hy) ▸ (hfresh x hx).symm
  have hverdict : ∀ x ∈ targets, (if x.table = t.table then v else verdict x.table) = verdict x.table := fun x hx =>
    if_neg (hfresh x hx)
  have hgone : t.gone before.store after.store = t.gone before.store mid.store := by
    unfold SweepTarget.gone
    rw [hown]
  have hgones : ∀ x ∈ targets, x.gone mid.store after.store = x.gone before.store after.store := by
    intro x hx
    unfold SweepTarget.gone
    rw [hothers x hx]
  constructor
  case plan => exact hrest.plan.trans hone.plan
  case verdicts =>
    intro x hx
    rcases List.mem_cons.1 hx with rfl | hx
    · rw [if_pos rfl]
      exact hone.verdicts x hmem
    · rw [hverdict x hx, ← hone.plan]
      exact hrest.verdicts x hx
  case history =>
    have hrecords : ((t :: targets).map fun x =>
        (⟨.delete x.table, if x.table = t.table then v else verdict x.table⟩ : CallRecord)) =
        ⟨.delete t.table, v⟩ :: targets.map fun x => ⟨.delete x.table, verdict x.table⟩ := by
      rw [List.map_cons, if_pos rfl]
      exact congrArg _ (List.map_congr_left fun x hx => by rw [hverdict x hx])
    rw [hrest.history, hone.history, hrecords, List.reverse_cons, List.append_assoc]
    rfl
  case names => exact hrest.names.trans hone.names
  case others =>
    intro name hname
    rw [hrest.others name fun x hx => hname x (List.mem_cons_of_mem t hx)]
    exact hone.others name fun x hx => (List.mem_singleton.1 hx) ▸ hname t (List.mem_cons_self ..)
  case refused =>
    intro x hx what hwhat
    rcases List.mem_cons.1 hx with rfl | hx
    · rw [if_pos rfl] at hwhat
      rw [hown, hone.refused x hmem what hwhat]
    · rw [hverdict x hx] at hwhat
      rw [hrest.refused x hx what hwhat, hothers x hx]
  case purged =>
    intro x hx hanswered
    rcases List.mem_cons.1 hx with rfl | hx
    · simp only [if_true] at hanswered
      rw [hown, hone.purged x hmem hanswered]
    · simp only [hverdict x hx] at hanswered
      rw [hrest.purged x hx hanswered, hothers x hx]
  case deleted =>
    rw [hrest.deleted, hone.deleted, SweepTarget.sum_congr hgones, SweepTarget.sum_cons, SweepTarget.sum_cons, hgone]
    exact Nat.add_assoc ..
  case counted =>
    intro x hx
    rcases List.mem_cons.1 hx with rfl | hx
    · have hskip := hrest.uncounted (.rowsExpired x.table) fun y hy heq =>
        hfresh y hy (Series.rowsExpired.inj heq).symm
      rw [hskip, hone.counted x hmem, hgone]
    · have hskip := hone.uncounted (.rowsExpired x.table) fun y hy heq => by
        rw [List.mem_singleton.1 hy] at heq
        exact hfresh x hx (Series.rowsExpired.inj heq)
      rw [hrest.counted x hx, hskip, hgones x hx]
  case uncounted =>
    intro s hs
    rw [hrest.uncounted s fun x hx => hs x (List.mem_cons_of_mem t hx)]
    exact hone.uncounted s fun x hx => (List.mem_singleton.1 hx) ▸ hs t (List.mem_cons_self ..)

end Swept

theorem exists_swept (now : Instant) (retention : Duration) {targets : List SweepTarget}
    (h : (targets.map SweepTarget.table).Nodup) (before : SweepResult) :
    ∃ verdict, Swept now retention targets verdict before (targets.foldl (sweepTable now retention) before) := by
  induction targets generalizing before with
  | nil => exact ⟨fun _ => .answer, .nil before⟩
  | cons t targets ih =>
    rw [List.map_cons, List.nodup_cons] at h
    obtain ⟨verdict, hrest⟩ := ih h.2 (sweepTable now retention before t)
    exact ⟨_, .cons (.one before t) hrest fun x hx heq => h.1 (heq ▸ List.mem_map_of_mem hx)⟩

/-! ### The tables of a collector -/

namespace Collector

/-- A sweep deletes the rows that are outdated for their table, from each table whose deletion is
answered, and tells how many. Among buckets with the digits of their table these are the late ones. -/
theorem sweep_by_table {now : Instant} (hnow : now.InEra) (retention : Duration) (store : Store) (counters : Counters) :
    let r := sweep now retention sweepTargets store counters
    (∃ verdict : String → Verdict,
      (∀ t ∈ sweepTargets, ∃ past, verdict t.table = store.plan past (.delete t.table)) ∧
      r.store.history = (sweepTargets.map fun t => ⟨.delete t.table, verdict t.table⟩).reverse ++ store.history ∧
      ∀ t ∈ sweepTargets, ∀ id row, (r.store.table t.table).get? id = some row ↔
        (store.table t.table).get? id = some row ∧
          ((∃ what, verdict t.table = .refuse what) ∨ t.outdates now retention row = false)) ∧
    (∀ name, (∀ t ∈ sweepTargets, t.table ≠ name) →
      r.store.contents.tables.get? name = store.contents.tables.get? name) ∧
    r.store.contents.names = store.contents.names ∧
    r.deleted = SweepTarget.sum (SweepTarget.gone store r.store) sweepTargets ∧
    ∀ t ∈ sweepTargets, ∀ row b, rowBucket? row = some b →
      (b.toNat < t.granularity.least → t.outdates now retention row = true) ∧
      ((⟨b⟩ : TimeBucket).granularity? = some t.granularity →
        t.outdates now retention row = (⟨b⟩ : TimeBucket).isExpired now retention) ∧
      (t.granularity.least * 10 ≤ b.toNat → t.outdates now retention row = false) := by
  intro r
  have hnodup : (sweepTargets.map SweepTarget.table).Nodup := by decide
  obtain ⟨verdict, h⟩ := exists_swept now retention hnodup ⟨0, store, counters⟩
  have hdeleted := h.deleted
  rw [Nat.zero_add] at hdeleted
  refine ⟨⟨verdict, h.verdicts, h.history, fun t ht id row => ?_⟩, h.others, h.names, hdeleted, fun t _ row b hb => ?_⟩
  · by_cases hrefused : ∃ what, verdict t.table = .refuse what
    · obtain ⟨what, hwhat⟩ := hrefused
      rw [show r.store.table t.table = store.table t.table from h.refused t ht what hwhat]
      exact ⟨fun hget => ⟨hget, Or.inl ⟨what, hwhat⟩⟩, fun hget => hget.1⟩
    · rw [show r.store.table t.table = _ from h.purged t ht fun what hwhat => hrefused ⟨what, hwhat⟩,
        Table.get?_deleteExpired, Option.filter_eq_some_iff, SweepTarget.rowExpired_cutoff hnow, Bool.not_eq_true',
        or_iff_right hrefused]
  · have hdigits := TimeBucket.granularity?_eq_some_iff ⟨b⟩ t.granularity
    unfold SweepTarget.outdates
    rw [hb]
    refine ⟨fun hshort => ?_, fun hg => ?_, fun hlong => ?_⟩
    · simp only [hshort, decide_true, Bool.true_or]
    · have hlow : ¬ b.toNat < t.granularity.least := Nat.not_lt.2 (hdigits.1 hg).1
      simp only [hlow, decide_false, hg, decide_true, Bool.false_or, Bool.true_and]
    · have hlow : ¬ b.toNat < t.granularity.least := by omega
      have hg : ¬ (⟨b⟩ : TimeBucket).granularity? = some t.granularity := fun hg =>
        Nat.not_lt.2 hlong (hdigits.1 hg).2
      simp only [hlow, hg, decide_false, Bool.false_and, Bool.or_false]

/-- Statistics of a time that no bucket can tell, and a heartbeat in the bucket of a minute. -/
def untold : ServiceStats := .ofCall 1 1 ⟨0⟩ 100 false "trace"

def minuteBeat : Heartbeat := ⟨1, 1, ⟨201801010000⟩, 1514764800000⟩

/-- What is stored of them at the beginning of 2018. -/
def oddRows : Store :=
  let now : Instant := ⟨1514764800000000000⟩
  let stats := ((Ledger.create ⟨2⟩ (.ofSeconds 600) 2000).acceptBatch [⟨"a", untold⟩] now).2.flush .fresh now
  (((Ledger.create ⟨3⟩ (.ofSeconds 600) 2000).acceptBatch [⟨"a", minuteBeat⟩] now).2.flush stats.store now).store

/-- The eighth of January, 2018. -/
def weekLater : Instant := ⟨1515369600000000000⟩

theorem sweep_by_table_oddRows :
    weekLater.InEra ∧ (sweep weekLater (.ofSeconds 172800) sweepTargets oddRows .fresh).deleted = 1 ∧
      SweepTarget.sum (SweepTarget.gone oddRows (sweep weekLater (.ofSeconds 172800) sweepTargets oddRows .fresh).store)
        sweepTargets = 1 := by
  have hera : weekLater.InEra := ⟨by decide, by decide⟩
  have hdeleted : (sweep weekLater (.ofSeconds 172800) sweepTargets oddRows .fresh).deleted = 1 := by decide +kernel
  exact ⟨hera, hdeleted, (sweep_by_table hera (.ofSeconds 172800) oddRows .fresh).2.2.2.1 ▸ hdeleted⟩

/-- A sweep deletes the one although it never is late, and leaves the other although it is. -/
theorem sweep_despite_lateness :
    let after := (sweep weekLater (.ofSeconds 172800) sweepTargets oddRows .fresh).store
    untold.bucket.isExpired weekLater (.ofSeconds 172800) = false ∧
      ((oddRows.table ServiceStats.tag).get? untold.id).isSome = true ∧
      ((after.table ServiceStats.tag).get? untold.id).isSome = false ∧
      minuteBeat.bucket.isExpired weekLater (.ofSeconds 172800) = true ∧
      ((after.table Heartbeat.tag).get? minuteBeat.id).isSome = true := by
  intro after
  exact ⟨by decide +kernel, by decide +kernel, by decide +kernel, by decide +kernel, by decide +kernel⟩

end Collector
end TraceRollup
