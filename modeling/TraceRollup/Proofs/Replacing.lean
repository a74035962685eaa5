import Mathlib.Data.List.MinMax
import Mathlib.Data.Prod.Lex
import Mathlib.Data.String.Basic
import TraceRollup.Proofs.Aggregation
import TraceRollup.Proofs.AnyOrder
import TraceRollup.Proofs.Writes

/-!
# Which of the replacing records is kept

Merging alarms, or heartbeats, of one key keeps the first of those that come latest. Grouping
never matters, and the order matters exactly when the latest differ: for heartbeats they never do,
but alarms of one time and one text may tell different values (`merged_replacing`,
`Alarm.merge_of_tie`).
-/

namespace TraceRollup

/-! ### Merges that keep the greatest -/

section
variable {α ρ : Type} [LinearOrder ρ] {rank : α → ρ} {xs ys : List α} {m n : α}

theorem argmax_append (rank : α → ρ) (xs ys : List α) :
    (xs ++ ys).argmax rank = (xs.argmax rank).elim (ys.argmax rank) fun a =>
      (ys.argmax rank).elim (some a) fun b => if rank a < rank b then some b else some a := by
  induction xs with
  | nil => rfl
  | cons x rest ih =>
    rw [List.cons_append, List.argmax_cons, List.argmax_cons, ih]
    cases hrest : rest.argmax rank with
    | none => cases ys.argmax rank <;> rfl
    | some a =>
      cases hys : ys.argmax rank with
      | none =>
        by_cases hxa : rank x < rank a
        · simp [hxa]
        · simp [hxa]
      | some b =>
        by_cases hxa : rank x < rank a
        · by_cases hab : rank a < rank b
          · simp [hxa, hab, hxa.trans hab]
          · simp [hxa, hab]
        · by_cases hab : rank a < rank b
          · simp [hxa, hab]
          · have hxb : ¬ rank x < rank b := fun h => hab ((not_lt.1 hxa).trans_lt h)
            simp [hxa, hab, hxb]

/-- One of some records that none of them outranks. -/
def IsTop (rank : α → ρ) (xs : List α) (m : α) : Prop := m ∈ xs ∧ ∀ a ∈ xs, rank a ≤ rank m

theorem IsTop.of_argmax (h : xs.argmax rank = some m) : IsTop rank xs m :=
  ⟨List.argmax_mem h, fun _ ha => List.le_of_mem_argmax ha h⟩

theorem IsTop.perm (h : IsTop rank xs m) (hp : xs.Perm ys) : IsTop rank ys m :=
  ⟨hp.mem_iff.1 h.1, fun a ha => h.2 a (hp.mem_iff.2 ha)⟩

theorem IsTop.rank_eq (h : IsTop rank xs m) (h' : IsTop rank xs n) : rank m = rank n :=
  le_antisymm (h'.2 m h.1) (h.2 n h'.1)

theorem IsTop.argmax_cons (h : IsTop rank (m :: xs) m) : (m :: xs).argmax rank = some m := by
  rw [List.argmax_cons]
  cases hrest : xs.argmax rank with
  | none => rfl
  | some a =>
    have hle := h.2 a (List.mem_cons_of_mem m (List.argmax_mem hrest))
    exact if_neg hle.not_gt

variable [Rollup α]

/-- Records of which a merge keeps one: the second if it outranks the first. -/
def KeepsTop (rank : α → ρ) (xs : List α) : Prop :=
  ∀ a ∈ xs, ∀ b ∈ xs, Rollup.merge a b = if rank a < rank b then b else a

namespace MergeTree

theorem argmax_leaves (t : MergeTree α) (h : KeepsTop rank t.leaves) : t.leaves.argmax rank = some t.merged := by
  induction t with
  | leaf a => rfl
  | node left right ihl ihr =>
    have hl := ihl fun a ha b hb => h a (List.mem_append_left _ ha) b (List.mem_append_left _ hb)
    have hr := ihr fun a ha b hb => h a (List.mem_append_right _ ha) b (List.mem_append_right _ hb)
    have hmerge := h left.merged (List.mem_append_left _ (List.argmax_mem hl)) right.merged
      (List.mem_append_right _ (List.argmax_mem hr))
    rw [leaves, argmax_append, hl, hr, merged, hmerge]
    exact (apply_ite some _ _ _).symm

theorem isTop_merged (t : MergeTree α) (h : KeepsTop rank xs) (hp : t.leaves.Perm xs) : IsTop rank xs t.merged := by
  have hleaves : KeepsTop rank t.leaves := fun a ha b hb => h a (hp.mem_iff.1 ha) b (hp.mem_iff.1 hb)
  exact (IsTop.of_argmax (t.argmax_leaves hleaves)).perm hp

/-- How the records are grouped does not matter. -/
theorem merged_of_leaves_eq {t u : MergeTree α} (h : KeepsTop rank t.leaves) (heq : t.leaves = u.leaves) :
    t.merged = u.merged := by
  have ht := t.argmax_leaves h
  have hu := u.argmax_leaves (heq ▸ h)
  rw [heq, hu] at ht
  exact (Option.some.inj ht).symm

end MergeTree

/-- Merging some records, in some order and grouping, can come to this one. -/
def Yields (xs : List α) (m : α) : Prop := ∃ t : MergeTree α, t.leaves.Perm xs ∧ t.merged = m

theorem exists_yields (hne : xs ≠ []) : ∃ m, Yields xs m := by
  obtain ⟨t, ht⟩ := MergeTree.exists_leaves_eq hne
  exact ⟨t.merged, t, ht ▸ List.Perm.refl _, rfl⟩

theorem yields_iff (h : KeepsTop rank xs) : Yields xs m ↔ IsTop rank xs m := by
  constructor
  · rintro ⟨t, ht, rfl⟩
    exact t.isTop_merged h ht
  · intro hm
    -- a record that none outranks is kept when it is merged first
    obtain ⟨before, behind, rfl⟩ := List.append_of_mem hm.1
    have hp : (m :: (before ++ behind)).Perm (before ++ m :: behind) := List.perm_middle.symm
    obtain ⟨t, ht⟩ := MergeTree.exists_leaves_eq (List.cons_ne_nil m (before ++ behind))
    have hleaves : KeepsTop rank t.leaves := by
      intro a ha b hb
      rw [ht] at ha hb
      exact h a (hp.mem_iff.1 ha) b (hp.mem_iff.1 hb)
    have hfirst := t.argmax_leaves hleaves
    rw [ht, (hm.perm hp.symm).argmax_cons] at hfirst
    exact ⟨t, ht ▸ hp, (Option.some.inj hfirst).symm⟩

theorem existsUnique_yields_iff (hne : xs ≠ []) (h : KeepsTop rank xs) :
    (∃! m, Yields xs m) ↔ ∀ a b, IsTop rank xs a → IsTop rank xs b → a = b := by
  constructor
  · rintro ⟨m, -, hunique⟩ a b ha hb
    rw [hunique a ((yields_iff h).2 ha), hunique b ((yields_iff h).2 hb)]
  · intro hsame
    obtain ⟨m, hm⟩ := exists_yields hne
    exact ⟨m, hm, fun n hn => hsame n m ((yields_iff h).1 hn) ((yields_iff h).1 hm)⟩

end

/-! ### Replacing records in the stages -/

section
variable {α : Type} [Rollup α] {xs : List α}

theorem MergeTree.exists_foldl (t : MergeTree α) (rest : List α) :
    ∃ u : MergeTree α, u.leaves = t.leaves ++ rest ∧ rest.foldl Rollup.merge t.merged = u.merged := by
  induction rest generalizing t with
  | nil => exact ⟨t, (List.append_nil _).symm, rfl⟩
  | cons b rest ih =>
    obtain ⟨u, hu, hmerged⟩ := ih (.node t (.leaf b))
    exact ⟨u, hu.trans (List.append_assoc t.leaves [b] rest), hmerged⟩

theorem MergeTree.exists_mergeAll (h : xs ≠ []) :
    ∃ t : MergeTree α, t.leaves = xs ∧ Rollup.mergeAll xs = some t.merged := by
  cases xs with
  | nil => exact absurd rfl h
  | cons a rest =>
    obtain ⟨u, hu, hmerged⟩ := MergeTree.exists_foldl (.leaf a) rest
    exact ⟨u, hu, congrArg some hmerged⟩

/-- The totals of a key after records of it, none of which is late. -/
theorem Accumulator.total_acceptAll (now : Instant) {id : String} {batch : List (Snapshot α)}
    (hid : ∀ s ∈ batch, Rollup.id s.record = id) (a : Accumulator α) (htimely : ∀ s ∈ batch, a.isLate now s.record = false) :
    (acceptAll now a batch).2.totals.get? id =
      Rollup.mergeAll ((a.totals.get? id).toList ++ batch.map Snapshot.record) := by
  induction batch generalizing a with
  | nil =>
    show a.totals.get? id = _
    cases a.totals.get? id <;> rfl
  | cons s rest ih =>
    have hs := hid s (List.mem_cons_self ..)
    have haccept := htimely s (List.mem_cons_self ..)
    have hnext : (a.accept s.record now).2.totals.get? id =
        Rollup.mergeAll ((a.totals.get? id).toList ++ [s.record]) := by
      rw [accept, if_neg (by rw [haccept]; exact Bool.false_ne_true)]
      show (a.totals.set (Rollup.id s.record) _).get? id = _
      rw [hs, Dict.get?_set_self]
      cases a.totals.get? id <;> rfl
    have hwindow : (a.accept s.record now).2.window = a.window := by
      rw [accept]
      split <;> rfl
    have hlater : ∀ x ∈ rest, (a.accept s.record now).2.isLate now x.record = false := by
      intro x hx
      rw [isLate, hwindow]
      exact htimely x (List.mem_cons_of_mem _ hx)
    have hstep : (acceptAll now a (s :: rest)).2 = (acceptAll now (a.accept s.record now).2 rest).2 := by
      rw [acceptAll]
      split <;> rfl
    rw [hstep, ih (fun x hx => hid x (List.mem_cons_of_mem _ hx)) _ hlater, hnext]
    cases a.totals.get? id <;> rfl

end

/-- What the stages keep for a key is merged from what came for it. -/
theorem RecordKind.yields_kept (k : RecordKind) (hmode : Rollup.mode k.Carrier = .replace) :
    (∀ (a : Accumulator k.Carrier) (now : Instant) (id : String) (batch : List (Snapshot k.Carrier)), batch ≠ [] →
      (∀ s ∈ batch, Rollup.id s.record = id ∧ a.isLate now s.record = false) →
      ∃ total, (a.acceptAll now batch).2.totals.get? id = some total ∧
        Yields ((a.totals.get? id).toList ++ batch.map Snapshot.record) total) ∧
    ∀ (baselines : Dict OriginKey k.Carrier) (entries : List (Ledger.Entry k.Carrier)), entries ≠ [] →
      ∃ row, Ledger.combine? baselines entries = some (some row) ∧ Yields (entries.map Prod.snd) row := by
  constructor
  · intro a now id batch hbatch hall
    have hne : (a.totals.get? id).toList ++ batch.map Snapshot.record ≠ [] :=
      List.append_ne_nil_of_right_ne_nil _ (mt List.map_eq_nil_iff.1 hbatch)
    obtain ⟨t, ht, hmerged⟩ := MergeTree.exists_mergeAll hne
    have htotal := a.total_acceptAll now (fun s hs => (hall s hs).1) fun s hs => (hall s hs).2
    exact ⟨t.merged, htotal.trans hmerged, t, ht ▸ List.Perm.refl _, rfl⟩
  · intro baselines entries hentries
    have hne : entries.map Prod.snd ≠ [] := mt List.map_eq_nil_iff.1 hentries
    obtain ⟨t, ht, hmerged⟩ := MergeTree.exists_mergeAll hne
    refine ⟨t.merged, ?_, t, ht ▸ List.Perm.refl _, rfl⟩
    rw [Ledger.combine?_replace hmode, hmerged]

/-! ### Alarms -/

namespace Alarm
variable {id : String} {as : List Alarm} {a b : Alarm}

def rank (a : Alarm) : ℤ ×ₗ String := toLex (a.lastTime.toInt, a.content)

theorem yieldsTo_iff : a.yieldsTo b = true ↔ a.rank < b.rank := by
  simp only [yieldsTo, rank, Prod.Lex.toLex_lt_toLex, Bool.or_eq_true, Bool.and_eq_true, decide_eq_true_eq,
    Int64.lt_iff_toInt_lt, Int64.toInt_inj]

/-- One of some alarms that yields to none of them. -/
def IsLatest (as : List Alarm) (a : Alarm) : Prop := a ∈ as ∧ ∀ b ∈ as, a.yieldsTo b = false

theorem isLatest_iff : IsLatest as a ↔ IsTop rank as a := by
  refine and_congr_right fun _ => forall₂_congr fun b _ => ?_
  rw [← not_lt, ← yieldsTo_iff, Bool.not_eq_true]

theorem eq_of_value (hid : a.id = b.id) (hrank : a.rank = b.rank) (hvalue : a.value = b.value) : a = b := by
  obtain ⟨hbucket, hscope, hsource, hkind⟩ := subject_of_id hid
  have hpair := toLex.injective hrank
  rw [Prod.mk.injEq, Int64.toInt_inj] at hpair
  obtain ⟨htime, hcontent⟩ := hpair
  cases a
  cases b
  simp only at hbucket hscope hsource hkind htime hcontent hvalue
  simp only [hbucket, hscope, hsource, hkind, htime, hcontent, hvalue]

theorem keepsTop (h : ∀ a ∈ as, a.id = id) : KeepsTop rank as := by
  intro a ha b hb
  have hsubject := subject_of_id ((h a ha).trans (h b hb).symm)
  show a.merge b = _
  by_cases hlt : a.rank < b.rank
  · rw [merge, if_pos (yieldsTo_iff.2 hlt), if_pos hlt]
    cases b
    simp only at hsubject
    simp only [hsubject]
  · rw [merge, if_neg (mt yieldsTo_iff.1 hlt), if_neg hlt]

theorem existsUnique_yields_iff (hne : as ≠ []) (h : ∀ a ∈ as, a.id = id) :
    (∃! a, Yields as a) ↔ ∀ a b, IsLatest as a → IsLatest as b → a.value = b.value := by
  rw [TraceRollup.existsUnique_yields_iff hne (keepsTop h)]
  simp only [isLatest_iff]
  refine forall₂_congr fun a b => forall₂_congr fun ha hb => ?_
  constructor
  · intro heq
    rw [heq]
  · exact eq_of_value ((h a ha.1).trans (h b hb.1).symm) (ha.rank_eq hb)

end Alarm

/-! ### Heartbeats -/

namespace Heartbeat
variable {id : String} {application : Int32} {hs : List Heartbeat} {a b : Heartbeat}

theorem eq_of_time (hid : a.id = b.id) (happlication : a.application = b.application) (htime : a.time.toInt = b.time.toInt) :
    a = b := by
  obtain ⟨hbucket, hinstance⟩ := subject_of_id hid
  rw [Int64.toInt_inj] at htime
  cases a
  cases b
  simp only at hbucket hinstance happlication htime
  simp only [hbucket, hinstance, happlication, htime]

theorem keepsTop (h : ∀ a ∈ hs, a.id = id ∧ a.application = application) : KeepsTop (fun a => a.time.toInt) hs := by
  intro a ha b hb
  obtain ⟨haid, haapp⟩ := h a ha
  obtain ⟨hbid, hbapp⟩ := h b hb
  have hmax : (Rollup.merge a b).time.toInt = max a.time.toInt b.time.toInt := SlowTrace.toInt_max _ _
  show _ = if a.time.toInt < b.time.toInt then b else a
  split
  · exact eq_of_time (haid.trans hbid.symm) (haapp.trans hbapp.symm) (by omega)
  · exact eq_of_time rfl rfl (by omega)

theorem exists_yields_iff (hne : hs ≠ []) (h : ∀ a ∈ hs, a.id = id ∧ a.application = application) :
    ∃ a ∈ hs, (∀ b ∈ hs, b.time ≤ a.time) ∧ ∀ b, Yields hs b ↔ b = a := by
  have hkeeps := keepsTop h
  obtain ⟨a, ha⟩ := exists_yields hne
  have htop := (yields_iff hkeeps).1 ha
  refine ⟨a, htop.1, fun b hb => Int64.le_iff_toInt_le.2 (htop.2 b hb), fun b => ⟨fun hb => ?_, fun heq => heq ▸ ha⟩⟩
  have hother := (yields_iff hkeeps).1 hb
  obtain ⟨haid, haapp⟩ := h a htop.1
  obtain ⟨hbid, hbapp⟩ := h b hother.1
  exact eq_of_time (hbid.trans haid.symm) (hbapp.trans haapp.symm) (hother.rank_eq htop)

end Heartbeat

/-! ### Both -/

/-- Merging alarms of a key comes to one of the latest, whichever comes first, so it is order-free
exactly when these tell one value; merging heartbeats of a key comes to the latest. -/
theorem merged_replacing (id : String) (application : Int32) :
    (∀ as : List Alarm, as ≠ [] → (∀ a ∈ as, a.id = id) →
      (∀ t u : MergeTree Alarm, t.leaves = as → u.leaves = as → t.merged = u.merged) ∧
      (∀ a, Yields as a ↔ Alarm.IsLatest as a) ∧
      ((∃! a, Yields as a) ↔ ∀ a b, Alarm.IsLatest as a → Alarm.IsLatest as b → a.value = b.value)) ∧
    (∀ hs : List Heartbeat, hs ≠ [] → (∀ h ∈ hs, h.id = id ∧ h.application = application) →
      ∃ h ∈ hs, (∀ x ∈ hs, x.time ≤ h.time) ∧ ∀ x, Yields hs x ↔ x = h) ∧
    ∀ k : RecordKind, Rollup.mode k.Carrier = .replace →
      (∀ (a : Accumulator k.Carrier) (now : Instant) (batch : List (Snapshot k.Carrier)), batch ≠ [] →
        (∀ s ∈ batch, Rollup.id s.record = id ∧ a.isLate now s.record = false) →
        ∃ total, (a.acceptAll now batch).2.totals.get? id = some total ∧
          Yields ((a.totals.get? id).toList ++ batch.map Snapshot.record) total) ∧
      ∀ (baselines : Dict OriginKey k.Carrier) (entries : List (Ledger.Entry k.Carrier)), entries ≠ [] →
        ∃ row, Ledger.combine? baselines entries = some (some row) ∧ Yields (entries.map Prod.snd) row := by
  refine ⟨fun as hne hid => ⟨fun t u ht hu => ?_, fun a => ?_, Alarm.existsUnique_yields_iff hne hid⟩,
    fun hs hne hall => Heartbeat.exists_yields_iff hne hall, fun k hmode => ?_⟩
  · exact MergeTree.merged_of_leaves_eq (ht ▸ Alarm.keepsTop hid) (ht.trans hu.symm)
  · rw [Alarm.isLatest_iff]
    exact yields_iff (Alarm.keepsTop hid)
  · obtain ⟨hkept, hcombined⟩ := k.yields_kept hmode
    exact ⟨fun a now batch => hkept a now id batch, hcombined⟩

namespace Alarm

/-- The alarms for a service with half of a thousand failed calls, or some more. -/
def half : Alarm :=
  ⟨.service, 9, .errorRate, ⟨201801011234⟩, 10, ⟨0x3fe0000000000000⟩, "service 9 error rate 0.50 reached threshold 0.50"⟩

def overHalf : Alarm := { half with value := ⟨0x3fe0189374bc6a7f⟩ }

/-- An alarm of the same time with a greater text. -/
def worse : Alarm :=
  { half with value := ⟨0x3fe8000000000000⟩, content := "service 9 error rate 0.75 reached threshold 0.50" }

end Alarm

theorem merged_replacing_threeAlarms :
    let beat (time : Int64) : Heartbeat := ⟨1, 1, ⟨20180101⟩, time⟩
    (∀ a ∈ [Alarm.half, Alarm.worse, Alarm.overHalf], a.id = "201801011234_service_9_error_rate") ∧
      (∀ a, Yields [Alarm.half, Alarm.worse, Alarm.overHalf] a ↔ a = Alarm.worse) ∧
      (∀ h ∈ [beat 50, beat 100, beat 70], h.id = "20180101_1" ∧ h.application = 1) ∧
      (∀ x, Yields [beat 50, beat 100, beat 70] x ↔ x = beat 100) ∧
      ∃ row, Ledger.combine? Dict.empty [(("a", "20180101_1"), beat 50), (("b", "20180101_1"), beat 100)] = some (some row) ∧
        Yields [beat 50, beat 100] row := by
  intro beat
  have halarms : ∀ a ∈ [Alarm.half, Alarm.worse, Alarm.overHalf], a.id = "201801011234_service_9_error_rate" := by
    decide +kernel
  have hbeats : ∀ h ∈ [beat 50, beat 100, beat 70], h.id = "20180101_1" ∧ h.application = 1 := by decide +kernel
  obtain ⟨hfirst, -, hkept⟩ := merged_replacing "201801011234_service_9_error_rate" 1
  obtain ⟨-, hyields, -⟩ := hfirst _ (List.cons_ne_nil _ _) halarms
  obtain ⟨-, hsame, -⟩ := merged_replacing "20180101_1" 1
  obtain ⟨h, hmem, hle, hlatest⟩ := hsame _ (List.cons_ne_nil _ _) hbeats
  refine ⟨halarms, fun a => ?_, hbeats, fun x => ?_, (hkept .heartbeat rfl).2 _ _ (List.cons_ne_nil _ _)⟩
  · have hworse : ∀ a ∈ [Alarm.half, Alarm.worse, Alarm.overHalf],
        (∀ b ∈ [Alarm.half, Alarm.worse, Alarm.overHalf], a.yieldsTo b = false) ↔ a = Alarm.worse := by decide +kernel
    rw [hyields]
    constructor
    · rintro ⟨hmem, hno⟩
      exact (hworse a hmem).1 hno
    · rintro rfl
      have hmem : Alarm.worse ∈ [Alarm.half, Alarm.worse, Alarm.overHalf] := by simp
      exact ⟨hmem, (hworse _ hmem).2 rfl⟩
  · have hlast : ∀ h ∈ [beat 50, beat 100, beat 70], beat 100 = h ∨ ¬ (beat 100).time ≤ h.time := by decide +kernel
    rw [hlatest]
    rcases hlast h hmem with heq | hgt
    · rw [heq]
    · exact absurd (hle (beat 100) (by simp)) hgt

/-- Two alarms that the rules raise at one time with one text, but with different values. -/
theorem Alarm.merge_of_tie :
    let rules : AlarmRules := ⟨1, ⟨0x3fe0000000000000⟩, .ofSeconds 60⟩
    rules.evaluate ⟨9, 1, ⟨201801011234⟩, 1000, 500, 5000, 5, 5, []⟩ 10 = some [half] ∧
      rules.evaluate ⟨9, 1, ⟨201801011234⟩, 1000, 503, 5000, 5, 5, []⟩ 10 = some [overHalf] ∧
      half.id = overHalf.id ∧ Rollup.merge half overHalf = half ∧ Rollup.merge overHalf half = overHalf ∧
      half ≠ overHalf := by
  exact ⟨by decide +kernel, by decide +kernel, by decide +kernel, by decide +kernel, by decide +kernel, by decide +kernel⟩

end TraceRollup
