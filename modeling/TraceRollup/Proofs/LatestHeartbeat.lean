import Mathlib.Data.List.DropRight
import TraceRollup.Proofs.FlushOrder

/-!
# The latest heartbeat

Heartbeats that are flushed together are merged, and the latest counts; those of the next flush
take the place of the row, whatever it holds. So where flushes fall does not matter as long as a
flush brings of each id some heartbeat as late as all before (`LedgerRun.Onward`): then the rows
hold the latest heartbeats, and their times never go back (`LedgerRun.latest_stored`). A straggler
from another origin, flushed on its own, takes its row back (`LedgerRun.straggler_flushed`).
-/

namespace TraceRollup

/-! ### Latest heartbeats -/

namespace Heartbeat

/-- A heartbeat as late as all of an id among some, with an application of one of them. -/
structure LatestOf (xs : List Heartbeat) (id : String) (h : Heartbeat) : Prop where
  id_eq : h.id = id
  reached : ∃ x ∈ xs, x.id = id ∧ x.time = h.time
  latest : ∀ x ∈ xs, x.id = id → x.time ≤ h.time
  application : ∃ x ∈ xs, x.id = id ∧ x.application = h.application

namespace LatestOf
variable {xs ys : List Heartbeat} {id : String} {h h' : Heartbeat}

theorem time_le (hx : LatestOf xs id h) (hy : LatestOf ys id h') (hsub : xs ⊆ ys) : h.time ≤ h'.time := by
  obtain ⟨x, hmem, hid, htime⟩ := hx.reached
  exact htime ▸ hy.latest x (hsub hmem) hid

theorem time_eq (hx : LatestOf xs id h) (hy : LatestOf xs id h') : h.time = h'.time :=
  Int64.le_antisymm (hx.time_le hy fun _ hmem => hmem) (hy.time_le hx fun _ hmem => hmem)

theorem eq_of_application (hx : LatestOf xs id h) (hy : LatestOf xs id h')
    (happlication : ∀ x ∈ xs, ∀ y ∈ xs, x.id = id → y.id = id → x.application = y.application) : h = h' := by
  obtain ⟨hbucket, hinstance⟩ := subject_of_id (hx.id_eq.trans hy.id_eq.symm)
  have htime := hx.time_eq hy
  have hsame : h.application = h'.application := by
    obtain ⟨x, hxmem, hxid, hxapp⟩ := hx.application
    obtain ⟨y, hymem, hyid, hyapp⟩ := hy.application
    rw [← hxapp, ← hyapp]
    exact happlication x hxmem y hymem hxid hyid
  cases h
  cases h'
  simp only at hbucket hinstance hsame htime
  simp only [hbucket, hinstance, hsame, htime]

theorem append_right (hx : LatestOf xs id h) (hno : ∀ y ∈ ys, y.id ≠ id) : LatestOf (xs ++ ys) id h where
  id_eq := hx.id_eq
  reached := by
    obtain ⟨x, hmem, hrest⟩ := hx.reached
    exact ⟨x, List.mem_append_left _ hmem, hrest⟩
  latest x hmem hid := by
    rcases List.mem_append.1 hmem with hmem | hmem
    · exact hx.latest x hmem hid
    · exact absurd hid (hno x hmem)
  application := by
    obtain ⟨x, hmem, hrest⟩ := hx.application
    exact ⟨x, List.mem_append_left _ hmem, hrest⟩

theorem merge (hx : LatestOf xs id h) {x : Heartbeat} (hid : x.id = id) : LatestOf (xs ++ [x]) id (h.merge x) := by
  have hmax : (h.merge x).time.toInt = max h.time.toInt x.time.toInt := SlowTrace.toInt_max _ _
  refine ⟨hx.id_eq, ?_, fun y hmem hyid => ?_, ?_⟩
  · by_cases hle : x.time.toInt ≤ h.time.toInt
    · obtain ⟨y, hmem, hyid, htime⟩ := hx.reached
      have hsame : h.time = (h.merge x).time := Int64.toInt_inj.1 (by omega)
      exact ⟨y, List.mem_append_left _ hmem, hyid, htime.trans hsame⟩
    · have hsame : x.time = (h.merge x).time := Int64.toInt_inj.1 (by omega)
      exact ⟨x, List.mem_append_right _ (List.mem_singleton_self x), hid, hsame⟩
  · rw [Int64.le_iff_toInt_le]
    rcases List.mem_append.1 hmem with hmem | hmem
    · have hle := Int64.le_iff_toInt_le.1 (hx.latest y hmem hyid)
      omega
    · rw [List.mem_singleton.1 hmem]
      omega
  · obtain ⟨y, hmem, hrest⟩ := hx.application
    exact ⟨y, List.mem_append_left _ hmem, hrest⟩

/-- More heartbeats, none of them later. -/
theorem of_subset (hx : LatestOf xs id h) (hsub : xs ⊆ ys)
    (hle : ∀ y ∈ ys, y.id = id → ∃ x ∈ xs, x.id = id ∧ y.time ≤ x.time) : LatestOf ys id h where
  id_eq := hx.id_eq
  reached := by
    obtain ⟨x, hmem, hrest⟩ := hx.reached
    exact ⟨x, hsub hmem, hrest⟩
  latest y hmem hid := by
    obtain ⟨x, hxmem, hxid, hxle⟩ := hle y hmem hid
    exact Int64.le_trans hxle (hx.latest x hxmem hxid)
  application := by
    obtain ⟨x, hmem, hrest⟩ := hx.application
    exact ⟨x, hsub hmem, hrest⟩

end LatestOf

theorem latestOf_mergeAll {xs : List Heartbeat} {id : String} (hid : ∀ x ∈ xs, x.id = id) {h : Heartbeat}
    (hm : Rollup.mergeAll xs = some h) : LatestOf xs id h := by
  -- The fold goes on from what the heartbeats seen so far have come to.
  have hfold : ∀ (rest seen : List Heartbeat) (h : Heartbeat), LatestOf seen id h → (∀ x ∈ rest, x.id = id) →
      LatestOf (seen ++ rest) id (rest.foldl Rollup.merge h) := by
    intro rest
    induction rest with
    | nil =>
      intro seen h hseen _
      rwa [List.append_nil]
    | cons x rest ih =>
      intro seen h hseen hrest
      rw [List.foldl_cons, List.append_cons]
      exact ih _ _ (hseen.merge (hrest x (List.mem_cons_self ..))) fun y hy => hrest y (List.mem_cons_of_mem _ hy)
  cases xs with
  | nil => cases hm
  | cons first others =>
    cases hm
    have hfirst := hid first (List.mem_cons_self ..)
    refine hfold others [first] first ?_ fun x hx => hid x (List.mem_cons_of_mem _ hx)
    refine ⟨hfirst, ⟨first, List.mem_singleton_self _, hfirst, rfl⟩, fun x hx _ => ?_,
      ⟨first, List.mem_singleton_self _, hfirst, rfl⟩⟩
    rw [List.mem_singleton.1 hx]
    exact Int64.le_refl _

end Heartbeat

/-! ### What events bring -/

section
variable {α : Type} [Rollup α]

/-- The snapshots that an event brings in time. -/
def LedgerEvent.accepted (window : Duration) : LedgerEvent α → List (Snapshot α)
  | .accept batch now => batch.filter fun s => !(Rollup.bucket s.record).isExpired now window
  | .flush _ | .elsewhere _ => []

def LedgerEvent.isQuiet (e : LedgerEvent α) : Bool := e.flushTime?.isNone

namespace LedgerRun

def accepted (window : Duration) (events : List (LedgerEvent α)) : List (Snapshot α) :=
  events.flatMap (LedgerEvent.accepted window)

/-- What came before the last flush. -/
def settled (window : Duration) (events : List (LedgerEvent α)) : List (Snapshot α) :=
  accepted window (events.rdropWhile LedgerEvent.isQuiet)

/-- What has come since the last flush. -/
def pending (window : Duration) (events : List (LedgerEvent α)) : List (Snapshot α) :=
  accepted window (events.rtakeWhile LedgerEvent.isQuiet)

variable (window : Duration) (past : List (LedgerEvent α))

theorem accepted_append (later : List (LedgerEvent α)) :
    accepted window (past ++ later) = accepted window past ++ accepted window later := List.flatMap_append

theorem accepted_eq : accepted window past = settled window past ++ pending window past := by
  rw [settled, pending, ← accepted_append, List.rdropWhile_append_rtakeWhile]

theorem settled_flush (now : Instant) : settled window (past ++ [.flush now]) = accepted window past := by
  rw [settled, List.rdropWhile_concat_neg _ _ _ Bool.false_ne_true, accepted_append]
  exact List.append_nil _

theorem pending_flush (now : Instant) : pending window (past ++ [.flush now]) = [] := by
  rw [pending, List.rtakeWhile_concat_neg _ _ _ Bool.false_ne_true]
  rfl

theorem settled_quiet {e : LedgerEvent α} (he : e.isQuiet = true) : settled window (past ++ [e]) = settled window past := by
  rw [settled, List.rdropWhile_concat_pos _ _ _ he, settled]

theorem pending_quiet {e : LedgerEvent α} (he : e.isQuiet = true) :
    pending window (past ++ [e]) = pending window past ++ e.accepted window := by
  rw [pending, List.rtakeWhile_concat_pos _ _ _ he, accepted_append, pending]
  exact congrArg _ (List.flatMap_singleton ..)

theorem settled_subset {first second : List (LedgerEvent α)} (h : first <+: second) :
    settled window first ⊆ settled window second := by
  obtain ⟨rest, rfl⟩ := h
  induction rest using List.reverseRecOn with
  | nil =>
    rw [List.append_nil]
    exact List.Subset.refl _
  | append_singleton rest e ih =>
    rw [← List.append_assoc]
    cases e with
    | accept batch now =>
      rw [settled_quiet window (first ++ rest) rfl]
      exact ih
    | elsewhere other =>
      rw [settled_quiet window (first ++ rest) rfl]
      exact ih
    | flush now =>
      rw [settled_flush, accepted_eq]
      exact fun s hs => List.mem_append_left _ (ih hs)

/-- All flushes succeed, and no snapshot has expired when it is flushed. -/
def Smooth (r : LedgerRun α) (events : List (LedgerEvent α)) : Prop :=
  ∀ past now, past ++ [.flush now] <+: events →
    ((r.run past).ledger.flush (r.run past).store now).fault = none ∧
      ∀ d, (r.run past).ledger.retention? = some d →
        ∀ key b, (r.run past).ledger.buffer.get? key = some b → Live now d b

def row? (r : LedgerRun α) (id : String) : Option Json := (r.store.table (Rollup.tag α)).get? id

theorem run_concat (r : LedgerRun α) (e : LedgerEvent α) : r.run (past ++ [e]) = (r.run past).step e :=
  List.foldl_append

end LedgerRun
end

/-! ### Runs with heartbeats -/

namespace LedgerRun

/-- The times of one origin's heartbeats of an id do not fall. -/
def Rising (xs : List (Snapshot Heartbeat)) : Prop :=
  xs.Pairwise fun s t => s.origin = t.origin → s.record.id = t.record.id → s.record.time ≤ t.record.time

theorem Rising.pick {xs : List (Snapshot Heartbeat)} (h : Rising xs) (key : OriginKey) :
    (pick key xs).Pairwise fun a b => a.time ≤ b.time := by
  rw [TraceRollup.pick, List.pairwise_map, List.pairwise_filter]
  refine h.imp fun hle hs ht => ?_
  have hs := of_decide_eq_true hs
  have ht := of_decide_eq_true ht
  exact hle (congrArg Prod.fst (hs.trans ht.symm)) (congrArg Prod.snd (hs.trans ht.symm))

/-- If of an id one origin's heartbeat is still to be flushed after another's was, one is as late. -/
def KeepsUp (window : Duration) (past : List (LedgerEvent Heartbeat)) : Prop :=
  ∀ s ∈ settled window past, ∀ t ∈ pending window past, s.origin ≠ t.origin → t.record.id = s.record.id →
    ∃ u ∈ pending window past, u.record.id = s.record.id ∧ s.record.time ≤ u.record.time

/-- No flush takes a row back. -/
def Onward (window : Duration) (events : List (LedgerEvent Heartbeat)) : Prop :=
  ∀ past now, past ++ [.flush now] <+: events → KeepsUp window past

/-- The buffer holds the last heartbeats since the last flush, and the rows the latest before it. -/
structure Told (window : Duration) (before : LedgerRun Heartbeat) (past : List (LedgerEvent Heartbeat))
    (r : LedgerRun Heartbeat) : Prop where
  window_eq : r.ledger.window = window
  batch : 0 < r.ledger.batchSize
  buffer : ∀ key, r.ledger.buffer.get? key = (pick key (pending window past)).getLast?
  latest : ∀ id, (∃ s ∈ settled window past, s.record.id = id) →
    ∃ h : Heartbeat, r.row? id = some h.encode ∧ h.LatestOf ((settled window past).map Snapshot.record) id
  others : ∀ id, (∀ s ∈ settled window past, s.record.id ≠ id) → r.row? id = before.row? id

namespace Told
variable {window : Duration} {before r : LedgerRun Heartbeat} {past : List (LedgerEvent Heartbeat)}

theorem accept (h : Told window before past r) (batch : List (Snapshot Heartbeat)) (now : Instant) :
    Told window before (past ++ [.accept batch now]) (r.step (.accept batch now)) := by
  obtain ⟨hwindow, hbatch, -⟩ := window_acceptBatch r.ledger batch now
  have hsettled : settled window (past ++ [.accept batch now]) = settled window past := settled_quiet _ _ rfl
  refine ⟨hwindow.trans h.window_eq, hbatch ▸ h.batch, fun key => ?_, ?_, ?_⟩
  · show (r.ledger.acceptBatch batch now).2.buffer.get? key = _
    rw [buffer_acceptBatch, h.buffer, h.window_eq, pending_quiet _ _ rfl, pick_append, List.getLast?_append, takes_eq]
    rfl
  · rw [hsettled]
    exact h.latest
  · rw [hsettled]
    exact h.others

theorem elsewhere (h : Told window before past r) (other : Store) :
    Told window before (past ++ [.elsewhere other]) (r.step (.elsewhere other)) := by
  have hsettled : settled window (past ++ [.elsewhere other]) = settled window past := settled_quiet _ _ rfl
  have hpending : pending window (past ++ [.elsewhere other]) = pending window past :=
    (pending_quiet _ _ rfl).trans (List.append_nil _)
  have hrow : ∀ id, (r.step (.elsewhere other)).row? id = r.row? id := by
    intro id
    exact congrArg (fun t : Table => t.get? id) (Store.table_withTableOf r.store other (Rollup.tag Heartbeat))
  refine ⟨h.window_eq, h.batch, ?_, ?_, ?_⟩
  · rw [hpending]
    exact h.buffer
  · rw [hsettled]
    intro id hid
    rw [hrow]
    exact h.latest id hid
  · rw [hsettled]
    intro id hid
    rw [hrow]
    exact h.others id hid

theorem mem_of_buffered (h : Told window before past r) {key : OriginKey} {b : Heartbeat}
    (hb : r.ledger.buffer.get? key = some b) : b.id = key.2 ∧ ∃ s ∈ pending window past, s.record = b := by
  rw [h.buffer] at hb
  obtain ⟨s, hs, hrecord, -, hid⟩ := mem_pick (List.mem_of_getLast? hb)
  exact ⟨hid, s, hs, hrecord⟩

/-- Of each origin the last heartbeat since the last flush is buffered, and none before it is later. -/
theorem exists_buffered (h : Told window before past r) (hrising : Rising (accepted window past))
    {s : Snapshot Heartbeat} (hs : s ∈ pending window past) :
    ∃ b, r.ledger.buffer.get? (s.origin, s.record.id) = some b ∧ s.record.time ≤ b.time := by
  have hmem : s.record ∈ pick (s.origin, s.record.id) (pending window past) :=
    List.mem_map_of_mem (List.mem_filter.2 ⟨hs, decide_eq_true rfl⟩)
  rw [accepted_eq] at hrising
  have hpending : Rising (pending window past) := (List.pairwise_append.1 hrising).2.1
  refine ⟨_, (h.buffer _).trans (List.getLast?_eq_some_getLast (List.ne_nil_of_mem hmem)), ?_⟩
  exact (hpending.pick _).rel_getLast_of_rel_getLast_getLast hmem (Int64.le_refl _)

/-- What is flushed together is as late as all before. -/
theorem latest_due (h : Told window before past r) (hrising : Rising (accepted window past)) (honward : KeepsUp window past)
    {now : Instant} {d : Duration} (hlive : ∀ key b, r.ledger.buffer.get? key = some b → Live now d b) {id : String}
    (hid : ∃ t ∈ pending window past, t.record.id = id) {row : Heartbeat}
    (hrow : Rollup.mergeAll ((Ledger.entriesOf (r.ledger.due now d) id).map Prod.snd) = some row) :
    row.LatestOf ((accepted window past).map Snapshot.record) id := by
  have hentries : ∀ e ∈ Ledger.entriesOf (r.ledger.due now d) id,
      e.2.id = id ∧ ∃ s ∈ pending window past, s.record = e.2 := by
    intro e he
    obtain ⟨hdue, heid⟩ := List.mem_filter.1 he
    obtain ⟨hkey, hmem⟩ := h.mem_of_buffered (mem_live.1 hdue).1
    exact ⟨hkey.trans (of_decide_eq_true heid), hmem⟩
  have hcovered : ∀ s ∈ pending window past, s.record.id = id →
      ∃ x ∈ (Ledger.entriesOf (r.ledger.due now d) id).map Prod.snd, x.id = id ∧ s.record.time ≤ x.time := by
    intro s hs hsid
    obtain ⟨b, hb, hle⟩ := h.exists_buffered hrising hs
    have hdue : ((s.origin, s.record.id), b) ∈ r.ledger.due now d := mem_live.2 ⟨hb, hlive _ b hb⟩
    exact ⟨b, List.mem_map_of_mem (List.mem_filter.2 ⟨hdue, decide_eq_true hsid⟩), (h.mem_of_buffered hb).1.trans hsid, hle⟩
  have hmerged : row.LatestOf ((Ledger.entriesOf (r.ledger.due now d) id).map Prod.snd) id := by
    refine Heartbeat.latestOf_mergeAll (fun x hx => ?_) hrow
    obtain ⟨e, he, rfl⟩ := List.mem_map.1 hx
    exact (hentries e he).1
  rw [accepted_eq] at hrising ⊢
  refine hmerged.of_subset (fun x hx => ?_) fun y hy hyid => ?_
  · obtain ⟨e, he, rfl⟩ := List.mem_map.1 hx
    obtain ⟨-, s, hs, hrecord⟩ := hentries e he
    rw [← hrecord]
    exact List.mem_map_of_mem (List.mem_append_right _ hs)
  · obtain ⟨s, hs, rfl⟩ := List.mem_map.1 hy
    rcases List.mem_append.1 hs with hsettled | hpending
    · -- Its own origin has sent a later one since, or another's keeps up with it.
      obtain ⟨t, ht, htid⟩ := hid
      have hlater : ∃ u ∈ pending window past, u.record.id = s.record.id ∧ s.record.time ≤ u.record.time := by
        by_cases horigin : s.origin = t.origin
        · exact ⟨t, ht, htid.trans hyid.symm,
            (List.pairwise_append.1 hrising).2.2 s hsettled t ht horigin (hyid.trans htid.symm)⟩
        · exact honward s hsettled t ht horigin (htid.trans hyid.symm)
      obtain ⟨u, hu, huid, hle⟩ := hlater
      obtain ⟨x, hx, hxid, hux⟩ := hcovered u hu (huid.trans hyid)
      exact ⟨x, hx, hxid, Int64.le_trans hle hux⟩
    · exact hcovered s hpending hyid

section
variable {now : Instant} {d : Duration} {rows : List (String × Heartbeat)} {id : String}

/-- A flush writes rows of the ids that have come since the last one. -/
theorem mem_rows (h : Told window before past r) (hrising : Rising (accepted window past))
    (hlive : ∀ key b, r.ledger.buffer.get? key = some b → Live now d b)
    (hf : Ledger.Flushed r.ledger r.store now d rows (r.ledger.flush r.store now)) :
    id ∈ rows.map Prod.fst ↔ ∃ t ∈ pending window past, t.record.id = id := by
  rw [hf.ids, Ledger.mem_sortedIds]
  constructor
  · rintro ⟨e, he, rfl⟩
    obtain ⟨hkey, s, hs, hrecord⟩ := h.mem_of_buffered (mem_live.1 he).1
    exact ⟨s, hs, hrecord ▸ hkey⟩
  · rintro ⟨t, ht, rfl⟩
    obtain ⟨b, hb, -⟩ := h.exists_buffered hrising ht
    exact ⟨((t.origin, t.record.id), b), mem_live.2 ⟨hb, hlive _ b hb⟩, rfl⟩

theorem row_put (h : Told window before past r) (hrising : Rising (accepted window past)) (honward : KeepsUp window past)
    (hlive : ∀ key b, r.ledger.buffer.get? key = some b → Live now d b)
    (hf : Ledger.Flushed r.ledger r.store now d rows (r.ledger.flush r.store now))
    (hid : ∃ t ∈ pending window past, t.record.id = id) :
    ∃ row : Heartbeat, (r.step (.flush now)).row? id = some row.encode ∧
      row.LatestOf ((accepted window past).map Snapshot.record) id := by
  obtain ⟨⟨_, row⟩, hrow, rfl⟩ := List.mem_map.1 ((h.mem_rows hrising hlive hf).2 hid)
  have hfind := (Entries.find_eq_some_iff (hf.ids ▸ Ledger.nodup_sortedIds _)).2 hrow
  refine ⟨row, (hf.table _).trans (by rw [hfind]; rfl), h.latest_due hrising honward hlive hid ?_⟩
  rw [← Ledger.freshRow?_replace rfl]
  exact hf.fresh _ hrow

theorem row_left (h : Told window before past r) (hrising : Rising (accepted window past))
    (hlive : ∀ key b, r.ledger.buffer.get? key = some b → Live now d b)
    (hf : Ledger.Flushed r.ledger r.store now d rows (r.ledger.flush r.store now))
    (hid : ∀ t ∈ pending window past, t.record.id ≠ id) : (r.step (.flush now)).row? id = r.row? id := by
  have hnone : Entries.find id rows = none := Entries.find_eq_none_iff.2 fun hin => by
    obtain ⟨t, ht, htid⟩ := (h.mem_rows hrising hlive hf).1 hin
    exact hid t ht htid
  exact (hf.table id).trans (by rw [hnone]; rfl)

end

theorem flush (h : Told window before past r) (hrising : Rising (accepted window past)) (honward : KeepsUp window past)
    {now : Instant} (hends : (r.ledger.flush r.store now).fault = none)
    (hlive : ∀ d, r.ledger.retention? = some d → ∀ key b, r.ledger.buffer.get? key = some b → Live now d b) :
    Told window before (past ++ [.flush now]) (r.step (.flush now)) := by
  cases hretention : r.ledger.retention? with
  | none =>
    rw [Ledger.flush, hretention] at hends
    cases hends
  | some d =>
    have hlive := hlive d hretention
    obtain ⟨rows, hf⟩ := Ledger.flushed_of_fault hretention h.batch hends
    have hsettings := r.settings_step (.flush now)
    refine ⟨hsettings.1.trans h.window_eq, hsettings.2 ▸ h.batch, fun key => ?_, fun id hid => ?_, fun id hid => ?_⟩
    · show (r.ledger.flush r.store now).ledger.buffer.get? key = _
      rw [hf.ledger.1, pending_flush]
      rfl
    · rw [settled_flush] at hid ⊢
      by_cases hnew : ∃ t ∈ pending window past, t.record.id = id
      · exact h.row_put hrising honward hlive hf hnew
      · have hno : ∀ t ∈ pending window past, t.record.id ≠ id := fun t ht htid => hnew ⟨t, ht, htid⟩
        rw [h.row_left hrising hlive hf hno]
        rw [accepted_eq] at hid ⊢
        obtain ⟨s, hs, hsid⟩ := hid
        rcases List.mem_append.1 hs with hs | hs
        · obtain ⟨old, hold, hlatest⟩ := h.latest id ⟨s, hs, hsid⟩
          refine ⟨old, hold, ?_⟩
          rw [List.map_append]
          refine hlatest.append_right fun y hy => ?_
          obtain ⟨t, ht, rfl⟩ := List.mem_map.1 hy
          exact hno t ht
        · exact absurd hsid (hno s hs)
    · rw [settled_flush, accepted_eq] at hid
      rw [h.row_left hrising hlive hf fun t ht => hid t (List.mem_append_right _ ht)]
      exact h.others id fun s hs => hid s (List.mem_append_left _ hs)

/-- Up to each point of a run. -/
theorem run {window : Duration} {r : LedgerRun Heartbeat} (h : Told window r [] r)
    {events : List (LedgerEvent Heartbeat)} (hrising : Rising (accepted window events)) (hsmooth : Smooth r events)
    (honward : Onward window events) {past : List (LedgerEvent Heartbeat)} (hpast : past <+: events) :
    Told window r past (r.run past) := by
  -- From the end: what a flush does is told by all the events before it.
  induction past using List.reverseRecOn with
  | nil => exact h
  | append_singleton past e ih =>
    have hbefore := ih ((List.prefix_append past [e]).trans hpast)
    rw [run_concat]
    cases e with
    | accept batch now => exact hbefore.accept batch now
    | elsewhere other => exact hbefore.elsewhere other
    | flush now =>
      obtain ⟨hends, hlive⟩ := hsmooth past now hpast
      refine hbefore.flush (hrising.sublist ?_) (honward past now hpast) hends hlive
      obtain ⟨rest, rfl⟩ := (List.prefix_append past [LedgerEvent.flush now]).trans hpast
      rw [accepted_append]
      exact List.sublist_append_left _ _

theorem create (pipeline : PipelineId) (window : Duration) (batchSize : Nat) (store : Store) :
    Told window (create pipeline window batchSize store) [] (create pipeline window batchSize store) := by
  refine ⟨rfl, Nat.le_max_right batchSize 1, fun key => rfl, fun id hid => ?_, fun id _ => rfl⟩
  obtain ⟨s, hs, -⟩ := hid
  cases hs

end Told

/-- Schedules that go onward store the latest of what they took in, and never an earlier one after
it, wherever their flushes fall. -/
theorem latest_stored (pipeline : PipelineId) (window : Duration) (batchSize : Nat) (store : Store)
    {events events' : List (LedgerEvent Heartbeat)} {now now' : Instant}
    (hsame : accepted window events = accepted window events') (hrising : Rising (accepted window events))
    (hsmooth : Smooth (create pipeline window batchSize store) (events ++ [.flush now]))
    (hsmooth' : Smooth (create pipeline window batchSize store) (events' ++ [.flush now']))
    (honward : Onward window (events ++ [.flush now])) (honward' : Onward window (events' ++ [.flush now'])) :
    let start := create pipeline window batchSize store
    let r := start.run (events ++ [.flush now])
    let r' := start.run (events' ++ [.flush now'])
    let beats := (accepted window events).map Snapshot.record
    (∀ id, (∃ x ∈ beats, x.id = id) → ∃ h h' : Heartbeat, r.row? id = some h.encode ∧ r'.row? id = some h'.encode ∧
        h.LatestOf beats id ∧ h'.LatestOf beats id ∧ h.time = h'.time) ∧
      (∀ id, (∀ x ∈ beats, x.id ≠ id) → r.row? id = start.row? id ∧ r'.row? id = start.row? id) ∧
      ((∀ x ∈ beats, ∀ y ∈ beats, x.id = y.id → x.application = y.application) → ∀ id, r.row? id = r'.row? id) ∧
      ∀ first second, first <+: second → second <+: events ++ [.flush now] →
        ∀ id, (∃ s ∈ settled window first, s.record.id = id) → ∃ h h' : Heartbeat,
          (start.run first).row? id = some h.encode ∧ (start.run second).row? id = some h'.encode ∧ h.time ≤ h'.time := by
  intro start r r' beats
  have hall : accepted window (events ++ [.flush now]) = accepted window events :=
    (accepted_append window events [.flush now]).trans (List.append_nil _)
  have hall' : accepted window (events' ++ [.flush now']) = accepted window events' :=
    (accepted_append window events' [.flush now']).trans (List.append_nil _)
  have hstart : Told window start [] start := .create pipeline window batchSize store
  have htold : ∀ past, past <+: events ++ [.flush now] → Told window start past (start.run past) :=
    fun past => hstart.run (hall ▸ hrising) hsmooth honward
  have hend := htold _ (List.prefix_refl _)
  have hend' : Told window start (events' ++ [.flush now']) r' :=
    hstart.run (hall' ▸ hsame ▸ hrising) hsmooth' honward' (List.prefix_refl _)
  have hlatest := hend.latest
  have hlatest' := hend'.latest
  have hothers := hend.others
  have hothers' := hend'.others
  rw [settled_flush] at hlatest hothers hlatest' hothers'
  rw [← hsame] at hlatest' hothers'
  have hboth : ∀ id, (∃ x ∈ beats, x.id = id) → ∃ h h' : Heartbeat, r.row? id = some h.encode ∧
      r'.row? id = some h'.encode ∧ h.LatestOf beats id ∧ h'.LatestOf beats id := by
    rintro id ⟨x, hx, hid⟩
    obtain ⟨s, hs, rfl⟩ := List.mem_map.1 hx
    obtain ⟨h, hrow, hof⟩ := hlatest id ⟨s, hs, hid⟩
    obtain ⟨h', hrow', hof'⟩ := hlatest' id ⟨s, hs, hid⟩
    exact ⟨h, h', hrow, hrow', hof, hof'⟩
  have hneither : ∀ id, (∀ x ∈ beats, x.id ≠ id) → r.row? id = start.row? id ∧ r'.row? id = start.row? id := by
    intro id hid
    have hno : ∀ s ∈ accepted window events, s.record.id ≠ id := fun s hs => hid s.record (List.mem_map_of_mem hs)
    exact ⟨hothers id hno, hothers' id hno⟩
  refine ⟨fun id hid => ?_, hneither, fun happlication id => ?_, fun first second hle hsecond id hid => ?_⟩
  · obtain ⟨h, h', hrow, hrow', hof, hof'⟩ := hboth id hid
    exact ⟨h, h', hrow, hrow', hof, hof', hof.time_eq hof'⟩
  · by_cases hid : ∃ x ∈ beats, x.id = id
    · obtain ⟨h, h', hrow, hrow', hof, hof'⟩ := hboth id hid
      have heq : h = h' := hof.eq_of_application hof' fun x hx y hy hxid hyid =>
        happlication x hx y hy (hxid.trans hyid.symm)
      rw [hrow, hrow', heq]
    · obtain ⟨hrow, hrow'⟩ := hneither id fun x hx hxid => hid ⟨x, hx, hxid⟩
      rw [hrow, hrow']
  · have hsub := settled_subset window hle
    obtain ⟨s, hs, hsid⟩ := hid
    obtain ⟨h, hrow, hof⟩ := (htold first (hle.trans hsecond)).latest id ⟨s, hs, hsid⟩
    obtain ⟨h', hrow', hof'⟩ := (htold second hsecond).latest id ⟨s, hsub hs, hsid⟩
    exact ⟨h, h', hrow, hrow', hof.time_le hof' (List.map_subset _ hsub)⟩

/-! ### Two origins -/

section
variable {α : Type} {P : List (LedgerEvent α) → Instant → Prop}

theorem flushes_nil : ∀ past now, past ++ [.flush now] <+: [] → P past now := by
  intro past now h
  exact absurd (List.prefix_nil.1 h) (List.append_ne_nil_of_right_ne_nil past (List.cons_ne_nil _ _))

/-- The flushes of a run, one after another. -/
theorem flushes_cons {e : LedgerEvent α} {rest : List (LedgerEvent α)} (hfirst : ∀ now, e = .flush now → P [] now)
    (hrest : ∀ past now, past ++ [.flush now] <+: rest → P (e :: past) now) :
    ∀ past now, past ++ [.flush now] <+: e :: rest → P past now := by
  intro past now h
  cases past with
  | nil => exact hfirst now (List.cons_prefix_cons.1 h).1.symm
  | cons e' past =>
    obtain ⟨rfl, hpast⟩ := List.cons_prefix_cons.1 h
    exact hrest past now hpast

end

theorem smooth_flush {α : Type} [Rollup α] {r : LedgerRun α} {now : Instant} {d : Duration}
    (hends : (r.ledger.flush r.store now).fault = none) (hretention : r.ledger.retention? = some d)
    (hlive : ∀ e ∈ r.ledger.buffer.toList, (Rollup.bucket e.2).isExpired now d = false) :
    (r.ledger.flush r.store now).fault = none ∧ ∀ d, r.ledger.retention? = some d →
      ∀ key b, r.ledger.buffer.get? key = some b → Live now d b := by
  refine ⟨hends, fun d' hd' key b hb => ?_⟩
  rw [hretention] at hd'
  cases hd'
  exact hlive (key, b) ((Entries.find_eq_some_iff r.ledger.buffer.distinct).1 hb)

/-- A heartbeat of instance 1. -/
def beat (time : Int64) : Heartbeat := ⟨1, 1, ⟨20180101⟩, time⟩

/-- Two origins send a heartbeat each, with a flush in between. -/
def apart (y : Int64) : List (LedgerEvent Heartbeat) :=
  [.accept [⟨"a", beat 100⟩] .epoch, .flush .epoch, .accept [⟨"b", beat y⟩] .epoch]

def together (y : Int64) : List (LedgerEvent Heartbeat) := [.accept [⟨"a", beat 100⟩, ⟨"b", beat y⟩] .epoch]

/-- Instance 1 is heard of twice. -/
def heard : LedgerRun Heartbeat := create ⟨3⟩ (.ofSeconds 600) 2000 .fresh

theorem smooth_apart {y : Int64} (hy : y = 150 ∨ y = 50) : Smooth heard (apart y ++ [.flush .epoch]) := by
  refine flushes_cons (fun _ h => by cases h) (flushes_cons ?_ (flushes_cons (fun _ h => by cases h) (flushes_cons ?_ flushes_nil)))
  · rintro _ ⟨⟩
    exact smooth_flush (by decide +kernel) (d := .ofSeconds 1200) (by decide +kernel) (by decide +kernel)
  · rintro _ ⟨⟩
    rcases hy with rfl | rfl
    · exact smooth_flush (by decide +kernel) (d := .ofSeconds 1200) (by decide +kernel) (by decide +kernel)
    · exact smooth_flush (by decide +kernel) (d := .ofSeconds 1200) (by decide +kernel) (by decide +kernel)

theorem smooth_together {y : Int64} (hy : y = 150 ∨ y = 50) : Smooth heard (together y ++ [.flush .epoch]) := by
  refine flushes_cons (fun _ h => by cases h) (flushes_cons ?_ flushes_nil)
  rintro _ ⟨⟩
  rcases hy with rfl | rfl
  · exact smooth_flush (by decide +kernel) (d := .ofSeconds 1200) (by decide +kernel) (by decide +kernel)
  · exact smooth_flush (by decide +kernel) (d := .ofSeconds 1200) (by decide +kernel) (by decide +kernel)

theorem rising_apart {y : Int64} (hy : y = 150 ∨ y = 50) : Rising (accepted (.ofSeconds 600) (apart y)) := by
  have haccepted : accepted (.ofSeconds 600) (apart y) = [⟨"a", beat 100⟩, ⟨"b", beat y⟩] := by
    rcases hy with rfl | rfl <;> decide +kernel
  rw [haccepted]
  have hab : ¬ ("a" : String) = "b" := by decide
  exact List.pairwise_pair.2 fun horigin => absurd horigin hab

theorem latest_stored_apart :
    ∃ h : Heartbeat, (heard.run (apart 150 ++ [.flush .epoch])).row? (beat 0).id = some h.encode ∧
      (heard.run (together 150 ++ [.flush .epoch])).row? (beat 0).id = some h.encode ∧ 150 ≤ h.time := by
  have honward : Onward (.ofSeconds 600) (apart 150 ++ [.flush .epoch]) := by
    refine flushes_cons (fun _ h => by cases h) (flushes_cons ?_ (flushes_cons (fun _ h => by cases h) (flushes_cons ?_ flushes_nil)))
    · rintro _ ⟨⟩ s hs
      cases hs
    · rintro _ ⟨⟩ s hs t ht - hid
      have hsettled : settled (.ofSeconds 600) (apart 150) = [⟨"a", beat 100⟩] := by decide +kernel
      have hpending : pending (.ofSeconds 600) (apart 150) = [⟨"b", beat 150⟩] := by decide +kernel
      refine ⟨t, ht, hid, ?_⟩
      have hs : s ∈ settled (.ofSeconds 600) (apart 150) := hs
      have ht : t ∈ pending (.ofSeconds 600) (apart 150) := ht
      rw [hsettled] at hs
      rw [hpending] at ht
      rw [List.mem_singleton.1 hs, List.mem_singleton.1 ht]
      decide
  have honward' : Onward (.ofSeconds 600) (together 150 ++ [.flush .epoch]) := by
    refine flushes_cons (fun _ h => by cases h) (flushes_cons ?_ flushes_nil)
    rintro _ ⟨⟩ s hs
    cases hs
  have hbeats : (accepted (.ofSeconds 600) (apart 150)).map Snapshot.record = [beat 100, beat 150] := by decide +kernel
  obtain ⟨hlatest, -, hrows, -⟩ := latest_stored ⟨3⟩ (.ofSeconds 600) 2000 .fresh (by decide +kernel)
    (rising_apart (Or.inl rfl)) (smooth_apart (Or.inl rfl)) (smooth_together (Or.inl rfl)) honward honward'
  rw [hbeats] at hlatest hrows
  obtain ⟨h, _, hrow, -, hof, -⟩ := hlatest (beat 0).id ⟨beat 100, List.mem_cons_self .., rfl⟩
  refine ⟨h, hrow, (hrows (fun x hx y hy _ => ?_) (beat 0).id) ▸ hrow, hof.latest (beat 150) (by simp) rfl⟩
  rcases List.mem_pair.1 hx with rfl | rfl <;> rcases List.mem_pair.1 hy with rfl | rfl <;> rfl

/-- A straggler of another origin, flushed on its own, takes the row back. -/
theorem straggler_flushed :
    accepted (.ofSeconds 600) (apart 50) = accepted (.ofSeconds 600) (together 50) ∧
      Rising (accepted (.ofSeconds 600) (apart 50)) ∧
      Smooth heard (apart 50 ++ [.flush .epoch]) ∧ Smooth heard (together 50 ++ [.flush .epoch]) ∧
      ((heard.run ((apart 50).take 2)).row? (beat 0).id).bind Heartbeat.decode? = some (beat 100) ∧
      ((heard.run (apart 50 ++ [.flush .epoch])).row? (beat 0).id).bind Heartbeat.decode? = some (beat 50) ∧
      ((heard.run (together 50 ++ [.flush .epoch])).row? (beat 0).id).bind Heartbeat.decode? = some (beat 100) :=
  ⟨by decide +kernel, rising_apart (Or.inr rfl), smooth_apart (Or.inr rfl), smooth_together (Or.inr rfl),
    by decide +kernel, by decide +kernel, by decide +kernel⟩

end LedgerRun
end TraceRollup
