import TraceRollup.Proofs.NothingLost

/-!
# Remembered in time

What a ledger takes in inside the window is not expired for twice the window until the window has
gone by, and neither is what it wrote of the same origin and id, since they share their bucket. So
a flush in this time writes what was taken in, and takes away from it what was written before
(`LedgerRun.remembered_in_time`).
-/

namespace TraceRollup

/-- Until a chunk with an id is written the baselines under the id are as they were. -/
theorem Ledger.get?_baselines_foldl {α : Type} [Rollup α] {entries : List (Entry α)} (hd : (entries.map Prod.fst).Nodup)
    (baselines : Dict OriginKey α) (store : Store) {size fuel : Nat} {first rest : List (List String)} {chunk : List String}
    (hsplit : chunks size fuel (sortedIds entries) = first ++ chunk :: rest) {key : OriginKey} (hkey : key.2 ∈ chunk) :
    (first.foldl (writeChunk entries) ⟨[], baselines, store, none⟩).baselines.get? key = baselines.get? key := by
  have hsub := flatten_chunks_sublist size fuel (sortedIds entries)
  have hnodup := (nodup_sortedIds entries).sublist hsub
  rw [hsplit, List.flatten_append, List.flatten_cons] at hnodup
  have hids : ∀ c ∈ first, ∀ id ∈ c, ∃ e ∈ entries, e.1.2 = id := by
    intro c hc id hid
    have hchunk : c ∈ chunks size fuel (sortedIds entries) := by
      rw [hsplit]
      exact List.mem_append_left _ hc
    exact mem_sortedIds.1 (mem_of_mem_chunks hchunk hid)
  obtain ⟨more, left, rows, records, hmore, h, -⟩ :=
    (Progress.start entries baselines store).foldl rfl hd (List.nodup_append.1 hnodup).1 hids
  rw [h.kept]
  refine baselinesAfter_of_notMem fun hin => ?_
  have hfirst : key.2 ∈ first.flatten := by
    rw [hmore, List.flatten_append]
    exact List.mem_append_left _ hin
  exact (List.nodup_append.1 hnodup).2.2 key.2 hfirst key.2 (List.mem_append_left _ hkey) rfl

namespace LedgerRun
variable {α : Type} [Rollup α] {r : LedgerRun α} {key : OriginKey}

/-! ### What is taken in -/

/-- What was taken in under a key has its id. -/
def Keyed (r : LedgerRun α) : Prop := ∀ key, ∀ x ∈ r.taken key, Rollup.id x = key.2

theorem Keyed.run (h : r.Keyed) (events : List (LedgerEvent α)) : (r.run events).Keyed := by
  induction events generalizing r with
  | nil => exact h
  | cons e rest ih =>
    refine ih ?_
    cases e with
    | flush now => exact h
    | elsewhere other => exact h
    | accept batch now =>
      intro key x hx
      rcases List.mem_append.1 hx with hx | hx
      · exact h key x hx
      · rw [takes_eq] at hx
        obtain ⟨s, -, -, -, hid⟩ := mem_pick hx
        exact hid

/-- The newest snapshot of a key is buffered. -/
def Holds (r : LedgerRun α) (key : OriginKey) : Prop := r.ledger.buffer.get? key = (r.taken key).getLast?

theorem Holds.run (h : r.Holds key) {events : List (LedgerEvent α)} (hquiet : flushTimes events = []) :
    (r.run events).Holds key := by
  induction events generalizing r with
  | nil => exact h
  | cons e rest ih =>
    cases e with
    | flush now => cases hquiet
    | elsewhere other => exact ih (r := r.step (.elsewhere other)) h hquiet
    | accept batch now =>
      refine ih (r := r.step (.accept batch now)) ?_ hquiet
      show (r.ledger.acceptBatch batch now).2.buffer.get? key = (r.taken key ++ _).getLast?
      rw [buffer_acceptBatch, List.getLast?_append, h]

/-- A snapshot that comes in time is taken in, and from then on the newest of its key is buffered. -/
theorem holds_accept {batch : List (Snapshot α)} {s : Snapshot α} (hs : s ∈ batch) {now : Instant}
    (hlive : Live now r.ledger.window s.record) :
    (r.step (.accept batch now)).Holds (s.origin, Rollup.id s.record) ∧
      s.record ∈ (r.step (.accept batch now)).taken (s.origin, Rollup.id s.record) := by
  have htaken : s.record ∈ takes r.ledger.window now batch (s.origin, Rollup.id s.record) := by
    refine List.mem_map_of_mem (List.mem_filter.2 ⟨hs, ?_⟩)
    rw [show (Rollup.bucket s.record).isExpired now r.ledger.window = false from hlive]
    exact decide_eq_true rfl
  refine ⟨?_, List.mem_append_right _ htaken⟩
  show (r.ledger.acceptBatch batch now).2.buffer.get? _ = (r.taken _ ++ _).getLast?
  rw [buffer_acceptBatch, List.getLast?_append, List.getLast?_eq_some_getLast (List.ne_nil_of_mem htaken)]
  rfl

/-! ### What is remembered -/

/-- The baselines hold what was written and has not expired at an instant. -/
def Remembers (d : Duration) (t : Instant) (r : LedgerRun α) : Prop :=
  ∀ key w, r.written key = some w → Live t d w → r.ledger.baselines.get? key = some w

theorem Remembers.flush (hmode : Rollup.mode α = .additive) {d : Duration} {t now : Instant} (h : Remembers d t r)
    (hd : r.ledger.retention? = some d) (hnow : now.InEra) (ht : t.InEra) (hle : now.nanos ≤ t.nanos) :
    Remembers d t (r.step (.flush now)) := by
  obtain ⟨done, rest, rows, records, -, hw, -⟩ :=
    Ledger.progress_write (r.ledger.nodup_due now d) r.ledger.batchSize r.ledger.baselines r.store
  intro key w hwritten hlive
  -- What is live at the later time is live now, so this flush writes it if it is buffered and does not forget it.
  have hstill : (Rollup.bucket w).isExpired now d = false := hlive.mono hnow ht hle
  have hadvance : (r.step (.flush now)).written = r.written.advance r.ledger.buffer.toList done.flatten := by
    simp only [step, Ledger.flush_eq hd, Store.callsSince_append hw.history, ← hw.writes]
    exact Standing.advance_congr _ _ fun id => mem_writesIn_reverse.symm
  rw [hadvance, Standing.advance] at hwritten
  simp only [step, Ledger.flush_eq hd]
  refine Ledger.Writing.get?_keep ?_ ((Bool.not_eq_true' _).mpr hstill)
  rw [hw.kept]
  unfold Ledger.baselinesAfter
  simp only [hmode, Standing.advance, Ledger.find_due]
  by_cases hid : key.2 ∈ done.flatten
  · rw [if_pos hid] at hwritten ⊢
    cases hb : r.ledger.buffer.get? key with
    | none =>
      rw [show Entries.find key r.ledger.buffer.toList = none from hb] at hwritten
      exact h key w hwritten hlive
    | some b =>
      rw [show Entries.find key r.ledger.buffer.toList = some b from hb] at hwritten
      cases hwritten
      rw [Option.filter_some, hstill]
      rfl
  · rw [if_neg hid] at hwritten ⊢
    exact h key w hwritten hlive

theorem Remembers.run (hmode : Rollup.mode α = .additive) {d : Duration} {t : Instant} (h : Remembers d t r)
    (hd : r.ledger.window.double? = some d) (ht : t.InEra) {events : List (LedgerEvent α)}
    (hclock : ∀ s ∈ flushTimes events, s.InEra ∧ s.nanos ≤ t.nanos) : Remembers d t (r.run events) := by
  induction events generalizing r with
  | nil => exact h
  | cons e rest ih =>
    have hwindow : (r.step e).ledger.window.double? = some d := by
      rw [(r.settings_step e).1]
      exact hd
    cases e with
    | elsewhere other => exact ih (r := r.step (.elsewhere other)) h hwindow hclock
    | accept batch now =>
      refine ih (r := r.step (.accept batch now)) (fun key w hwritten hlive => ?_) hwindow hclock
      exact (congrArg (·.get? key) (window_acceptBatch r.ledger batch now).2.2).trans (h key w hwritten hlive)
    | flush now =>
      obtain ⟨hnow, hle⟩ := hclock now (List.mem_cons_self ..)
      exact ih (h.flush hmode hd hnow ht hle) hwindow fun s hs => hclock s (List.mem_cons_of_mem _ hs)

/-- A flush that arithmetic does not end forgets what has expired. -/
theorem live_of_baseline {d : Duration} (hd : r.ledger.retention? = some d) {now : Instant} {base : α}
    (hends : (r.ledger.flush r.store now).fault ≠ some .overflow)
    (h : (r.step (.flush now)).ledger.baselines.get? key = some base) : Live now d base := by
  rw [Ledger.flush_eq hd] at hends
  simp only [step, Ledger.flush_eq hd, Ledger.Writing.keep_of_ne_overflow hends] at h
  rw [Dict.get?_filter, Option.filter_eq_some_iff] at h
  exact (Bool.not_eq_true' _).mp h.2

end LedgerRun

/-- A snapshot taken in inside the window is due at the next flush if that comes within the window,
and what was written of its origin and id is still remembered when it is combined. What a flush
remembers has not expired, unless arithmetic beyond the numbers' range ended it. -/
theorem LedgerRun.remembered_in_time (k : RecordKind) (pipeline : PipelineId) {window d : Duration}
    (hd : window.double? = some d) (batchSize : Nat) (store : Store) (before between : List (LedgerEvent k.Carrier))
    {batch : List (Snapshot k.Carrier)} {s : Snapshot k.Carrier} (hs : s ∈ batch) {t₁ t₂ : Instant}
    (hlive : Live t₁ window s.record) (hquiet : flushTimes between = []) (hera₁ : t₁.InEra) (hera₂ : t₂.InEra)
    (hclock : ∀ t ∈ flushTimes before, t.InEra ∧ t.nanos ≤ t₂.nanos) (hin : t₂.nanos ≤ t₁.nanos + window.nanos) :
    let start : LedgerRun k.Carrier := create pipeline window batchSize store
    let r := start.run (before ++ .accept batch t₁ :: between)
    let key := (s.origin, Rollup.id s.record)
    let due := r.ledger.due t₂ d
    let chunks := Ledger.chunks r.ledger.batchSize (Ledger.sortedIds due).length (Ledger.sortedIds due)
    Live t₂ d s.record ∧ s.record ∈ r.taken key ∧
      (∃ b, (r.taken key).getLast? = some b ∧ r.ledger.buffer.get? key = some b ∧ (key, b) ∈ due) ∧
      (∃ chunk ∈ chunks, key.2 ∈ chunk) ∧
      (Rollup.mode k.Carrier = .additive → ∀ w, r.written key = some w → ∀ first chunk rest,
        chunks = first ++ chunk :: rest → key.2 ∈ chunk →
          (first.foldl (Ledger.writeChunk due) ⟨[], r.ledger.baselines, r.store, none⟩).baselines.get? key = some w) ∧
      ∀ events t, ((start.run events).ledger.flush (start.run events).store t).fault ≠ some .overflow → ∀ key base,
        ((start.run events).step (.flush t)).ledger.baselines.get? key = some base → Live t d base := by
  intro start r key due chunks
  have hretention : ∀ events, (start.run events).ledger.retention? = some d := by
    intro events
    rw [Ledger.retention?, (settings_run start events).1]
    exact hd
  have hrun : r = ((start.run before).step (.accept batch t₁)).run between := List.foldl_append
  have htimely : Live t₁ (start.run before).ledger.window s.record := by
    rw [(settings_run start before).1]
    exact hlive
  obtain ⟨hholds, hmem⟩ := holds_accept hs htimely
  have hnewest : r.Holds key := hrun ▸ hholds.run hquiet
  have htaken : s.record ∈ r.taken key := hrun ▸ (taken_run _ between key).subset hmem
  have hkeyed : r.Keyed := Keyed.run (r := start) (fun _ _ hx => absurd hx List.not_mem_nil) _
  have hstill : Live t₂ d s.record := TimeBucket.not_isExpired_of_double hera₁ hera₂ hd hin hlive
  have hall : ∀ x ∈ r.taken key, Live t₂ d x := fun x hx => hstill.of_id (hkeyed key x hx).symm
  have hlast := List.getLast?_eq_some_getLast (List.ne_nil_of_mem htaken)
  have hdue : (key, (r.taken key).getLast (List.ne_nil_of_mem htaken)) ∈ due :=
    mem_live.2 ⟨hnewest.trans hlast, hall _ (List.getLast_mem _)⟩
  have hbatch : 0 < r.ledger.batchSize := by
    rw [(settings_run start _).2]
    exact Nat.le_max_right batchSize 1
  refine ⟨hstill, htaken, ⟨_, hlast, hnewest.trans hlast, hdue⟩, ?_, fun hmode w hw first chunk rest hsplit hkey => ?_,
    fun events t hends key base hbase => live_of_baseline (hretention events) hends hbase⟩
  · have hid : key.2 ∈ chunks.flatten := by
      rw [Ledger.flatten_chunks_eq hbatch (Nat.le_refl _)]
      exact Ledger.mem_sortedIds.2 ⟨_, hdue, rfl⟩
    exact List.mem_flatten.1 hid
  · have hnone : start.Remembers d t₂ := fun _ _ hwritten => by cases hwritten
    have htimes : flushTimes (before ++ .accept batch t₁ :: between) = flushTimes before := by
      rw [flushTimes, List.filterMap_append]
      exact (congrArg _ hquiet).trans (List.append_nil _)
    have hremembers : r.Remembers d t₂ := hnone.run hmode hd hera₂ (htimes ▸ hclock)
    have hwritten : w ∈ r.taken key := by
      refine (trails_run (trails_create pipeline window batchSize store) _ key).subset ?_
      rw [show (start.run _).written key = some w from hw]
      exact List.mem_append_left _ (List.mem_singleton_self w)
    rw [Ledger.get?_baselines_foldl (r.ledger.nodup_due t₂ d) _ _ hsplit hkey]
    exact hremembers key w hw (hall w hwritten)

/-! ### At the end of the window -/

namespace LedgerRun

/-- A time of the year 2018, in seconds since it began. -/
def in2018 (seconds : Nat) : Instant := ⟨(1514764800 + seconds) * 1000000000⟩

/-- A call at 12:34 is written at 12:44, and its service's next total taken in a minute later. -/
def atTheEnd : List (LedgerEvent ServiceStats) :=
  [.accept [⟨"a", .oneCall⟩] (in2018 45840), .flush (in2018 45840),
    .accept [⟨"a", .merge .oneCall .oneCall⟩] (in2018 45899)]

theorem remembered_in_time_atTheEnd :
    let r := (create ⟨2⟩ (.ofSeconds 600) 2000 .fresh).run atTheEnd
    (Rollup.bucket ServiceStats.oneCall).isExpired (in2018 46499) (.ofSeconds 600) = true ∧
      (∃ b, (("a", ServiceStats.oneCall.id), b) ∈ r.ledger.due (in2018 46499) (.ofSeconds 1200)) ∧
      r.ledger.baselines.get? ("a", ServiceStats.oneCall.id) = some .oneCall := by
  intro r
  have hdouble : (Duration.ofSeconds 600).double? = some (.ofSeconds 1200) := by decide +kernel
  have hlive : Live (in2018 45899) (.ofSeconds 600) (ServiceStats.merge .oneCall .oneCall) := by
    unfold Live
    decide +kernel
  have hera : ∀ seconds < 86400, (in2018 seconds).InEra := by
    intro seconds hlt
    unfold Instant.InEra in2018 millisTo9999
    simp only
    omega
  have hclock : ∀ t ∈ [in2018 45840], t.InEra ∧ t.nanos ≤ (in2018 46499).nanos := by
    intro t ht
    rw [List.mem_singleton.1 ht]
    exact ⟨hera 45840 (by decide), by decide⟩
  obtain ⟨-, -, ⟨b, -, -, hdue⟩, -, hbaseline, -⟩ := remembered_in_time .serviceStats ⟨2⟩ hdouble 2000 .fresh
    [.accept [⟨"a", .oneCall⟩] (in2018 45840), .flush (in2018 45840)] []
    (List.mem_singleton_self (⟨"a", .merge .oneCall .oneCall⟩ : Snapshot ServiceStats)) hlive rfl
    (hera 45899 (by decide)) (hera 46499 (by decide)) hclock (by decide)
  exact ⟨by decide +kernel, ⟨b, hdue⟩,
    hbaseline rfl .oneCall (by decide +kernel) [] [ServiceStats.oneCall.id] [] (by decide +kernel) (by decide +kernel)⟩

end LedgerRun
end TraceRollup
