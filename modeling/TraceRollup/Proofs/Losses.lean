import TraceRollup.Proofs.FixedMembership

/-!
# Losses

Whatever a station loses is counted: records that are late, that find no room or whose node
cannot be reached, and what a refused call of the store should have written. Nothing counted is
ever taken back, so a station that is clean at the end of a run was clean all along
(`Station.Clean.of_act`).
-/

namespace TraceRollup

/-! ### Drops -/

/-- No fewer records are counted as dropped. -/
def Counters.Grows (c d : Counters) : Prop :=
  ∀ tag stage reason, c.get (.dropped tag stage reason) ≤ d.get (.dropped tag stage reason)

namespace Counters.Grows

theorem refl (c : Counters) : c.Grows c := fun _ _ _ => Nat.le_refl _

theorem trans {c d e : Counters} (h : c.Grows d) (h' : d.Grows e) : c.Grows e :=
  fun tag stage reason => Nat.le_trans (h tag stage reason) (h' tag stage reason)

theorem add (c : Counters) (s : Series) (n : Nat) : c.Grows (c.add s n) := by
  intro tag stage reason
  rw [Counters.get_add]
  omega

theorem put (c : Counters) {s : Series} (n : Nat) (h : ∀ tag stage reason, Series.dropped tag stage reason ≠ s) :
    c.Grows (c.put s n) := by
  intro tag stage reason
  have hget := Counters.get_put c s (.dropped tag stage reason) n
  rw [if_neg (h tag stage reason)] at hget
  exact Nat.le_of_eq hget.symm

theorem countFlush (tag : String) (r : FlushReport) (c : Counters) : c.Grows (c.countFlush tag r) := by
  unfold Counters.countFlush
  split
  · exact .add _ _ _
  · split
    · exact .add _ _ _
    · exact .refl c

theorem countParcels (outcome : String) (parcels : List Parcel) (c : Counters) :
    c.Grows (Dispatcher.countParcels outcome parcels c) := by
  unfold Dispatcher.countParcels
  induction parcels generalizing c with
  | nil => exact .refl c
  | cons q rest ih => exact (add c _ _).trans (ih _)

theorem ring (hash : PointHash) (r : Router) (c : Counters) : c.Grows (r.ring hash c).counters := by
  unfold Router.ring
  split
  · exact .refl c
  · dsimp only
    split
    · exact .put c _ fun _ _ _ h => by cases h
    · exact .refl c

end Counters.Grows

theorem Ledger.grows_flushCounted {α : Type} [Rollup α] {l : Ledger α} {store : Store} {now : Instant} {c : Counters}
    {f : Ledger.Counted α} (h : l.flushCounted store now c = some f) : c.Grows f.counters := by
  simp only [flushCounted] at h
  split at h
  · cases h
  · cases h
    exact .countFlush _ _ c
  · cases h
    exact .countFlush _ _ c

namespace Shared

theorem grows_countDropped (sh : Shared) (tag : String) (stage : StageId) (reason : String) (n : Nat) :
    sh.counters.Grows (sh.countDropped tag stage reason n).counters := by
  unfold countDropped
  split
  · exact .refl _
  · exact .add _ _ _

theorem le_countDropped (sh : Shared) (tag : String) (stage : StageId) (reason : String) (n : Nat) :
    n ≤ (sh.countDropped tag stage reason n).counters.get (.dropped tag stage.number.toNat reason) := by
  unfold countDropped
  split
  · omega
  · rw [count, Counters.get_add, if_pos rfl]
    omega

theorem grows_countRefusal (sh : Shared) (tag : String) (stage : StageId) (answer : Except Refusal Unit) :
    sh.counters.Grows (sh.countRefusal tag stage answer).counters := by
  cases answer with
  | ok _ => exact .refl _
  | error e => exact sh.grows_countDropped tag stage e.reason 1

end Shared

namespace Worker
variable {α : Type} [Rollup α]

theorem grows_showLength (w : Worker α) (sh : Shared) : sh.counters.Grows (w.showLength sh).counters :=
  .put _ _ fun _ _ _ h => by cases h

/-- A refused record is counted where it was refused. -/
theorem counted_of_refused (w : Worker α) (sh : Shared) (tag : String) (stage : StageId) (e : Refusal) :
    (w.showLength (sh.countRefusal tag stage (.error e))).counters.get (.dropped tag stage.number.toNat e.reason) ≠ 0 := by
  have hle := sh.le_countDropped tag stage e.reason 1
  have hshow := w.grows_showLength (sh.countRefusal tag stage (.error e)) tag stage.number.toNat e.reason
  simp only [Shared.countRefusal] at hshow ⊢
  omega

theorem grows_process (env : Conditions) (s : StageState α) (batch : List (Snapshot α)) (sh : Shared) :
    sh.counters.Grows (s.process env batch sh).2.counters := by
  cases s with
  | aggregate totals => exact .refl _
  | persist ledger => exact .refl _
  | dispatch routing =>
    have hring := Counters.Grows.ring env.hash sh.router sh.counters
    simp only [StageState.process, Dispatcher.route]
    split
    · rename_i h
      exact hring
    · rename_i r h
      split at h
      · cases h
      · cases h
        exact hring.trans ((Counters.Grows.countParcels _ _ _).trans (.countParcels _ _ _))

theorem grows_begin (env : Conditions) (isLast : Bool) (w : Worker α) (sh : Shared) :
    sh.counters.Grows (w.begin env isLast sh).2.counters := by
  unfold begin
  split
  · have hcount : sh.counters.Grows (sh.count (.processed (Rollup.tag α) w.stage.number.toNat)
        (w.queue.receiveMany batchLimit).1.length).counters := .add _ _ _
    have hprocess := hcount.trans (grows_process env w.state (w.queue.receiveMany batchLimit).1 _)
    dsimp only
    generalize w.state.process env (w.queue.receiveMany batchLimit).1 _ = r at hprocess ⊢
    obtain ⟨out, after⟩ := r
    cases out with
    | none => exact hprocess
    | some out =>
      exact hprocess.trans ((after.grows_countDropped _ _ _ _).trans (grows_showLength _ _))
  · exact .refl _

/-- What a stage drops of a batch is counted. -/
theorem counted_of_dropped (env : Conditions) {w : Worker α} (h : w.canBegin = true) (isLast : Bool) (sh : Shared)
    (out : StageOutput α) (hout : (w.state.process env w.nextBatch (w.countBatch sh)).1 = some out) :
    out.dropped ≤ (w.begin env isLast sh).2.counters.get
      (.dropped (Rollup.tag α) w.stage.number.toNat out.reason) := by
  have hpair : w.state.process env w.nextBatch (w.countBatch sh) =
      (some out, (w.state.process env w.nextBatch (w.countBatch sh)).2) := Prod.ext hout rfl
  generalize (w.state.process env w.nextBatch (w.countBatch sh)).2 = after at hpair
  simp only [nextBatch, countBatch] at hpair
  unfold begin
  rw [if_pos h]
  simp only
  rw [hpair]
  exact Nat.le_trans (after.le_countDropped _ _ _ _) (grows_showLength _ _ _ _ _)

end Worker

/-! ### Clean stations -/

/-- Only the queue before the first stage has refused records, and the store no call. -/
structure Station.Clean {k : RecordKind} (p : PipelineId) (s : Station k) : Prop where
  dropped : ∀ stage reason, s.site.shared.counters.get (.dropped k.tag stage reason) ≠ 0 →
    stage = (StageId.of p .aggregate).number.toNat ∧ reason ∈ ["queue_saturated", "closed"]
  answered : ∀ c ∈ s.site.store.history, ¬ c.Refused

namespace Station.Clean
variable {k : RecordKind} {p : PipelineId} {s t : Station k}

theorem of_grows (h : t.Clean p) (hcounters : s.site.shared.counters.Grows t.site.shared.counters)
    (hhistory : ∀ c ∈ s.site.store.history, c ∈ t.site.store.history) : s.Clean p where
  dropped stage reason hne := by
    refine h.dropped stage reason fun hzero => hne ?_
    have hle := hcounters k.tag stage reason
    omega
  answered c hc := h.answered c (hhistory c hc)

/-- Nothing is counted at the later stages. -/
theorem get_eq_zero (h : t.Clean p) {kind : StageKind} (hkind : kind ≠ .aggregate) (reason : String) :
    t.site.shared.counters.get (.dropped k.tag (StageId.of p kind).number.toNat reason) = 0 := by
  by_contra hne
  have hstage := (h.dropped _ _ hne).1
  rw [StageId.toNat_of, StageId.toNat_of] at hstage
  exact hkind (StageKind.code_injective (by omega))

theorem late_eq_zero (h : t.Clean p) (stage : Nat) :
    t.site.shared.counters.get (.dropped k.tag stage "late") = 0 := by
  by_contra hne
  exact absurd (h.dropped _ _ hne).2 (by decide)

/-- A station that is clean after a move was clean before. -/
theorem of_act [Cumulative k.Carrier] {V : Type} [AddCommMonoid V] {A : Account k.Carrier V} {hash : PointHash}
    {ring : HashRing} {good : k.Carrier → Prop} (hs : s.Sound A hash ring good)
    (hready : Ready A s.log.written s.site.ledger.buffer) {m : ClusterMove k} (hm : m.Admissible good s.log)
    (h : (s.act p hash m).Clean p) : s.Clean p := by
  cases m with
  | submit i record =>
    refine h.of_grows ?_ fun c hc => hc
    have hcount : s.site.shared.counters.Grows (s.site.shared.count (.submitted (Rollup.tag k.Carrier)) 1).counters :=
      .add _ _ _
    exact hcount.trans (Shared.grows_countRefusal _ _ _ _)
  | begin i j now attached stalled =>
    have hbegun := s.begun p hash i j now attached stalled
    generalize s.act p hash (.begin i j now attached stalled) = t at h hbegun
    cases hbegun with
    | idle => exact h.of_grows (.refl _) fun c hc => hc
    | entry hcan => exact h.of_grows (s.site.entryWorker.grows_begin _ _ _) fun c hc => hc
    | routing hcan =>
      refine h.of_grows ?_ fun c hc => ?_
      · simp only [Site.takeRouting]
        split <;> exact (s.site.routingWorker p).grows_begin _ _ _
      · simp only [Site.takeRouting]
        split <;> exact hc
    | storing hcan => exact h.of_grows (s.site.storingWorker.grows_begin _ _ _) fun c hc => hc
  | send i j | lose i j =>
    rcases j with _ | _ | j <;> exact h.of_grows (.refl _) fun c hc => hc
  | handOn i j =>
    rcases j with _ | _ | j
    · simp only [act, Site.handedOn] at h
      split at h
      · exact h
      · exact h.of_grows ((Shared.grows_countRefusal _ _ _ _).trans (Worker.grows_showLength _ _)) fun c hc => hc
    · simp only [act, Site.handedOn] at h
      split at h
      · exact h
      · exact h.of_grows ((Shared.grows_countRefusal _ _ _ _).trans (Worker.grows_showLength _ _)) fun c hc => hc
    · exact h
  | flush i now =>
    obtain ⟨hnow, hle⟩ := hm
    simp only [act] at h
    cases hf : s.site.ledger.flushCounted s.site.store now s.site.shared.counters with
    | none =>
      rw [hf] at h
      exact h.of_grows (.refl _) fun c hc => hc
    | some f =>
      rw [hf] at h
      obtain ⟨_, hstore, d, hd⟩ := Ledger.flushCounted_eq_some hf
      obtain ⟨added, hflush⟩ := hs.flushedBooks hready hnow hle hd
      refine h.of_grows (Ledger.grows_flushCounted hf) fun c hc => ?_
      simp only [Site.flushed, hstore, hflush.history]
      exact List.mem_append_right _ hc
  | close i kind =>
    cases kind <;> exact h.of_grows (.refl _) fun c hc => hc

end Station.Clean
end TraceRollup
