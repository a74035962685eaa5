import TraceRollup.Proofs.SoundClusters
import TraceRollup.Service

/-!
# Collectors over records without negative counters

The records that come of segments are those of single calls (`Segment.ofCalls_records`), and the
intake leaves the tables of the store alone (`Segment.beside_resolve`). So a collector keeps its
records without negative counters by all that it does (`Collector.Sound`).
-/

namespace TraceRollup

theorem of_foldlM_eq_some {σ β : Type} {P : σ → Prop} {f : σ → β → Option σ}
    (hf : ∀ s x t, P s → f s x = some t → P t) {xs : List β} {s t : σ} (h : P s) (ht : xs.foldlM f s = some t) :
    P t := by
  induction xs generalizing s with
  | nil =>
    cases ht
    exact h
  | cons x rest ih =>
    rw [List.foldlM_cons] at ht
    obtain ⟨next, hnext, hrest⟩ := Option.bind_eq_some_iff.1 ht
    exact ih (hf s x next h hnext) hrest

/-! ### Intake -/

namespace NameRegistry.Naming

theorem tables_obtain (n : Naming) (space : NameSpace) (name : String) :
    (n.obtain space name).2.store.contents.tables = n.store.contents.tables := by
  have hfind : ∀ s : Store, (s.findName space.name name).2.contents = s.contents := by
    intro s
    unfold Store.findName
    simp only [Store.meet]
    cases s.plan s.history (.find space.name name) <;> rfl
  have hcreate : ∀ s : Store, (s.createName space.name name).2.contents.tables = s.contents.tables := by
    intro s
    unfold Store.createName
    simp only [Store.meet]
    cases s.plan s.history (.create space.name name) <;> rfl
  have hresolve : (n.resolve space name).2.store.contents.tables = n.store.contents.tables := by
    have htables := congrArg Contents.tables (hfind n.store)
    unfold resolve
    split
    · rfl
    · generalize n.store.findName space.name name = found at htables
      obtain ⟨answer, after⟩ := found
      rcases answer with e | id
      · exact htables
      · cases id with
        | none => exact htables
        | some id =>
          dsimp only
          split
          · exact htables
          · exact htables
  have hregister : ∀ m : Naming, (m.register space name).2.store.contents.tables = m.store.contents.tables := by
    intro m
    have htables := hcreate m.store
    unfold register
    generalize m.store.createName space.name name = made at htables
    obtain ⟨answer, after⟩ := made
    cases answer with
    | error e => exact htables
    | ok id =>
      dsimp only
      split
      · exact htables
      · exact htables
  unfold obtain
  generalize n.resolve space name = r at hresolve
  obtain ⟨answer, after⟩ := r
  rcases answer with e | id
  · exact hresolve
  · cases id with
    | none => exact (hregister after).trans hresolve
    | some id => exact hresolve

end NameRegistry.Naming

/-- Resolving has left the tables alone. -/
def Resolution.Beside {α : Type} (n : NameRegistry.Naming) (r : Resolution α) : Prop :=
  r.naming.store.contents.tables = n.store.contents.tables

theorem Resolution.beside_of_obtain {α : Type} {n : NameRegistry.Naming} {r : Resolution α}
    (h : r.naming = n ∨ ∃ space name, r.naming = (n.obtain space name).2) : r.Beside n := by
  unfold Resolution.Beside
  rcases h with h | ⟨space, name, h⟩
  · rw [h]
  · rw [h, n.tables_obtain]

theorem Resolution.Beside.andThen {α : Type} {n : NameRegistry.Naming} {r : Resolution α} (h : r.Beside n)
    {f : α → NameRegistry.Naming → Resolution α} (hf : ∀ a m, (f a m).Beside m) : (r.andThen f).Beside n := by
  unfold Resolution.andThen
  split
  · exact h
  · exact (hf r.value r.naming).trans h

theorem Span.beside_resolve (application : Int32) (s : Span) (n : NameRegistry.Naming) :
    (s.resolve application n).Beside n := by
  refine Resolution.Beside.andThen ?_ fun t m => ?_
  · refine Resolution.beside_of_obtain ?_
    unfold resolvePeer NameRegistry.Naming.addressId
    split
    · refine Or.inr ⟨.address, s.peer, ?_⟩
      split <;> rename_i hobtain <;> rw [hobtain]
    · exact Or.inl rfl
  · refine Resolution.beside_of_obtain ?_
    unfold resolveOperation NameRegistry.Naming.serviceId
    split
    · refine Or.inr ⟨.serviceName, NameRegistry.scopedName application t.operationName, ?_⟩
      split <;> rename_i hobtain <;> rw [hobtain]
    · exact Or.inl rfl

theorem Span.beside_resolveAll (application : Int32) (spans : List Span) (n : NameRegistry.Naming) :
    (resolveAll application spans n).Beside n := by
  induction spans generalizing n with
  | nil => rfl
  | cons s rest ih =>
    have hfirst := s.beside_resolve application n
    unfold resolveAll
    dsimp only
    split
    · exact hfirst
    · exact (ih _).trans hfirst

theorem Segment.beside_resolve (s : Segment) (n : NameRegistry.Naming) : (s.resolve n).Beside n := by
  refine Resolution.Beside.andThen (Resolution.Beside.andThen ?_ fun t m => ?_) fun t m => ?_
  · refine Resolution.beside_of_obtain ?_
    unfold resolveApplication NameRegistry.Naming.applicationId
    split
    · refine Or.inr ⟨.application, s.applicationCode, ?_⟩
      split <;> rename_i hobtain <;> rw [hobtain]
    · exact Or.inl rfl
  · refine Resolution.beside_of_obtain ?_
    unfold resolveInstance NameRegistry.Naming.instanceId
    split
    · refine Or.inr ⟨.agentInstance, NameRegistry.scopedName t.applicationId t.instanceUuid, ?_⟩
      split <;> rename_i hobtain <;> rw [hobtain]
    · exact Or.inl rfl
  · exact Span.beside_resolveAll t.applicationId t.spans m

/-! ### Records of segments -/

/-- The records of a segment are those of single calls. -/
structure SegmentRecords.OfCalls (r : SegmentRecords) : Prop where
  calls : ∀ m ∈ r.calls, m.IsCall
  services : ∀ m ∈ r.services, m.IsCall

theorem Segment.ofCalls_records {s : Segment} {now : Int64} {r : SegmentRecords} (h : s.records? now = some r) :
    r.OfCalls := by
  unfold records? at h
  simp only [Option.bind_eq_bind, Option.bind_eq_some_iff, Option.pure_def, Option.some.injEq] at h
  obtain ⟨calls, hcalls, services, hservices, rfl⟩ := h
  refine ⟨fun m hm => ?_, fun m hm => ?_⟩
  · obtain ⟨wrapped, hwrapped, heq⟩ := List.mem_filterMap.1 hm
    subst heq
    obtain ⟨span, -, hspan⟩ := Books.exists_of_mapM_eq_some hcalls hwrapped
    unfold callOf at hspan
    split at hspan
    · simp only [Option.bind_eq_bind, Option.bind_eq_some_iff, Option.pure_def, Option.some.injEq] at hspan
      obtain ⟨millis, -, rfl⟩ := hspan
      exact ⟨_, _, _, _, _, rfl⟩
    · cases hspan
  · obtain ⟨wrapped, hwrapped, heq⟩ := List.mem_filterMap.1 hm
    subst heq
    obtain ⟨span, -, hspan⟩ := Books.exists_of_mapM_eq_some hservices hwrapped
    unfold serviceOf at hspan
    split at hspan
    · simp only [Option.bind_eq_bind, Option.bind_eq_some_iff, Option.pure_def, Option.some.injEq] at hspan
      obtain ⟨millis, -, rfl⟩ := hspan
      exact ⟨_, _, _, _, _, _, rfl⟩
    · cases hspan

namespace Intake.Session

/-- The rows of the store have no negative counter, and what is offered comes of calls. -/
structure Sound (s : Session) : Prop where
  store : s.store.Unsigned
  offered : ∀ r ∈ s.offered, r.OfCalls

variable {s : Session}

theorem Sound.attempt (h : s.Sound) {segment : Segment} {now : Int64} {r : Attempt × Session}
    (hr : s.attempt segment now = some r) : r.2.Sound ∧ ∀ records, r.1 = .resolved records → records.OfCalls := by
  have htables := segment.beside_resolve ⟨s.intake.registry, s.store⟩
  unfold Session.attempt at hr
  dsimp only at hr
  split at hr
  · cases hr
    exact ⟨⟨h.store.of_tables htables, h.offered⟩, fun _ hrecords => by cases hrecords⟩
  · obtain ⟨records, hrecords, rfl⟩ := Option.map_eq_some_iff.1 hr
    refine ⟨⟨h.store.of_tables htables, h.offered⟩, fun _ heq => ?_⟩
    cases heq
    exact Segment.ofCalls_records hrecords

theorem Sound.handle (h : s.Sound) {segment : Segment} {failed : Nat} {now : Int64} {r : IntakeOutcome × Session}
    (hr : s.handle segment failed now = some r) : r.2.Sound := by
  obtain ⟨⟨attempt, t⟩, ha, rfl⟩ := Option.map_eq_some_iff.1 hr
  obtain ⟨ht, hrecords⟩ := h.attempt ha
  cases attempt with
  | resolved records =>
    refine ⟨ht.store, fun x hx => ?_⟩
    rcases List.mem_append.1 hx with hx | hx
    · exact ht.offered x hx
    · obtain rfl := List.mem_singleton.1 hx
      exact hrecords x rfl
  | unresolved segment =>
    dsimp only [Session.defer]
    split
    · exact ⟨ht.store, ht.offered⟩
    · exact ⟨ht.store, ht.offered⟩

theorem Sound.ingestAll (h : s.Sound) {segments : List Segment} {now : Int64} {r : Nat × Session}
    (hr : s.ingestAll segments now = some r) : r.2.Sound := by
  refine of_foldlM_eq_some (P := fun r : Nat × Session => r.2.Sound) (fun r segment t hs ht => ?_) h hr
  obtain ⟨⟨outcome, u⟩, hu, heq⟩ := Option.bind_eq_some_iff.1 ht
  cases heq
  exact hs.handle hu

theorem Sound.retry (h : s.Sound) {now : Int64} {r : IntakeReport × Session} (hr : s.retry now = some r) :
    r.2.Sound := by
  unfold Session.retry at hr
  dsimp only at hr
  refine of_foldlM_eq_some (P := fun r : IntakeReport × Session => r.2.Sound) (fun r p t hs ht => ?_)
    ⟨h.store, h.offered⟩ hr
  obtain ⟨u, hu, rfl⟩ := Option.map_eq_some_iff.1 ht
  exact Sound.handle (s := r.2.count "retried" 1) ⟨hs.store, hs.offered⟩ hu

theorem Sound.finish (h : s.Sound) {now : Int64} {r : IntakeReport × Session} (hr : s.finish now = some r) :
    r.2.Sound := by
  obtain ⟨⟨report, t⟩, ht, heq⟩ := Option.bind_eq_some_iff.1 hr
  have hsound := h.retry ht
  dsimp only at heq
  split at heq
  · cases heq
    exact ⟨hsound.store, hsound.offered⟩
  · cases heq
    exact ⟨hsound.store, hsound.offered⟩

end Intake.Session

/-! ### Sweeps -/

theorem Store.Unsigned.deleteExpired {s : Store} (h : s.Unsigned) (name : String) (before : UInt64) :
    (s.deleteExpired name before).2.Unsigned := by
  have hpurged : ∀ t : Store, t.contents = (s.contents.deleteExpired name before).1 → t.Unsigned := by
    intro t ht k id row a hrow
    refine h k id row a ?_
    unfold Store.table at hrow ⊢
    rw [ht] at hrow
    unfold Contents.deleteExpired at hrow
    cases htable : s.contents.tables.get? name with
    | none =>
      rw [htable] at hrow
      exact hrow
    | some rows =>
      simp only [htable, Contents.table, Dict.get?_set] at hrow
      unfold Contents.table
      split at hrow
      · rename_i hk
        rw [Option.getD_some, Table.get?_deleteExpired] at hrow
        rw [hk, htable]
        exact (Option.filter_eq_some_iff.1 hrow).1
      · exact hrow
  unfold Store.deleteExpired
  simp only [Store.meet]
  cases s.plan s.history (.delete name) with
  | refuse what => exact h.of_tables rfl
  | answer | findNothing | giveZero => exact hpurged _ rfl

theorem Store.Unsigned.sweep {s : Store} (h : s.Unsigned) (now : Instant) (retention : Duration)
    (targets : List SweepTarget) (c : Counters) : (sweep now retention targets s c).store.Unsigned := by
  have hstep : ∀ (r : SweepResult) (t : SweepTarget), r.store.Unsigned →
      (sweepTable now retention r t).store.Unsigned := by
    intro r t hr
    have hdeleted := hr.deleteExpired t.table (TimeBucket.cutoff now retention t.granularity).value
    unfold sweepTable
    generalize r.store.deleteExpired t.table (TimeBucket.cutoff now retention t.granularity).value = got at hdeleted
    obtain ⟨answer, after⟩ := got
    cases answer with
    | error e => exact hdeleted
    | ok n => exact hdeleted
  exact List.foldlRecOn targets (sweepTable now retention) (b := ⟨0, s, c⟩) (motive := fun r => r.store.Unsigned) h
    fun r hr t _ => hstep r t hr

/-! ### Collectors -/

namespace Collector

/-- The cluster of a collector: one node, which has four pipelines. -/
def Sound (o : PipelineOptions) (c : Collector) : Prop := c.cluster.Sound o 4 1

variable {o : PipelineOptions} {c d : Collector}

theorem Sound.modifyNode (h : c.Sound o) {f : Node → Node} (hf : ∀ n : Node, n.Sound o 4 → (f n).Sound o 4) :
    (c.modifyNode f).Sound o := Cluster.Sound.modifyNode h 0 hf

theorem Sound.node (h : c.Sound o) : ∃ n, c.node? = some n ∧ n.Sound o 4 := by
  obtain ⟨n, hn⟩ := List.length_eq_one_iff.1 h.length
  exact ⟨n, by rw [node?, hn]; rfl, h.nodes n (by rw [hn]; exact List.mem_singleton_self n)⟩

theorem Sound.store (h : c.Sound o) : c.store.Unsigned := by
  obtain ⟨n, hn, hsound⟩ := h.node
  rw [Collector.store, hn]
  exact hsound.store

theorem sound_offer {c : Cluster} (h : c.Sound o 4 1) {r : SegmentRecords} (hr : r.OfCalls) :
    (offer c r).Sound o 4 1 := by
  have hcalls := h.submitAll 0 .callSummary callPipeline fun m hm => RecordKind.unsigned_of_isCall (hr.calls m hm)
  have hservices := hcalls.submitAll 0 .serviceStats servicePipeline
    fun m hm => RecordKind.unsigned_of_isCall (hr.services m hm)
  exact hservices.submitAll 0 .heartbeat heartbeatPipeline fun m _ => RecordKind.unsigned_heartbeat m

theorem Sound.withIntake {β : Type} (h : c.Sound o) {f : Intake.Session → Int64 → Option (β × Intake.Session)}
    (hf : ∀ s now r, s.Sound → f s now = some r → r.2.Sound) {r : β × Collector} (hr : c.withIntake f = some r) :
    r.2.Sound o := by
  obtain ⟨⟨answer, s⟩, hs, heq⟩ := Option.bind_eq_some_iff.1 hr
  have hsound := hf _ _ _ ⟨h.store, fun _ hr => absurd hr List.not_mem_nil⟩ hs
  cases heq
  refine Cluster.Sound.foldl ?_ fun c hc x hx => sound_offer hc (hsound.offered x hx)
  exact Cluster.Sound.modifyNode h 0 fun n hn => hn.step (.elsewhere n _ hsound.store)

theorem Sound.settle (h : c.Sound o) : c.settle.Sound o := Cluster.lasting_sound.settle h

theorem Sound.flush (h : c.Sound o) {r : Option FlushReport × Collector} (hr : c.flush = some r) : r.2.Sound o := by
  unfold Collector.flush at hr
  split at hr
  · obtain ⟨s, hs, heq⟩ := Option.bind_eq_some_iff.1 hr
    cases heq
    exact (Cluster.Sound.flush_spec h).1 s hs
  · cases hr
    exact h

theorem Sound.shutDown (h : c.Sound o) {r : Option FlushReport × Collector} (hr : c.shutDown = some r) :
    r.2.Sound o := by
  unfold Collector.shutDown at hr
  split at hr
  · simp only [Option.bind_eq_bind, Option.bind_eq_some_iff, Option.pure_def, Option.some.injEq] at hr
    obtain ⟨_, _, _, _, s, hs, rfl⟩ := hr
    exact (Cluster.Sound.shutDown_spec h).1 s hs
  · cases hr
    exact h

theorem Sound.sweepNow (h : c.Sound o) (retention : Duration) : (c.sweepNow retention).Sound o :=
  h.modifyNode fun n hn => hn.step (.elsewhere n _ (hn.store.sweep _ _ _ _))

theorem Sound.perform (h : c.Sound o) {job : Job} (hd : c.perform job = some d) : d.Sound o := by
  cases job with
  | flush =>
    obtain ⟨r, hr, heq⟩ := Option.bind_eq_some_iff.1 hd
    cases heq
    exact (h.flush hr).settle
  | retry =>
    obtain ⟨r, hr, heq⟩ := Option.bind_eq_some_iff.1 hd
    cases heq
    exact (h.withIntake (fun _ _ _ hs ht => hs.retry ht) hr).settle
  | sweep retention =>
    cases hd
    exact h.sweepNow retention

theorem Sound.advance (h : c.Sound o) {time : Duration} (hd : c.advance time = some d) : d.Sound o := by
  obtain ⟨s, hs, heq⟩ := Option.bind_eq_some_iff.1 hd
  cases heq
  have hsound := of_foldlM_eq_some (P := Sound o) (fun _ _ _ hc hnext => hc.perform hnext) h hs
  exact ⟨hsound.length, hsound.nodes⟩

end Collector
end TraceRollup
