import TraceRollup.Proofs.SoundCollectors

/-!
# Which settings are beyond the ranges of a collector

The pipelines of a collector are built unless its queues would be too large
(`Collector.run_buildPipelines`). From then on records without negative counters stay so, by all
that the collector does and by every step of its workers (`Collector.Sound.reaches`). So only two
more settings keep it from a result: a window whose double is no duration, and a deadline of the
shutdown that the clock cannot tell (`Collector.ends_within_ranges`).
-/

namespace TraceRollup

/-! ### Durations -/

theorem Duration.double?_eq_none_iff {d : Duration} : d.double? = none ↔ 9223372036854775808000000000 ≤ d.nanos := by
  unfold double? ofNanos?
  split
  · exact ⟨fun h => (by cases h), fun h => by omega⟩
  · exact ⟨fun _ => by omega, fun _ => rfl⟩

theorem Duration.deadline?_eq_none_iff {d : Duration} {now : Nat} :
    d.deadline? now = none ↔ 9223372036854775808000000000 ≤ now + d.nanos := by
  unfold deadline?
  split
  · exact ⟨fun h => (by cases h), fun h => by omega⟩
  · exact ⟨fun _ => by omega, fun _ => rfl⟩

/-! ### Building -/

namespace Pipeline
variable {k : RecordKind}

theorem kinds_create (o : PipelineOptions) (here : String) (id : PipelineId) (kinds : Layout) :
    (Pipeline.create (α := k.Carrier) o here id kinds).kinds = kinds := by
  unfold Pipeline.kinds Pipeline.create
  induction kinds with
  | nil => rfl
  | cons kind rest ih =>
    have hkind : (initialState (α := k.Carrier) o here id rest.head? kind).kind = kind := by cases kind <;> rfl
    simp only [createWorkers, List.map_cons, hkind, ih]

theorem sound_create (o : PipelineOptions) (here : String) (id : PipelineId) {kinds : Layout} (h : .persist ∈ kinds) :
    (Pipeline.create (α := k.Carrier) o here id kinds).Sound o.window := by
  refine ⟨?_, by rwa [kinds_create]⟩
  show ∀ w ∈ createWorkers (α := k.Carrier) o here id kinds, w.Sound o.window
  clear h
  induction kinds with
  | nil => exact fun _ hw => absurd hw List.not_mem_nil
  | cons kind rest ih =>
    intro w hw
    rcases List.mem_cons.1 hw with rfl | hw
    · refine ⟨fun _ hs => absurd hs List.not_mem_nil, ?_, fun _ hm => absurd hm List.not_mem_nil,
        fun _ hs => absurd hs List.not_mem_nil⟩
      cases kind with
      | aggregate => exact Dict.All.empty
      | dispatch => exact trivial
      | persist => exact ⟨rfl, .create id o.window o.batchSize⟩
    · exact ih w hw

end Pipeline

theorem StageQueue.create?_eq_none_iff {α : Type} (stage : StageId) (capacity : Nat) (policy : QueuePolicy) :
    (StageQueue.create? stage capacity policy : Option (StageQueue α)) = none ↔ StageQueue.maxCapacity < capacity := by
  unfold create? maxCapacity
  split
  · exact ⟨fun h => (by cases h), fun h => by omega⟩
  · exact ⟨fun _ => by omega, fun _ => rfl⟩

theorem StageQueue.mapM_create?_eq_none_iff {α : Type} (id : PipelineId) (capacity : Nat) (policy : QueuePolicy)
    {kinds : Layout} (h : kinds ≠ []) :
    (kinds.mapM fun k => (StageQueue.create? (StageId.of id k) capacity policy : Option (StageQueue α))) = none ↔
      StageQueue.maxCapacity < capacity := by
  constructor
  · intro hnone
    by_contra hle
    have hcreate : ∀ k ∈ kinds, ∃ q : StageQueue α,
        StageQueue.create? (StageId.of id k) capacity policy = some q ∧ True := by
      intro k _
      obtain ⟨q, hq⟩ := Option.ne_none_iff_exists'.1 fun hk =>
        hle ((StageQueue.create?_eq_none_iff (StageId.of id k) capacity policy).1 hk)
      exact ⟨q, hq, trivial⟩
    obtain ⟨queues, hqueues, -⟩ := exists_mapM hcreate
    rw [hqueues] at hnone
    cases hnone
  · intro hlt
    obtain ⟨k, rest, rfl⟩ := List.exists_cons_of_ne_nil h
    rw [List.mapM_cons, (StageQueue.create?_eq_none_iff (α := α) (StageId.of id k) capacity policy).2 hlt]
    rfl

/-- Queues that are too large are noticed once the layout is found sound. -/
theorem Node.build?_eq (n : Node) (kind : RecordKind) (id : PipelineId) (kinds : Layout) (feed : Option AlarmFeed) :
    n.build? kind id kinds feed =
      if checkLayout id kinds = .ok () ∧ StageQueue.maxCapacity < n.options.queueCapacity then none
      else some (n.build kind id kinds feed) := by
  unfold Node.build?
  cases hlayout : checkLayout id kinds with
  | error e =>
    rw [if_neg fun h => by cases h.1]
    rfl
  | ok _ =>
    have hne : kinds ≠ [] := fun hnil => by rw [hnil] at hlayout; cases hlayout
    have hqueues := StageQueue.mapM_create?_eq_none_iff (α := Snapshot kind.Carrier) id n.options.queueCapacity
      n.options.policy hne
    by_cases hlt : StageQueue.maxCapacity < n.options.queueCapacity
    · rw [if_pos ⟨rfl, hlt⟩]
      simp only [hqueues.2 hlt]
      rfl
    · rw [if_neg fun h => hlt h.2]
      obtain ⟨queues, hq⟩ := Option.ne_none_iff_exists'.1 (mt hqueues.1 hlt)
      simp only [hq]
      rfl

namespace Collector

theorem build_eq_none (n : Node) (h : StageQueue.maxCapacity < n.options.queueCapacity) (kind : RecordKind)
    (id : PipelineId) (feed : Option AlarmFeed) : n.build? kind id layout feed = none := by
  rw [Node.build?_eq, if_pos ⟨rfl, h⟩]

theorem build_eq_some {n : Node} (h : n.options.queueCapacity ≤ StageQueue.maxCapacity) (kind : RecordKind)
    {id : PipelineId} (hfree : n.contains id = false) (feed : Option AlarmFeed) :
    n.build? kind id layout feed = some (.ok (),
      { n with pipelines := n.pipelines ++ [⟨kind, Pipeline.create n.options n.name id layout, feed⟩] }) := by
  have hlayout : checkLayout id layout = .ok () := rfl
  rw [Node.build?_eq, if_neg fun hbeyond => Nat.not_lt.2 h hbeyond.2]
  simp only [Node.build, hlayout, hfree, Bool.false_eq_true, if_false]

theorem pure_of_built {x : Option (Except BuildError Unit × Node)} {n : Node} (hx : x = some (.ok (), n))
    {f : Except BuildError Unit × Node → ExceptT BuildError Option Node} (hf : f (.ok (), n) = pure n) :
    (liftM x : ExceptT BuildError Option _) >>= f = pure n := by
  subst hx
  exact hf

theorem bind_of_built {x : Option (Except BuildError Unit × Node)} {n : Node} (hx : x = some (.ok (), n))
    {f : Except BuildError Unit × Node → ExceptT BuildError Option Node} (hf : f (.ok (), n) = pure n)
    (next : Node → ExceptT BuildError Option Node) :
    ((liftM x : ExceptT BuildError Option _) >>= f) >>= next = next n := by
  rw [pure_of_built hx hf]
  rfl

theorem run_buildPipelines (rules : Option AlarmRules) {n : Node} (h : n.pipelines = []) :
    (buildPipelines? rules n).run =
      if n.options.queueCapacity ≤ StageQueue.maxCapacity then some (buildPipelines rules n) else none := by
  obtain ⟨name, options, store, shared, pipelines⟩ := n
  cases h
  unfold buildPipelines?
  dsimp only
  split
  · rename_i hle
    refine (congrArg ExceptT.run
      (bind_of_built (build_eq_some (by exact hle) .alarm (by rfl) none) (by rfl) _)).trans ?_
    refine (congrArg ExceptT.run
      (bind_of_built (build_eq_some (by exact hle) .serviceStats (by rfl) _) (by rfl) _)).trans ?_
    refine (congrArg ExceptT.run
      (bind_of_built (build_eq_some (by exact hle) .callSummary (by rfl) none) (by rfl) _)).trans ?_
    exact congrArg ExceptT.run (pure_of_built (build_eq_some (by exact hle) .heartbeat (by rfl) none) (by rfl))
  · rename_i hlt
    rw [build_eq_none _ (Nat.not_le.1 hlt) .alarm alarmPipeline none]
    rfl

theorem exists_buildPipelines (rules : Option AlarmRules) {n : Node} (h : n.pipelines = [])
    (hstore : n.store.Unsigned) : ∃ m, buildPipelines rules n = .ok m ∧ m.Sound n.options 4 := by
  obtain ⟨name, options, store, shared, pipelines⟩ := n
  cases h
  refine ⟨_, rfl, rfl, rfl, fun a ha => ?_, hstore⟩
  have hlayout : StageKind.persist ∈ layout := by decide
  simp only [List.nil_append, List.cons_append, List.mem_cons, List.not_mem_nil, or_false] at ha
  rcases ha with rfl | rfl | rfl | rfl
  · exact Pipeline.sound_create options name alarmPipeline hlayout
  · exact Pipeline.sound_create options name servicePipeline hlayout
  · exact Pipeline.sound_create options name callPipeline hlayout
  · exact Pipeline.sound_create options name heartbeatPipeline hlayout

/-! ### Starting -/

variable {o : PipelineOptions} {c d : Collector}

theorem Sound.startFlushing (h : c.Sound o) : c.startFlushing.Sound o := by
  unfold Collector.startFlushing
  split
  · exact h
  · split
    · exact h
    · exact h

theorem start_spec (cfg : Config) {store : Store} (hstore : store.Unsigned) (clock : Instant) :
    (StageQueue.maxCapacity < cfg.stream.queueCapacity → (start cfg store clock).run = none) ∧
    (cfg.stream.queueCapacity ≤ StageQueue.maxCapacity →
      ∃ c, (start cfg store clock).run = some (.ok c) ∧ c.Sound cfg.pipelineOptions) := by
  have hbuilt : (nodeOf cfg store).run = _ := run_buildPipelines cfg.alarmRules? rfl
  refine ⟨fun hlt => ?_, fun hle => ?_⟩
  · have hnone : nodeOf cfg store = (none : Option (Except BuildError Node)) :=
      hbuilt.trans (if_neg (Nat.not_le.2 hlt))
    unfold start
    rw [hnone]
    rfl
  · obtain ⟨n, hn, hsound⟩ := exists_buildPipelines cfg.alarmRules? (n := {
      name := cfg.cluster.selfAddress
      options := cfg.pipelineOptions
      store
      shared := ⟨{ members := ⟨cfg.clusterNodes, 0⟩, virtualNodes := cfg.cluster.virtualNodes }, .fresh⟩ }) rfl hstore
    have hsome : nodeOf cfg store = (some (.ok n) : Option (Except BuildError Node)) :=
      (hbuilt.trans (if_pos hle)).trans (congrArg some hn)
    unfold start
    rw [hsome]
    refine ⟨_, rfl, Sound.startFlushing ?_⟩
    have hlone : Sound cfg.pipelineOptions {
        cluster := { nodes := [n], hash := Sha256.firstWord, attached := [], clock }
        intake := { parked := ⟨cfg.exchange.maxRetries, cfg.exchange.maxPending, []⟩ } } :=
      ⟨rfl, fun m hm => List.mem_singleton.1 hm ▸ hsound⟩
    split
    · exact hlone.sweepNow _
    · exact hlone

/-! ### Running -/

/-- What a collector is asked to do. -/
inductive Call
  | ingest (segment : Segment)
  | ingestAll (segments : List Segment)
  | retry
  | finish
  | flush
  | shutDown
  | settle
  | sweep (retention : Duration)
  | advance (time : Duration)

def answer? (c : Collector) : Call → Option Collector
  | .ingest segment => (c.ingest segment).map Prod.snd
  | .ingestAll segments => (c.ingestAll segments).map Prod.snd
  | .retry => c.retry.map Prod.snd
  | .finish => c.finish.map Prod.snd
  | .flush => c.flush.map Prod.snd
  | .shutDown => c.shutDown.map Prod.snd
  | .settle => some c.settle
  | .sweep retention => some (c.sweepNow retention)
  | .advance time => c.advance time

/-- The states that a collector gets to, by what it is asked to do and by the steps of its node in
any order. Clocks, timers and the ways to other nodes may change at any time. -/
inductive Reaches (start : Collector) : Collector → Prop
  | refl : Reaches start start
  | call {c d : Collector} (h : Reaches start c) (call : Call) (hd : c.answer? call = some d) : Reaches start d
  | step {c : Collector} {n m : Node} (h : Reaches start c) (hn : c.cluster.nodes = [n]) (hm : n.Step m) :
      Reaches start { c with cluster := { c.cluster with nodes := [m] } }
  | pass {c : Collector} (h : Reaches start c) (clock : Instant) (attached : List String) (stalled : Bool)
      (elapsed : Nat) (timers : List (Timer × Job)) :
      Reaches start { c with elapsed, timers, cluster := { c.cluster with clock, attached, stalled } }

theorem Sound.answer (h : c.Sound o) {call : Call} (hd : c.answer? call = some d) : d.Sound o := by
  cases call with
  | ingest segment =>
    obtain ⟨r, hr, rfl⟩ := Option.map_eq_some_iff.1 hd
    exact h.withIntake (fun _ _ _ hs ht => hs.handle ht) hr
  | ingestAll segments =>
    obtain ⟨r, hr, rfl⟩ := Option.map_eq_some_iff.1 hd
    exact h.withIntake (fun _ _ _ hs ht => hs.ingestAll ht) hr
  | retry =>
    obtain ⟨r, hr, rfl⟩ := Option.map_eq_some_iff.1 hd
    exact h.withIntake (fun _ _ _ hs ht => hs.retry ht) hr
  | finish =>
    obtain ⟨r, hr, rfl⟩ := Option.map_eq_some_iff.1 hd
    exact h.withIntake (fun _ _ _ hs ht => hs.finish ht) hr
  | flush =>
    obtain ⟨r, hr, rfl⟩ := Option.map_eq_some_iff.1 hd
    exact h.flush hr
  | shutDown =>
    obtain ⟨r, hr, rfl⟩ := Option.map_eq_some_iff.1 hd
    exact h.shutDown hr
  | settle =>
    cases hd
    exact h.settle
  | sweep retention =>
    cases hd
    exact h.sweepNow retention
  | advance time => exact h.advance hd

theorem Sound.reaches (h : c.Sound o) (hreach : Reaches c d) : d.Sound o := by
  induction hreach with
  | refl => exact h
  | call _ _ hd ih => exact ih.answer hd
  | @step e n m _ hn hm ih =>
    have hsound := (ih.nodes n (by rw [hn]; exact List.mem_singleton_self n)).step hm
    exact ⟨rfl, fun x hx => List.mem_singleton.1 hx ▸ hsound⟩
  | pass _ _ _ _ _ _ ih => exact ⟨ih.length, ih.nodes⟩

theorem Sound.flush_eq_none_iff (h : c.Sound o) : c.flush = none ↔ c.running = true ∧ o.window.double? = none := by
  have hends := (Cluster.Sound.flush_spec h (k := 0)).2
  unfold Collector.flush
  split
  · rename_i hrunning
    simp only [hrunning, true_and]
    have hpos : c.cluster.flush 0 = none ↔ o.window.double? = none :=
      hends.trans ⟨fun hall => hall.2.2, fun hnone => ⟨Nat.one_pos, Nat.succ_pos 3, hnone⟩⟩
    rw [← hpos]
    cases c.cluster.flush 0 with
    | none => exact ⟨fun _ => rfl, fun _ => rfl⟩
    | some r => exact ⟨fun hnone => (by cases hnone), fun hnone => (by cases hnone)⟩
  · rename_i hstopped
    exact ⟨fun hnone => (by cases hnone), fun hrunning => absurd hrunning.1 hstopped⟩

theorem Sound.shutDown_eq_none_iff (h : c.Sound o) : c.shutDown = none ↔
    c.running = true ∧ (o.shutdownTimeout.deadline? c.elapsed = none ∨ o.window.double? = none) := by
  have hends := (Cluster.Sound.shutDown_spec h (k := 0)).2
  obtain ⟨n, hn, hsound⟩ := h.node
  unfold Collector.shutDown
  split
  · rename_i hrunning
    have hpos : c.cluster.shutDown 0 = none ↔ o.window.double? = none :=
      hends.trans ⟨fun hall => hall.2.2, fun hnone => ⟨Nat.one_pos, Nat.succ_pos 3, hnone⟩⟩
    simp only [hrunning, true_and, hn, Option.bind_eq_bind, Option.bind_some, hsound.options]
    rw [← hpos]
    cases o.shutdownTimeout.deadline? c.elapsed with
    | none => exact ⟨fun _ => Or.inl rfl, fun _ => rfl⟩
    | some deadline =>
      cases c.cluster.shutDown 0 with
      | none => exact ⟨fun _ => Or.inr rfl, fun _ => rfl⟩
      | some r =>
        refine ⟨fun hnone => (by cases hnone), fun hnone => ?_⟩
        rcases hnone with hnone | hnone
        · cases hnone
        · cases hnone
  · rename_i hstopped
    exact ⟨fun hnone => (by cases hnone), fun hrunning => absurd hrunning.1 hstopped⟩

/-- A collector starts from any configuration unless its queues would be too large. In every state
that it then gets to, a flush ends unless the window cannot be doubled, and a shutdown unless that or
the deadline is beyond what the clock tells. Its rows, and the messages that it sends, are again fit
for a collector. -/
theorem ends_within_ranges (cfg : Config) (store : Store) (hstore : store.Unsigned) (clock : Instant) :
    ((start cfg store clock).run = none ↔ 2305843009213693951 < cfg.stream.queueCapacity) ∧
    ((start cfg store clock).run ≠ none → ∃ c, (start cfg store clock).run = some (.ok c)) ∧
    ∀ c d, (start cfg store clock).run = some (.ok c) → Reaches c d →
      (∀ i, d.cluster.flushAt 0 i = none ↔ i < 4 ∧ 9223372036854775808000000000 ≤ cfg.stream.window.nanos) ∧
      (d.flush = none ↔ d.running = true ∧ 9223372036854775808000000000 ≤ cfg.stream.window.nanos) ∧
      (d.shutDown = none ↔ d.running = true ∧
        (9223372036854775808000000000 ≤ d.elapsed + cfg.persistence.shutdownTimeout.nanos ∨
          9223372036854775808000000000 ≤ cfg.stream.window.nanos)) ∧
      d.store.Unsigned ∧ ∀ p m, d.cluster.nextMail? p = some m → m.2.Unsigned := by
  obtain ⟨htoo, hstarts⟩ := start_spec cfg hstore clock
  have hcases := Nat.lt_or_ge StageQueue.maxCapacity cfg.stream.queueCapacity
  refine ⟨⟨fun hnone => ?_, htoo⟩, fun hsome => ?_, fun c d hc hreach => ?_⟩
  · rcases hcases with hlt | hle
    · exact hlt
    · obtain ⟨c, hc, -⟩ := hstarts hle
      rw [hc] at hnone
      cases hnone
  · rcases hcases with hlt | hle
    · exact absurd (htoo hlt) hsome
    · obtain ⟨c, hc, -⟩ := hstarts hle
      exact ⟨c, hc⟩
  · have hsound : d.Sound cfg.pipelineOptions := by
      rcases hcases with hlt | hle
      · rw [htoo hlt] at hc
        cases hc
      · obtain ⟨c', hc', hsound⟩ := hstarts hle
        rw [hc] at hc'
        cases hc'
        exact hsound.reaches hreach
    have hdouble : cfg.pipelineOptions.window.double? = none ↔ _ := Duration.double?_eq_none_iff
    have hdeadline : cfg.pipelineOptions.shutdownTimeout.deadline? d.elapsed = none ↔ _ :=
      Duration.deadline?_eq_none_iff
    refine ⟨fun i => ?_, ?_, ?_, hsound.store, fun p m hm => Cluster.Sound.nextMail hsound hm⟩
    · rw [Cluster.Sound.flushAt_eq_none_iff hsound, hdouble]
      exact ⟨fun hall => hall.2, fun hall => ⟨Nat.one_pos, hall⟩⟩
    · rw [hsound.flush_eq_none_iff, hdouble]
      rfl
    · rw [hsound.shutDown_eq_none_iff, hdouble, hdeadline]
      rfl

end Collector

namespace Config

def modest : Config := { cluster := { selfAddress := "a" } }
def hugeQueue : Config := { modest with stream := { queueCapacity := 18446744073709551615 } }
def longWindow : Config := { modest with stream := { window := .ofSeconds 18446744073709551615 } }
def longTimeout : Config := { modest with persistence := { shutdownTimeout := .ofSeconds 18446744073709551615 } }

end Config

namespace Collector

/-- A call that an application answered. -/
def answered : Segment :=
  { traceSegmentId := "s", applicationCode := "a", applicationId := 1, instanceUuid := "u", instanceId := 1
    spans := [{ spanId := 0, kind := .entry, start := 0, stop := 5, operationId := 1 }] }

theorem ends_within_ranges_modest : ∃ c d, (start .modest .fresh .epoch).run = some (.ok c) ∧
    c.answer? (.ingest answered) = some d ∧ d.flush ≠ none ∧ d.shutDown ≠ none := by
  obtain ⟨hnone, hstarts, hruns⟩ := ends_within_ranges .modest .fresh Store.unsigned_fresh .epoch
  obtain ⟨c, hc⟩ := hstarts (by rw [Ne, hnone]; decide)
  have hingest : ((start .modest .fresh .epoch).run.any fun r => r.toOption.any fun c =>
      (c.answer? (.ingest answered)).any fun d => decide (d.elapsed = 0)) = true := by decide +kernel
  rw [hc] at hingest
  change ((c.answer? (.ingest answered)).any fun d => decide (d.elapsed = 0)) = true at hingest
  obtain ⟨d, hd, helapsed⟩ := (Option.any_eq_true _ _).1 hingest
  obtain ⟨-, hflush, hshutDown, -⟩ := hruns c d hc (.call .refl (.ingest answered) hd)
  refine ⟨c, d, hc, hd, fun hno => ?_, fun hno => ?_⟩
  · exact absurd (hflush.1 hno).2 (by decide)
  · rw [of_decide_eq_true helapsed] at hshutDown
    exact absurd (hshutDown.1 hno).2 (by decide)

/-- Configurations that pass all checks, and of which no collector comes, or one that cannot flush,
or one that cannot be shut down. -/
theorem accepted_beyond_ranges :
    (Config.ofYaml "cluster:\n  self_address: a\nstream:\n  queue_capacity: 18446744073709551615\n" = .ok .hugeQueue ∧
      (start .hugeQueue .fresh .epoch).run = none) ∧
    (Config.ofYaml "cluster:\n  self_address: a\nstream:\n  aggregation_window: 18446744073709551615s\n" =
      .ok .longWindow ∧
      ∃ c, (start .longWindow .fresh .epoch).run = some (.ok c) ∧ c.flush = none ∧ c.shutDown = none) ∧
    (Config.ofYaml "cluster:\n  self_address: a\npersistence:\n  shutdown_timeout: 18446744073709551615s\n" =
      .ok .longTimeout ∧
      ∃ c, (start .longTimeout .fresh .epoch).run = some (.ok c) ∧ c.shutDown = none) := by
  have hqueue : (start .hugeQueue .fresh .epoch).run.isNone = true := by decide +kernel
  have hwindow : ((start .longWindow .fresh .epoch).run.any fun r => r.toOption.any fun c =>
      c.flush.isNone && c.shutDown.isNone) = true := by decide +kernel
  have htimeout : ((start .longTimeout .fresh .epoch).run.any fun r => r.toOption.any fun c =>
      c.shutDown.isNone) = true := by decide +kernel
  refine ⟨⟨by decide +kernel, Option.isNone_iff_eq_none.1 hqueue⟩, ⟨by decide +kernel, ?_⟩, ⟨by decide +kernel, ?_⟩⟩
  · obtain ⟨r, hr, hany⟩ := (Option.any_eq_true _ _).1 hwindow
    cases r with
    | error e => cases hany
    | ok c =>
      obtain ⟨hflush, hshutDown⟩ := Bool.and_eq_true_iff.1 hany
      exact ⟨c, hr, Option.isNone_iff_eq_none.1 hflush, Option.isNone_iff_eq_none.1 hshutDown⟩
  · obtain ⟨r, hr, hany⟩ := (Option.any_eq_true _ _).1 htimeout
    cases r with
    | error e => cases hany
    | ok c => exact ⟨c, hr, Option.isNone_iff_eq_none.1 hany⟩

end Collector
end TraceRollup
