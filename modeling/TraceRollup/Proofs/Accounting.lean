import TraceRollup.Proofs.Turns

/-!
# Accounting for records

Between two stages nothing gets lost unseen: what the counters say went into a pipeline is what
they say came out, what was dropped on the way, and what is still in a queue or in a worker's
hands (`Site.Balanced`). After a shutdown no queue and no worker holds anything, so the counters
balance by themselves (`NodeRun.accounted`).
-/

namespace TraceRollup

/-! ### Figures -/

namespace Counters

def submittedOf (c : Counters) (k : RecordKind) : Nat := c.get (.submitted k.tag)

def processedAt (c : Counters) (k : RecordKind) (p : PipelineId) (stage : StageKind) : Nat :=
  c.get (.processed k.tag (StageId.of p stage).number.toNat)

def droppedAt (c : Counters) (k : RecordKind) (p : PipelineId) (stage : StageKind) (reason : String) : Nat :=
  c.get (.dropped k.tag (StageId.of p stage).number.toNat reason)

def refusedAt (c : Counters) (k : RecordKind) (p : PipelineId) (stage : StageKind) : Nat :=
  c.droppedAt k p stage "queue_saturated" + c.droppedAt k p stage "closed"

/-- Every record that came to a stage was dropped there or came to the next one. -/
structure Accounted (c : Counters) (k : RecordKind) (p : PipelineId) : Prop where
  submitted : c.submittedOf k = c.refusedAt k p .aggregate + c.processedAt k p .aggregate
  aggregated : c.processedAt k p .aggregate =
    c.droppedAt k p .aggregate "late" + c.refusedAt k p .dispatch + c.processedAt k p .dispatch
  dispatched : c.processedAt k p .dispatch = c.refusedAt k p .persist + c.processedAt k p .persist

end Counters

namespace FlowEvent

def submissions : FlowEvent → Nat
  | .sent .aggregate _ => 1
  | .nothing | .sent _ _ | .taken _ _ _ => 0

def processedAt (stage : StageKind) : FlowEvent → Nat
  | .taken here count _ => if here = stage then count else 0
  | .nothing | .sent _ _ => 0

def lateAt (stage : StageKind) : FlowEvent → Nat
  | .taken here _ late => if here = stage then late else 0
  | .nothing | .sent _ _ => 0

def refusedAt (stage : StageKind) : FlowEvent → Nat
  | .sent here (.error _) => if here = stage then 1 else 0
  | .nothing | .sent _ (.ok _) | .taken _ _ _ => 0

end FlowEvent

def Sending.refusedFor (reason : String) (x : Sending) : Bool :=
  match x.answer with
  | .ok _ => false
  | .error e => decide (e.reason = reason)

/-- If the send was refused, then by the queue before the stage. -/
def Sending.ByQueue (x : Sending) : Prop := ∀ e, x.answer = .error e → e = .closed ∨ e = .saturated x.stage

theorem StageId.toNat_inj {p : PipelineId} {i j : StageKind} :
    (StageId.of p i).number.toNat = (StageId.of p j).number.toNat ↔ i = j := by
  rw [StageId.toNat_of, StageId.toNat_of]
  constructor
  · intro h
    exact StageKind.code_injective (by omega)
  · rintro rfl
    rfl

namespace FlowEvent
variable (k : RecordKind) (p : PipelineId) (i : Nat)

theorem adds_submitted (e : FlowEvent) : e.adds k p (.submitted k.tag) = e.submissions := by
  cases e with
  | nothing => rfl
  | sent stage answer => cases stage <;> cases answer <;> simp [adds, submissions, Shared.refusalIn]
  | taken stage count late => simp [adds, submissions]

theorem adds_processed (e : FlowEvent) (stage : StageKind) :
    e.adds k p (.processed k.tag (StageId.of p stage).number.toNat) = e.processedAt stage := by
  cases e with
  | nothing => rfl
  | sent here answer => cases answer <;> simp [adds, processedAt, Shared.refusalIn]
  | taken here count late => simp [adds, processedAt, StageId.toNat_inj, eq_comm]

theorem adds_late {e : FlowEvent} (h : ∀ x ∈ e.sendings i p, x.ByQueue) (stage : StageKind) :
    e.adds k p (.dropped k.tag (StageId.of p stage).number.toNat "late") = e.lateAt stage := by
  cases e with
  | nothing => rfl
  | sent here answer =>
    cases answer with
    | ok _ => simp [adds, lateAt, Shared.refusalIn]
    | error e =>
      have he : e = .closed ∨ e = .saturated (.of p here) := h _ (List.mem_singleton.2 rfl) e rfl
      rcases he with rfl | rfl <;>
        simp [adds, lateAt, Shared.refusalIn, Refusal.reason]
  | taken here count late => simp [adds, lateAt, StageId.toNat_inj, eq_comm]

theorem adds_refused {e : FlowEvent} (h : ∀ x ∈ e.sendings i p, x.ByQueue) (stage : StageKind) :
    e.adds k p (.dropped k.tag (StageId.of p stage).number.toNat "queue_saturated") +
      e.adds k p (.dropped k.tag (StageId.of p stage).number.toNat "closed") = e.refusedAt stage := by
  cases e with
  | nothing => rfl
  | sent here answer =>
    cases answer with
    | ok _ => simp [adds, refusedAt, Shared.refusalIn]
    | error e =>
      have he : e = .closed ∨ e = .saturated (.of p here) := h _ (List.mem_singleton.2 rfl) e rfl
      rcases he with rfl | rfl <;>
        simp [adds, refusedAt, Shared.refusalIn, Refusal.reason, StageId.toNat_inj, eq_comm]
  | taken here count late => simp [adds, refusedAt]

theorem adds_dropped (e : FlowEvent) (stage : StageKind) {reason : String} (h : reason ≠ "late") :
    e.adds k p (.dropped k.tag (StageId.of p stage).number.toNat reason) =
      (e.sendings i p).countP fun x => decide (x.stage = .of p stage) && x.refusedFor reason := by
  cases e with
  | nothing => rfl
  | sent here answer =>
    cases answer with
    | ok _ => simp [adds, sendings, Shared.refusalIn, Sending.refusedFor]
    | error e =>
      have hseries : Series.dropped k.tag (StageId.of p stage).number.toNat reason =
          Series.dropped k.tag (StageId.of p here).number.toNat e.reason ↔ here = stage ∧ e.reason = reason := by
        rw [Series.dropped.injEq, StageId.toNat_inj]
        exact ⟨fun h => ⟨h.2.1.symm, h.2.2.symm⟩, fun h => ⟨rfl, h.1.symm, h.2.symm⟩⟩
      simp [adds, sendings, Shared.refusalIn, Sending.refusedFor, hseries, StageId.of_inj]
  | taken here count late => simp [adds, sendings, h]

end FlowEvent

/-! ### Records in queues and in hands -/

theorem StageQueue.send_cases {α : Type} (q : StageQueue α) (x : α) :
    ((q.send x).1 = .ok () ∧ (q.send x).2.items = q.items ++ [x]) ∨
      ((q.send x).1 = .error .closed ∨ (q.send x).1 = .error (.saturated q.stage)) ∧ (q.send x).2.items = q.items := by
  unfold send
  split
  · exact Or.inr ⟨Or.inl rfl, rfl⟩
  · split
    · exact Or.inr ⟨Or.inr rfl, rfl⟩
    · exact Or.inl ⟨rfl, rfl⟩

theorem StageQueue.length_receiveMany {α : Type} (q : StageQueue α) (n : Nat) :
    (q.receiveMany n).1.length + (q.receiveMany n).2.items.length = q.items.length := by
  rw [← List.length_append, receiveMany, List.take_append_drop]

namespace FlowEvent

theorem refusedAt_send {α : Type} (stage : StageKind) (q : StageQueue α) (x : α) :
    (q.send x).2.items.length + (sent stage (q.send x).1).refusedAt stage = q.items.length + 1 := by
  rcases q.send_cases x with ⟨hanswer, hitems⟩ | ⟨hanswer | hanswer, hitems⟩ <;> simp [refusedAt, hanswer, hitems]

theorem refusedAt_elsewhere {here stage : StageKind} (h : here ≠ stage) (answer : Except Refusal Unit) :
    (sent here answer).refusedAt stage = 0 := by
  cases answer with
  | ok _ => rfl
  | error e => exact if_neg h

end FlowEvent

namespace Site
variable {k : RecordKind}

/-- Records that the first worker has answered and that the second is yet to take. -/
def passing (s : Site k) : Nat := s.answered.length + s.routing.items.length

/-- Records that the second worker has kept and that the last is yet to take. -/
def leaving (s : Site k) : Nat := s.kept.length + s.arrivals.items.length

end Site

namespace Turn
variable {k : RecordKind} {i : Nat} {p : PipelineId} {hash : PointHash} {s t : Site k} {m : NodeMove} {e : FlowEvent}

theorem byQueue (h : Turn i p hash s m e t) (hplaced : s.Placed p) : ∀ x ∈ e.sendings i p, x.ByQueue := by
  have hsend : ∀ {stage : StageKind} {q : StageQueue (Snapshot k.Carrier)} {y : Snapshot k.Carrier},
      q.stage = .of p stage → ∀ x ∈ (FlowEvent.sent stage (q.send y).1).sendings i p, x.ByQueue := by
    intro stage q y hq x hx e he
    obtain rfl := List.mem_singleton.1 hx
    rw [← hq]
    rcases q.send_cases y with ⟨hok, -⟩ | ⟨hclosed | hsaturated, -⟩
    · rw [hok] at he
      cases he
    · rw [hclosed] at he
      exact Or.inl (Except.error.inj he).symm
    · rw [hsaturated] at he
      exact Or.inr (Except.error.inj he).symm
  cases h with
  | submitted _ _ => exact hsend hplaced.entry
  | answered _ => exact hsend hplaced.routing
  | kept _ => exact hsend hplaced.arrivals
  | entry _ _ | routing _ _ | storing _ _ | flushed _ _ _ | beside _ _ => exact nofun

/-- A record that was not refused is in the entry until it is taken. -/
theorem entry_length (h : Turn i p hash s m e t) :
    t.entry.items.length + e.refusedAt .aggregate + e.processedAt .aggregate =
      s.entry.items.length + e.submissions := by
  cases h with
  | submitted id record => exact FlowEvent.refusedAt_send .aggregate s.entry ⟨s.name, record⟩
  | entry now hcan =>
    have htaken := s.entry.length_receiveMany Worker.batchLimit
    simp only [Site.takeEntry, Worker.nextBatch, Site.entryWorker, FlowEvent.refusedAt, FlowEvent.processedAt,
      FlowEvent.submissions, if_true]
    omega
  | answered _ | kept _ =>
    rw [FlowEvent.refusedAt_elsewhere (by decide)]
    rfl
  | routing _ _ | storing _ _ | flushed _ _ _ => rfl
  | beside m h =>
    rw [h.same]
    rfl

/-- A total that was not refused is on its way to the second worker until that takes it. -/
theorem passing_eq (h : Turn i p hash s m e t) :
    t.passing + e.lateAt .aggregate + e.refusedAt .dispatch + e.processedAt .dispatch =
      s.passing + e.processedAt .aggregate := by
  cases h with
  | entry now hcan =>
    have hidle : s.answered = [] := (Worker.idle_of_canBegin hcan).2
    have hlength : (s.totals.acceptBatch s.entryWorker.nextBatch now).1.snapshots.length +
        (s.totals.acceptBatch s.entryWorker.nextBatch now).1.late = s.entryWorker.nextBatch.length :=
      Accumulator.length_acceptAll now (s.totals.evictIfDue now) s.entryWorker.nextBatch
    have hanswered : (s.takeEntry (Node.solitude hash now)).answered =
        (s.totals.acceptBatch s.entryWorker.nextBatch now).1.snapshots := rfl
    have hrouting : (s.takeEntry (Node.solitude hash now)).routing = s.routing := rfl
    simp only [Site.passing, hanswered, hrouting, FlowEvent.lateAt, FlowEvent.refusedAt, FlowEvent.processedAt, hidle,
      if_true, List.length_nil]
    rw [if_neg (by decide)]
    omega
  | routing now hcan =>
    have htaken := s.routing.length_receiveMany Worker.batchLimit
    simp only [Site.passing, Site.keepRouting, Worker.nextBatch, Site.routingWorker, FlowEvent.lateAt,
      FlowEvent.refusedAt, FlowEvent.processedAt, if_true]
    rw [if_neg (by decide), if_neg (by decide)]
    omega
  | @answered x rest hanswered =>
    have hsend := FlowEvent.refusedAt_send .dispatch s.routing x
    simp only [Site.passing, Site.handAnswered, hanswered, List.length_cons, FlowEvent.processedAt, FlowEvent.lateAt]
    omega
  | submitted _ _ | kept _ =>
    rw [FlowEvent.refusedAt_elsewhere (by decide)]
    rfl
  | storing _ _ | flushed _ _ _ => rfl
  | beside m h =>
    rw [h.same]
    rfl

/-- A snapshot that was not refused is on its way to the last worker until that takes it. -/
theorem leaving_eq (h : Turn i p hash s m e t) :
    t.leaving + e.refusedAt .persist + e.processedAt .persist = s.leaving + e.processedAt .dispatch := by
  cases h with
  | routing now hcan =>
    have hidle : s.kept = [] := (Worker.idle_of_canBegin hcan).2
    simp only [Site.leaving, Site.keepRouting, FlowEvent.refusedAt, FlowEvent.processedAt, hidle, if_true,
      List.length_nil]
    rw [if_neg (by decide)]
    omega
  | storing now hcan =>
    have htaken := s.arrivals.length_receiveMany Worker.batchLimit
    simp only [Site.leaving, Site.takeStoring, Worker.nextBatch, Site.storingWorker, FlowEvent.refusedAt,
      FlowEvent.processedAt, if_true]
    rw [if_neg (by decide)]
    omega
  | @kept x rest hkept =>
    have hsend := FlowEvent.refusedAt_send .persist s.arrivals x
    simp only [Site.leaving, Site.handKept, hkept, List.length_cons, FlowEvent.processedAt]
    omega
  | submitted _ _ | answered _ =>
    rw [FlowEvent.refusedAt_elsewhere (by decide)]
    rfl
  | entry _ _ | flushed _ _ _ => rfl
  | beside m h =>
    rw [h.same]
    rfl

end Turn

/-! ### The balance -/

/-- What came to a stage was dropped there, or came to the next one, or is in between. -/
structure Site.Balanced {k : RecordKind} (p : PipelineId) (s : Site k) : Prop where
  entry : s.shared.counters.submittedOf k =
    s.shared.counters.refusedAt k p .aggregate + s.entry.items.length + s.shared.counters.processedAt k p .aggregate
  passing : s.shared.counters.processedAt k p .aggregate = s.shared.counters.droppedAt k p .aggregate "late" +
    s.passing + s.shared.counters.refusedAt k p .dispatch + s.shared.counters.processedAt k p .dispatch
  leaving : s.shared.counters.processedAt k p .dispatch =
    s.leaving + s.shared.counters.refusedAt k p .persist + s.shared.counters.processedAt k p .persist

namespace Turn
variable {k : RecordKind} {i : Nat} {p : PipelineId} {hash : PointHash} {s t : Site k} {m : NodeMove} {e : FlowEvent}

theorem balanced (h : Turn i p hash s m e t) (hplaced : s.Placed p)
    (howner : (s.shared.router.current hash).GivesAllTo hash s.name) (hs : s.Balanced p) : t.Balanced p := by
  have hqueue := h.byQueue hplaced
  have hsubmitted : t.shared.counters.submittedOf k = s.shared.counters.submittedOf k + e.submissions := by
    rw [Counters.submittedOf, h.get hplaced howner rfl, e.adds_submitted]
    rfl
  have hprocessed : ∀ stage, t.shared.counters.processedAt k p stage =
      s.shared.counters.processedAt k p stage + e.processedAt stage := by
    intro stage
    rw [Counters.processedAt, h.get hplaced howner rfl, e.adds_processed]
    rfl
  have hdropped : ∀ stage reason, t.shared.counters.droppedAt k p stage reason =
      s.shared.counters.droppedAt k p stage reason +
        e.adds k p (.dropped k.tag (StageId.of p stage).number.toNat reason) :=
    fun stage reason => h.get hplaced howner rfl
  have hlate : ∀ stage, t.shared.counters.droppedAt k p stage "late" =
      s.shared.counters.droppedAt k p stage "late" + e.lateAt stage := by
    intro stage
    rw [hdropped, FlowEvent.adds_late k p i hqueue]
  have hrefused : ∀ stage, t.shared.counters.refusedAt k p stage =
      s.shared.counters.refusedAt k p stage + e.refusedAt stage := by
    intro stage
    have hadds := FlowEvent.adds_refused k p i hqueue stage
    simp only [Counters.refusedAt, hdropped]
    omega
  have hentry := h.entry_length
  have hpassing := h.passing_eq
  have hleaving := h.leaving_eq
  obtain ⟨h₁, h₂, h₃⟩ := hs
  refine ⟨?_, ?_, ?_⟩ <;> simp only [hsubmitted, hprocessed, hlate, hrefused] <;> omega

end Turn

/-! ### Sends -/

/-- The sends to the queues of a pipeline are counted: each where records enter as submitted, and
each that was refused once, at the stage of the queue that refused it. -/
structure NodeRun.Tallied (k : RecordKind) (i : Nat) (p : PipelineId) (r : NodeRun) : Prop where
  sends : ∀ x ∈ r.sendingsAt i, x.ByQueue ∧ ∃ stage, x.stage = .of p stage
  submitted : r.node.counters.submittedOf k = (r.sendingsAt i).countP fun x => decide (x.stage = .of p .aggregate)
  refused : ∀ stage reason, reason ≠ "late" → r.node.counters.droppedAt k p stage reason =
    (r.sendingsAt i).countP fun x => decide (x.stage = .of p stage) && x.refusedFor reason

namespace FlowEvent

theorem submissions_eq (e : FlowEvent) (i : Nat) (p : PipelineId) :
    e.submissions = (e.sendings i p).countP fun x => decide (x.stage = .of p .aggregate) := by
  cases e with
  | nothing => rfl
  | sent stage answer => cases stage <;> simp [submissions, sendings, StageId.of_inj]
  | taken stage count late => rfl

theorem stage_of_mem_sendings {e : FlowEvent} {i : Nat} {p : PipelineId} {x : Sending} (h : x ∈ e.sendings i p) :
    ∃ stage, x.stage = .of p stage := by
  cases e with
  | nothing => cases h
  | sent stage answer =>
    obtain rfl := List.mem_singleton.1 h
    exact ⟨stage, rfl⟩
  | taken stage count late => cases h

end FlowEvent

theorem NodeRun.Tallied.step {k : RecordKind} {i : Nat} {p : PipelineId} {r next : NodeRun} {s t : Site k} {m : NodeMove}
    {e : FlowEvent} (h : r.Tallied k i p) (hs : Seated i p r s) (hturn : Turn i p r.hash s m e t)
    (hnext : Hosts i p next.node t) (hsendings : next.sendingsAt i = r.sendingsAt i ++ e.sendings i p) :
    next.Tallied k i p := by
  have hget : ∀ x : Series, x.flow? = some k.tag → next.node.counters.get x = r.node.counters.get x + e.adds k p x := by
    intro x hx
    rw [Node.counters, Node.counters, hnext.shared, hs.hosts.shared]
    exact hturn.get hs.placed hs.owner hx
  refine ⟨fun x hx => ?_, ?_, fun stage reason hreason => ?_⟩
  · rw [hsendings, List.mem_append] at hx
    rcases hx with hx | hx
    · exact h.sends x hx
    · exact ⟨hturn.byQueue hs.placed x hx, FlowEvent.stage_of_mem_sendings hx⟩
  · rw [Counters.submittedOf, hget _ rfl, e.adds_submitted, e.submissions_eq i p, hsendings, List.countP_append,
      ← h.submitted]
    rfl
  · rw [Counters.droppedAt, hget _ rfl, e.adds_dropped k p i stage hreason, hsendings, List.countP_append,
      ← h.refused stage reason hreason]
    rfl

/-! ### Runs -/

/-- The counters of a pipeline tell of all records and of all sends. -/
structure Traced {k : RecordKind} (i : Nat) (p : PipelineId) (r : NodeRun) (s : Site k) : Prop where
  balanced : s.Balanced p
  tallied : r.Tallied k i p

theorem preserves_traced {k : RecordKind} (i : Nat) (p : PipelineId) (admits : NodeRun → NodeMove → Prop) :
    Preserves (k := k) i p admits (Traced i p) where
  step _ hs h hturn ht hsendings :=
    ⟨hturn.balanced hs.placed hs.owner h.balanced, h.tallied.step hs hturn ht.hosts hsendings⟩
  close kind hs h _ := by
    refine ⟨?_, h.tallied.sends, h.tallied.submitted, h.tallied.refused⟩
    cases kind <;> exact ⟨h.balanced.entry, h.balanced.passing, h.balanced.leaving⟩

/-- A pipeline of a node that is alone is run in any way and then shut down, so that every worker
finishes. Then its counters account for every record that was submitted and for every send. -/
theorem NodeRun.accounted (k : RecordKind) (i : Nat) (p : PipelineId) (o : PipelineOptions) (store : Store)
    (pipelines : List AnyPipeline) (feed : Option AlarmFeed) (hash : PointHash) (r last : NodeRun)
    (hpipeline : pipelines[i]? = some ⟨k, .create o Node.soleName p Collector.layout, feed⟩)
    (honly : ∀ j a, pipelines[j]? = some a → a.kind = k → j = i)
    (hstops : Stops (fun _ _ => True) { node := { Node.sole o store with pipelines }, hash } r last) :
    last.node.counters.Accounted k p ∧ last.Tallied k i p := by
  have htraced := preserves_traced (k := k) i p fun _ _ => True
  have hstart : Traced i p { node := { Node.sole o store with pipelines }, hash }
      (Site.create k p Node.soleName o store (Node.sole o store).shared) := by
    refine ⟨⟨rfl, rfl, rfl⟩, nofun, rfl, fun _ _ _ => rfl⟩
  obtain ⟨hrun, hcloses, _, hflushes⟩ := hstops
  obtain ⟨s, hs, hs₁, _⟩ := htraced.reaches (.sole hpipeline honly hash) hstart hrun
  obtain ⟨t, ht, ht₂, hfinished⟩ := htraced.closes hs (htraced.close .aggregate hs hs₁ trivial) hcloses
  obtain ⟨u, hu, ⟨hbalanced, htallied⟩, hfinished⟩ := htraced.flushes ht ht₂ hfinished hflushes
  refine ⟨?_, htallied⟩
  have hentry : u.entry.items = [] := (hfinished .aggregate).2.1
  have hanswered : u.answered = [] := (hfinished .aggregate).2.2
  have hrouting : u.routing.items = [] := (hfinished .dispatch).1
  have hkept : u.kept = [] := (hfinished .dispatch).2.2
  have harrivals : u.arrivals.items = [] := hfinished .persist
  obtain ⟨h₁, h₂, h₃⟩ := hbalanced
  rw [Node.counters, hu.hosts.shared]
  simp only [Site.passing, Site.leaving, hentry, hanswered, hrouting, hkept, harrivals, List.length_nil] at h₁ h₂ h₃
  exact ⟨by omega, by omega, by omega⟩

namespace NodeRun

def solitary : NodeRun where
  node := { Node.sole {} .fresh with pipelines := [⟨.serviceStats, .create {} Node.soleName ⟨2⟩ Collector.layout, none⟩] }
  hash _ := 0

/-- A call is submitted before the first stage is closed, and another one after that. -/
def drained : NodeRun :=
  (((((((((solitary.step (.submit .serviceStats ⟨2⟩ .oneCall)).close .aggregate).step
    (.submit .serviceStats ⟨2⟩ .oneCall)).step (.begin 0 0 .epoch)).step (.handOn 0 0)).close .dispatch).step
      (.begin 0 1 .epoch)).step (.handOn 0 1)).close .persist).step (.begin 0 2 .epoch)

theorem stops_drained : ∃ r, Stops (fun _ _ => True) solitary r (drained.step (.flush 0 .epoch)) := by
  have hflushes : Flushes (fun _ _ => True) [0] drained (drained.step (.flush 0 .epoch)) :=
    .cons trivial .refl (by decide +kernel) (.nil _)
  have hlength : [0] = List.range drained.node.pipelines.length := by decide +kernel
  rw [hlength] at hflushes
  refine ⟨_, .intro (.step (.submit .serviceStats ⟨2⟩ .oneCall) .refl trivial)
    (.cons (.step (.handOn 0 0) (.step (.begin 0 0 .epoch) (.step (.submit .serviceStats ⟨2⟩ .oneCall) .refl trivial)
      trivial) trivial) ?_
    (.cons (.step (.handOn 0 1) (.step (.begin 0 1 .epoch) .refl trivial) trivial) ?_
    (.cons (.step (.begin 0 2 .epoch) .refl trivial) ?_ (.nil _)))) ?_ hflushes⟩ <;> decide +kernel

theorem accounted_oneCall : ∃ r last, Stops (fun _ _ => True) solitary r last ∧
    last.node.counters.submittedOf .serviceStats = 2 ∧ last.node.counters.processedAt .serviceStats ⟨2⟩ .persist = 1 ∧
    last.node.counters.refusedAt .serviceStats ⟨2⟩ .aggregate = 1 ∧
    last.node.counters.Accounted .serviceStats ⟨2⟩ ∧ last.Tallied .serviceStats 0 ⟨2⟩ := by
  obtain ⟨r, hstops⟩ := stops_drained
  refine ⟨r, _, hstops, by decide +kernel, by decide +kernel, by decide +kernel,
    accounted .serviceStats 0 ⟨2⟩ {} .fresh _ none (fun _ => 0) r _ rfl (fun j a ha _ => ?_) hstops⟩
  rcases j with _ | j
  · rfl
  · cases ha

end NodeRun
end TraceRollup
