import TraceRollup.Proofs.Accounting

/-!
# What a site holds

A record that got into a site is found there under its id: in a queue, in a worker's hands, in the
buffer of the ledger, or as a row in the store (`Site.Holds`). A turn in which nothing is lost keeps
it (`Turn.holds`). While stages are closed in their order, later stages refuse nothing as closed
(`Site.Regular`), so what is lost there shows in the counters.
-/

namespace TraceRollup

/-! ### Ids through the totals and the buffer -/

namespace Accumulator
variable {α : Type} [Rollup α] {a : Accumulator α}

def Keyed (a : Accumulator α) : Prop := ∀ key t, a.totals.get? key = some t → Rollup.id t = key

theorem Keyed.evictIfDue (h : a.Keyed) (now : Instant) : (a.evictIfDue now).Keyed := by
  unfold Accumulator.evictIfDue
  split
  · intro key t ht
    simp only [evict, Dict.get?_filter, Option.filter_eq_some_iff] at ht
    exact h key t ht.1
  · exact h

variable [LawfulKey α]

theorem Keyed.accept (h : a.Keyed) (record : α) (now : Instant) : (a.accept record now).2.Keyed ∧
    ∀ total, (a.accept record now).1 = some total → Rollup.id total = Rollup.id record := by
  unfold Accumulator.accept
  split
  · exact ⟨h, fun _ hnone => by cases hnone⟩
  · have hset : ∀ total, Rollup.id total = Rollup.id record → ∀ key t,
        (a.totals.set (Rollup.id record) total).get? key = some t → Rollup.id t = key := by
      intro total htotal key t ht
      rw [Dict.get?_set] at ht
      split at ht
      · rename_i hkey
        cases ht
        rw [hkey, htotal]
      · exact h key t ht
    cases hget : a.totals.get? (Rollup.id record) with
    | none => exact ⟨hset record rfl, fun _ hsome => Option.some.inj hsome ▸ rfl⟩
    | some t =>
      have hid := (LawfulKey.id_merge t record).trans (h _ t hget)
      exact ⟨hset _ hid, fun _ hsome => Option.some.inj hsome ▸ hid⟩

/-- Unless some are late, the answers to a batch have the ids of its records. -/
theorem Keyed.acceptAll (h : a.Keyed) (now : Instant) (batch : List (Snapshot α)) :
    (acceptAll now a batch).2.Keyed ∧ ((acceptAll now a batch).1.late = 0 →
      (acceptAll now a batch).1.snapshots.map (fun x => Rollup.id x.record) = batch.map fun x => Rollup.id x.record) := by
  induction batch generalizing a with
  | nil => exact ⟨h, fun _ => rfl⟩
  | cons x rest ih =>
    obtain ⟨hkeyed, hid⟩ := h.accept x.record now
    obtain ⟨hrest, hids⟩ := ih hkeyed
    simp only [Accumulator.acceptAll]
    cases hanswer : (a.accept x.record now).1 with
    | none => exact ⟨hrest, fun hlate => absurd hlate (Nat.succ_ne_zero _)⟩
    | some total =>
      refine ⟨hrest, fun hlate => ?_⟩
      rw [List.map_cons, List.map_cons, hids hlate, hid total hanswer]

theorem Keyed.acceptBatch (h : a.Keyed) (now : Instant) (batch : List (Snapshot α)) :
    (a.acceptBatch batch now).2.Keyed ∧ ((a.acceptBatch batch now).1.late = 0 →
      (a.acceptBatch batch now).1.snapshots.map (fun x => Rollup.id x.record) = batch.map fun x => Rollup.id x.record) :=
  (h.evictIfDue now).acceptAll now batch

end Accumulator

namespace Ledger
variable {α : Type} [Rollup α]

theorem get?_accept_ne_none {now : Instant} {l : Ledger α} {x : Snapshot α} {key : OriginKey}
    (h : l.buffer.get? key ≠ none ∨
      (Rollup.bucket x.record).isExpired now l.window = false ∧ key = (x.origin, Rollup.id x.record)) :
    (l.accept now x).buffer.get? key ≠ none := by
  unfold accept
  split
  · rename_i hexpired
    exact h.resolve_right fun hr => by rw [hr.1] at hexpired; cases hexpired
  · simp only [Dict.get?_set]
    split
    · exact Option.some_ne_none _
    · rename_i hkey
      exact h.resolve_right fun hr => hkey hr.2

/-- A batch takes nothing out of the buffer, and unless some are late all of it gets in. -/
theorem get?_acceptBatch_ne_none {now : Instant} {l : Ledger α} {batch : List (Snapshot α)} {key : OriginKey}
    (h : l.buffer.get? key ≠ none ∨
      (l.acceptBatch batch now).1 = 0 ∧ ∃ x ∈ batch, key = (x.origin, Rollup.id x.record)) :
    (l.acceptBatch batch now).2.buffer.get? key ≠ none := by
  simp only [acceptBatch, List.countP_eq_zero, Bool.not_eq_true] at h ⊢
  induction batch generalizing l with
  | nil => exact h.resolve_right fun hr => by obtain ⟨_, x, hx, _⟩ := hr; cases hx
  | cons y rest ih =>
    have hwindow : (l.accept now y).window = l.window := (LedgerRun.window_acceptBatch l [y] now).1
    rw [List.foldl_cons]
    refine ih ?_
    rw [hwindow]
    rcases h with h | ⟨hlate, x, hx, hkey⟩
    · exact Or.inl (get?_accept_ne_none (Or.inl h))
    · rcases List.mem_cons.1 hx with rfl | hx
      · exact Or.inl (get?_accept_ne_none (Or.inr ⟨hlate x (List.mem_cons_self ..), hkey⟩))
      · exact Or.inr ⟨fun z hz => hlate z (List.mem_cons_of_mem _ hz), x, hx, hkey⟩

end Ledger

/-! ### What a site holds -/

namespace Site
variable {k : RecordKind}

/-- The records in queues and in hands. -/
def inside (s : Site k) : List (Snapshot k.Carrier) :=
  s.entry.items ++ s.answered ++ s.routing.items ++ s.kept ++ s.arrivals.items

theorem mem_inside {s : Site k} {x : Snapshot k.Carrier} : x ∈ s.inside ↔
    x ∈ s.entry.items ∨ x ∈ s.answered ∨ x ∈ s.routing.items ∨ x ∈ s.kept ∨ x ∈ s.arrivals.items := by
  simp only [inside, List.mem_append, or_assoc]

/-- Totals are kept under their ids, and a later stage is closed after those before it are done. -/
structure Regular (s : Site k) : Prop where
  keyed : s.totals.Keyed
  batch : 0 < s.ledger.batchSize
  routing : s.routing.refusesAll = true → Station.Quiet ⟨s, {}⟩ .aggregate
  arrivals : s.arrivals.refusesAll = true → Station.Quiet ⟨s, {}⟩ .aggregate ∧ Station.Quiet ⟨s, {}⟩ .dispatch

/-- A record of an id is on its way through the site, or stored. -/
def Holds (s : Site k) (id : String) : Prop :=
  (∃ x ∈ s.inside, Rollup.id x.record = id) ∨ (∃ origin, s.ledger.buffer.get? (origin, id) ≠ none) ∨
    (s.store.table k.tag).get? id ≠ none

end Site

/-- Nothing is lost in a turn after the first queue: none is refused there, none is late, no call of
the store is refused, and no snapshot waited for its flush too long. -/
structure Turn.Lossless {k : RecordKind} (i : Nat) (s : Site k) (m : NodeMove) (e : FlowEvent) (t : Site k) : Prop where
  refused : ∀ stage, stage ≠ .aggregate → e.refusedAt stage = 0
  late : ∀ stage, e.lateAt stage = 0
  answered : ∀ c ∈ t.store.history, ¬ c.Refused
  live : ∀ now, m = .flush i now → ∀ d, s.ledger.retention? = some d → ∀ key b, s.ledger.buffer.get? key = some b →
    Live now d b

namespace StageQueue
variable {α : Type}

theorem refusesAll_send (q : StageQueue α) (x : α) : (q.send x).2.refusesAll = q.refusesAll := by
  unfold send
  split
  · rfl
  · split <;> rfl

theorem items_of_not_refused {stage : StageKind} {q : StageQueue α} {x : α}
    (h : (FlowEvent.sent stage (q.send x).1).refusedAt stage = 0) : (q.send x).2.items = q.items ++ [x] := by
  rcases q.send_cases x with ⟨-, hitems⟩ | ⟨hanswer | hanswer, -⟩
  · exact hitems
  · simp [FlowEvent.refusedAt, hanswer] at h
  · simp [FlowEvent.refusedAt, hanswer] at h

theorem mem_receiveMany {q : StageQueue α} {x : α} (h : x ∈ q.items) (n : Nat) :
    x ∈ (q.receiveMany n).1 ∨ x ∈ (q.receiveMany n).2.items := by
  rwa [← List.take_append_drop n q.items, List.mem_append] at h

theorem subset_items_send (q : StageQueue α) (x : α) : q.items ⊆ (q.send x).2.items := by
  rcases q.send_cases x with ⟨-, hitems⟩ | ⟨-, hitems⟩
  · rw [hitems]
    exact List.subset_append_left _ _
  · rw [hitems]
    exact List.Subset.refl _

end StageQueue

theorem Site.holds_submitted {k : RecordKind} {s : Site k} {record : k.Carrier}
    (h : (s.entry.send ⟨s.name, record⟩).1 = .ok ()) : (s.submitted record).Holds (Rollup.id record) := by
  refine Or.inl ⟨⟨s.name, record⟩, mem_inside.2 (Or.inl ?_), rfl⟩
  show _ ∈ (s.entry.send ⟨s.name, record⟩).2.items
  rcases s.entry.send_cases ⟨s.name, record⟩ with ⟨-, hitems⟩ | ⟨hrefused | hrefused, -⟩
  · rw [hitems]
    exact List.mem_append_right _ (List.mem_singleton.2 rfl)
  · rw [hrefused] at h
    cases h
  · rw [hrefused] at h
    cases h

namespace Turn
variable {k : RecordKind} {i : Nat} {p : PipelineId} {hash : PointHash} {s t : Site k} {m : NodeMove} {e : FlowEvent}

theorem doors (h : Turn i p hash s m e t) : t.entry.refusesAll = s.entry.refusesAll ∧
    t.routing.refusesAll = s.routing.refusesAll ∧ t.arrivals.refusesAll = s.arrivals.refusesAll := by
  cases h with
  | submitted id record => exact ⟨StageQueue.refusesAll_send _ _, rfl, rfl⟩
  | answered _ => exact ⟨rfl, StageQueue.refusesAll_send _ _, rfl⟩
  | kept _ => exact ⟨rfl, rfl, StageQueue.refusesAll_send _ _⟩
  | entry _ _ | routing _ _ | storing _ _ | flushed _ _ _ => exact ⟨rfl, rfl, rfl⟩
  | beside m h =>
    rw [h.same]
    exact ⟨rfl, rfl, rfl⟩

theorem keyed (h : Turn i p hash s m e t) (hs : s.totals.Keyed) : t.totals.Keyed := by
  cases h with
  | entry now _ => exact (hs.acceptBatch now s.entryWorker.nextBatch).1
  | submitted _ _ | routing _ _ | storing _ _ | answered _ | kept _ | flushed _ _ _ => exact hs
  | beside m h =>
    rw [h.same]
    exact hs

theorem batchSize (h : Turn i p hash s m e t) : t.ledger.batchSize = s.ledger.batchSize := by
  cases h with
  | storing now _ => exact (LedgerRun.window_acceptBatch s.ledger s.storingWorker.nextBatch now).2.1
  | flushed now hf _ =>
    obtain ⟨hledger, _, d, hd⟩ := Ledger.flushCounted_eq_some hf
    have hsize := (LedgerRun.ledger_flush s.store now hd).2.2
    rwa [← hledger] at hsize
  | submitted _ _ | entry _ _ | routing _ _ | answered _ | kept _ => rfl
  | beside m h => rw [h.same]

theorem regular (h : Turn i p hash s m e t) (hs : s.Regular) : t.Regular := by
  obtain ⟨-, hrouting, harrivals⟩ := h.doors
  have hlater := h.later
  refine ⟨h.keyed hs.keyed, h.batchSize.symm ▸ hs.batch, fun hr => ?_, fun hr => ?_⟩
  · exact hlater.aggregate (hs.routing (hrouting ▸ hr))
  · obtain ⟨haggregate, hdispatch⟩ := hs.arrivals (harrivals ▸ hr)
    exact ⟨hlater.aggregate haggregate, hlater.dispatch haggregate hdispatch⟩

theorem inside (h : Turn i p hash s m e t) (hl : Lossless i s m e t) (hs : s.Regular) {x : Snapshot k.Carrier}
    (hx : x ∈ s.inside) : (∃ y ∈ t.inside, Rollup.id y.record = Rollup.id x.record) ∨
      ∃ origin, t.ledger.buffer.get? (origin, Rollup.id x.record) ≠ none := by
  have hsame : x ∈ t.inside → (∃ y ∈ t.inside, Rollup.id y.record = Rollup.id x.record) ∨
      ∃ origin, t.ledger.buffer.get? (origin, Rollup.id x.record) ≠ none := fun hx => Or.inl ⟨x, hx, rfl⟩
  have hmem := Site.mem_inside.1 hx
  cases h with
  | submitted id record => exact hsame (Site.mem_inside.2 (hmem.imp_left (s.entry.subset_items_send _ ·)))
  | entry now hcan =>
    have hidle : s.answered = [] := (Worker.idle_of_canBegin hcan).2
    rcases hmem with hentry | hanswered | hlater
    · rcases StageQueue.mem_receiveMany hentry Worker.batchLimit with hbatch | hleft
      · have hids := (hs.keyed.acceptBatch now s.entryWorker.nextBatch).2 (hl.late .aggregate)
        have hid : Rollup.id x.record ∈ s.entryWorker.nextBatch.map fun x => Rollup.id x.record :=
          List.mem_map_of_mem hbatch
        -- Each record has its answer, a total under the same id.
        rw [← hids] at hid
        obtain ⟨y, hy, hyid⟩ := List.mem_map.1 hid
        exact Or.inl ⟨y, Site.mem_inside.2 (Or.inr (Or.inl hy)), hyid⟩
      · exact hsame (Site.mem_inside.2 (Or.inl hleft))
    · rw [hidle] at hanswered
      cases hanswered
    · exact hsame (Site.mem_inside.2 (Or.inr (Or.inr hlater)))
  | routing now hcan =>
    have hidle : s.kept = [] := (Worker.idle_of_canBegin hcan).2
    rcases hmem with hentry | hanswered | hrouting | hkept | harrivals
    · exact hsame (Site.mem_inside.2 (Or.inl hentry))
    · exact hsame (Site.mem_inside.2 (Or.inr (Or.inl hanswered)))
    · rcases StageQueue.mem_receiveMany hrouting Worker.batchLimit with hbatch | hleft
      · exact hsame (Site.mem_inside.2 (Or.inr (Or.inr (Or.inr (Or.inl hbatch)))))
      · exact hsame (Site.mem_inside.2 (Or.inr (Or.inr (Or.inl hleft))))
    · rw [hidle] at hkept
      cases hkept
    · exact hsame (Site.mem_inside.2 (Or.inr (Or.inr (Or.inr (Or.inr harrivals)))))
  | storing now hcan =>
    rcases hmem with hentry | hanswered | hrouting | hkept | harrivals
    · exact hsame (Site.mem_inside.2 (Or.inl hentry))
    · exact hsame (Site.mem_inside.2 (Or.inr (Or.inl hanswered)))
    · exact hsame (Site.mem_inside.2 (Or.inr (Or.inr (Or.inl hrouting))))
    · exact hsame (Site.mem_inside.2 (Or.inr (Or.inr (Or.inr (Or.inl hkept)))))
    · rcases StageQueue.mem_receiveMany harrivals Worker.batchLimit with hbatch | hleft
      · exact Or.inr ⟨x.origin, Ledger.get?_acceptBatch_ne_none (Or.inr ⟨hl.late .persist, x, hbatch, rfl⟩)⟩
      · exact hsame (Site.mem_inside.2 (Or.inr (Or.inr (Or.inr (Or.inr hleft)))))
  | @answered y rest hanswered =>
    have hsent := StageQueue.items_of_not_refused (hl.refused .dispatch (by decide))
    refine hsame (Site.mem_inside.2 ?_)
    simp only [Site.handAnswered, hsent, List.mem_append, List.mem_singleton]
    rw [hanswered, List.mem_cons] at hmem
    tauto
  | @kept y rest hkept =>
    have hsent := StageQueue.items_of_not_refused (hl.refused .persist (by decide))
    refine hsame (Site.mem_inside.2 ?_)
    simp only [Site.handKept, hsent, List.mem_append, List.mem_singleton]
    rw [hkept, List.mem_cons] at hmem
    tauto
  | flushed now hf alarms => exact hsame hx
  | beside m h =>
    refine hsame ?_
    rw [h.same]
    exact hx

theorem buffered (h : Turn i p hash s m e t) (hl : Lossless i s m e t) (hs : s.Regular) {origin id : String}
    (hb : s.ledger.buffer.get? (origin, id) ≠ none) :
    t.ledger.buffer.get? (origin, id) ≠ none ∨ (t.store.table k.tag).get? id ≠ none := by
  cases h with
  | storing now hcan => exact Or.inl (Ledger.get?_acceptBatch_ne_none (Or.inl hb))
  | flushed now hf alarms =>
    obtain ⟨b, hb⟩ := Option.ne_none_iff_exists'.1 hb
    obtain ⟨_, _, d, hd⟩ := Ledger.flushCounted_eq_some hf
    exact Or.inr (Ledger.rows_of_flushCounted hs.batch hf hl.answered hd hb (hl.live now rfl d hd _ b hb))
  | submitted _ _ | entry _ _ | routing _ _ | answered _ | kept _ => exact Or.inl hb
  | beside m h =>
    rw [h.same]
    exact Or.inl hb

theorem stored (h : Turn i p hash s m e t) {id : String} (hrow : (s.store.table k.tag).get? id ≠ none) :
    (t.store.table k.tag).get? id ≠ none := by
  cases h with
  | flushed now hf alarms => exact (Ledger.extends_flushCounted hf).rows id hrow
  | submitted _ _ | entry _ _ | routing _ _ | storing _ _ | answered _ | kept _ => exact hrow
  | beside m h => rwa [h.table]

/-- A turn in which nothing is lost keeps what the site holds. -/
theorem holds (h : Turn i p hash s m e t) (hl : Lossless i s m e t) (hs : s.Regular) {id : String} (hid : s.Holds id) :
    t.Holds id := by
  rcases hid with ⟨x, hx, rfl⟩ | ⟨origin, hb⟩ | hrow
  · rcases h.inside hl hs hx with hinside | hbuffer
    · exact Or.inl hinside
    · exact Or.inr (Or.inl hbuffer)
  · rcases h.buffered hl hs hb with hbuffer | hrow
    · exact Or.inr (Or.inl ⟨origin, hbuffer⟩)
    · exact Or.inr (Or.inr hrow)
  · exact Or.inr (Or.inr (h.stored hrow))

theorem history (h : Turn i p hash s m e t) : ∀ c ∈ s.store.history, c ∈ t.store.history := by
  cases h with
  | flushed now hf alarms => exact (Ledger.extends_flushCounted hf).history
  | submitted _ _ | entry _ _ | routing _ _ | storing _ _ | answered _ | kept _ => exact fun _ hc => hc
  | beside m h => exact h.history

theorem stage_of_closed (h : Turn i p hash s m e t) (hs : s.Regular) : ∀ x ∈ e.sendings i p, x.answer = .error .closed →
    x.stage = .of p .aggregate := by
  have hopen : ∀ {q : StageQueue (Snapshot k.Carrier)} {y : Snapshot k.Carrier}, (q.send y).1 = .error .closed →
      q.refusesAll = true := by
    intro q y hclosed
    unfold StageQueue.send at hclosed
    split at hclosed
    · assumption
    · split at hclosed <;> cases hclosed
  intro x hx hclosed
  cases h with
  | submitted id record => exact congrArg Sending.stage (List.mem_singleton.1 hx)
  | answered hanswered =>
    obtain rfl := List.mem_singleton.1 hx
    have hquiet := (hs.routing (hopen hclosed)).2.2
    rw [hanswered] at hquiet
    cases hquiet
  | kept hkept =>
    obtain rfl := List.mem_singleton.1 hx
    have hquiet := (hs.arrivals (hopen hclosed)).2.2.2
    rw [hkept] at hquiet
    cases hquiet
  | entry _ _ | routing _ _ | storing _ _ | flushed _ _ _ | beside _ _ => cases hx

end Turn

/-! ### Runs without faults -/

/-- The store refused no call, and no record of a pipeline met a full queue or was late. -/
structure Node.Faultless (n : Node) (k : RecordKind) (p : PipelineId) : Prop where
  answered : ∀ c ∈ n.store.history, ¬ c.Refused
  unsaturated : ∀ stage, n.counters.droppedAt k p stage "queue_saturated" = 0
  punctual : ∀ stage, n.counters.droppedAt k p stage "late" = 0

theorem Node.Faultless.of_close {r : NodeRun} {kind : StageKind} {k : RecordKind} {p : PipelineId}
    (h : (r.close kind).node.Faultless k p) : r.node.Faultless k p := ⟨h.answered, h.unsaturated, h.punctual⟩

/-- A flush of a pipeline finds no snapshot that waited for it too long. -/
def NodeRun.InTime (p : PipelineId) (r : NodeRun) : NodeMove → Prop
  | .flush i now => ∀ a ∈ r.node.pipelines[i]?, a.id = p → ∀ l ∈ a.pipeline.ledger?, ∀ d ∈ l.retention?,
      ∀ e ∈ l.buffer.toList, Live now d e.2
  | .submit _ _ _ | .begin _ _ _ | .handOn _ _ | .offer => True

namespace Seated
variable {k : RecordKind} {i : Nat} {p : PipelineId} {r next : NodeRun} {s t : Site k} {m : NodeMove} {e : FlowEvent}

theorem dropped (h : Seated i p r s) (hturn : Turn i p r.hash s m e t) (ht : Seated i p next t) (stage : StageKind)
    (reason : String) : next.node.counters.droppedAt k p stage reason = r.node.counters.droppedAt k p stage reason +
      e.adds k p (.dropped k.tag (StageId.of p stage).number.toNat reason) := by
  rw [Node.counters, Node.counters, ht.hosts.shared, h.hosts.shared]
  exact hturn.get h.placed h.owner rfl

theorem faultless (h : Seated i p r s) (hturn : Turn i p r.hash s m e t) (ht : Seated i p next t)
    (hnext : next.node.Faultless k p) : r.node.Faultless k p where
  answered c hc := by
    rw [h.hosts.store] at hc
    exact hnext.answered c (ht.hosts.store ▸ hturn.history c hc)
  unsaturated stage := by
    have hdropped := h.dropped hturn ht stage "queue_saturated"
    rw [hnext.unsaturated stage] at hdropped
    omega
  punctual stage := by
    have hdropped := h.dropped hturn ht stage "late"
    rw [hnext.punctual stage] at hdropped
    omega

theorem lossless (h : Seated i p r s) (hs : s.Regular) (hturn : Turn i p r.hash s (r.actual m) e t)
    (ht : Seated i p next t) (hintime : r.InTime p m) (hnext : next.node.Faultless k p) :
    Turn.Lossless i s (r.actual m) e t where
  refused stage hstage := by
    have hqueue := hturn.byQueue h.placed
    have hsaturated := h.dropped hturn ht stage "queue_saturated"
    rw [hnext.unsaturated stage] at hsaturated
    have hclosed : e.adds k p (.dropped k.tag (StageId.of p stage).number.toNat "closed") = 0 := by
      rw [e.adds_dropped k p i stage (by decide), List.countP_eq_zero]
      intro x hx hrefused
      simp only [Bool.and_eq_true, decide_eq_true_eq] at hrefused
      obtain ⟨hstage', hreason⟩ := hrefused
      cases hanswer : x.answer with
      | ok _ => simp [Sending.refusedFor, hanswer] at hreason
      | error refusal =>
        rcases hqueue x hx refusal hanswer with rfl | rfl
        · rw [hturn.stage_of_closed hs x hx hanswer, StageId.of_inj] at hstage'
          exact hstage hstage'.2.symm
        · simp [Sending.refusedFor, hanswer, Refusal.reason] at hreason
    have hrefused := FlowEvent.adds_refused k p i hqueue stage
    omega
  late stage := by
    have hlate := h.dropped hturn ht stage "late"
    rw [hnext.punctual stage, FlowEvent.adds_late k p i (hturn.byQueue h.placed)] at hlate
    omega
  answered c hc := hnext.answered c (ht.hosts.store ▸ hc)
  live now hm d hd key b hb := by
    have hflush : m = .flush i now := by
      cases m with
      | offer =>
        simp only [NodeRun.actual] at hm
        split at hm <;> cases hm
      | submit | begin | handOn | flush => exact hm
    obtain ⟨feed, hpipeline⟩ := h.hosts.pipeline
    subst hflush
    exact hintime _ hpipeline rfl s.ledger rfl d hd (key, b) ((Entries.find_eq_some_iff s.ledger.buffer.distinct).1 hb)

end Seated
end TraceRollup
