import TraceRollup.Proofs.FlowCounters
import TraceRollup.Proofs.Moves
import TraceRollup.Proofs.Shutdown

/-!
# Runs of a node

A node that is alone runs several pipelines side by side, whose workers take their steps in any
order. A `NodeRun` is such a node with notes on the sends to its queues and on the alarms that it
raised. Which pipelines there are never changes (`NodeRun.outline_step`). One of three stages is
a site of the node (`Hosts`), and what the others do leaves its counters alone (`Shared.Apart`).
-/

namespace TraceRollup

/-! ### Moves -/

/-- What can happen next. Pipelines and stages are told by their positions. -/
inductive NodeMove
  | submit (kind : RecordKind) (id : PipelineId) (record : kind.Carrier)
  | begin (pipeline stage : Nat) (now : Instant)
  | handOn (pipeline stage : Nat)
  | flush (pipeline : Nat) (now : Instant)
  /-- The next alarm that was raised is offered to its pipeline. -/
  | offer

/-- A record was sent to the queue before a stage, and this was the answer. -/
structure Sending where
  pipeline : Nat
  stage : StageId
  answer : Except Refusal Unit

structure NodeRun where
  node : Node
  hash : PointHash
  /-- The alarms raised, each with the pipeline that it goes to. -/
  raised : List (PipelineId × Alarm) := []
  /-- The answers to those that were offered, in the same order. -/
  offered : List (Except Refusal Unit) := []
  sendings : List Sending := []

namespace Node

/-- What the steps of a node that is alone depend on. -/
def solitude (hash : PointHash) (now : Instant) : Conditions :=
  Cluster.conditions { nodes := [], hash, attached := [], clock := now }

/-- Where the records of a kind enter under a number: the position of the pipeline, and the stage. -/
def entrance? (n : Node) (kind : RecordKind) (id : PipelineId) : Option (Nat × StageId) := do
  let i ← n.position? id
  let a ← n.pipelines[i]?
  let w ← a.pipeline.workers.head?
  if a.kind = kind then some (i, w.stage) else none

/-- The stage to which a worker hands on its next record, and the answer that it gets. -/
def handing? (n : Node) (i j : Nat) : Option (StageId × Except Refusal Unit) := do
  let a ← n.pipelines[i]?
  let w ← a.pipeline.workers[j]?
  let next ← a.pipeline.workers[j + 1]?
  let s ← w.ready.head?
  return (next.stage, (next.queue.send s).1)

end Node

namespace NodeRun

/-- A record is submitted; its answer is noted if there was a queue to take it. -/
def submit (kind : RecordKind) (id : PipelineId) (record : kind.Carrier) (r : NodeRun) : NodeRun :=
  let a := r.node.submit kind id record
  { r with
    node := a.2
    sendings := r.sendings ++ ((r.node.entrance? kind id).map fun e => ⟨e.1, e.2, a.1⟩).toList }

def step (r : NodeRun) : NodeMove → NodeRun
  | .submit kind id record => r.submit kind id record
  | .begin i j now => { r with node := r.node.begin (Node.solitude r.hash now) i j }
  | .handOn i j =>
    { r with
      node := r.node.handOn i j
      sendings := r.sendings ++ ((r.node.handing? i j).map fun h => ⟨i, h.1, h.2⟩).toList }
  | .flush i now =>
    match r.node.flushAt now i with
    | none => r
    | some f => { r with node := f.node, raised := r.raised ++ f.alarms }
  | .offer =>
    match r.raised[r.offered.length]? with
    | none => r
    | some (id, alarm) =>
      { r.submit .alarm id alarm with offered := r.offered ++ [(r.node.submit .alarm id alarm).1] }

/-- The states that a run can get to by moves that are admitted. -/
inductive Reaches (admits : NodeRun → NodeMove → Prop) (start : NodeRun) : NodeRun → Prop
  | refl : Reaches admits start start
  | step {r : NodeRun} (m : NodeMove) (h : Reaches admits start r) (hm : admits r m) : Reaches admits start (r.step m)

/-! ### Shutting down -/

def close (kind : StageKind) (r : NodeRun) : NodeRun := { r with node := r.node.cancel kind }

def Drained (r : NodeRun) (kind : StageKind) : Prop :=
  (r.node.pipelines.all fun a => a.pipeline.workers.all fun w =>
    decide (w.state.kind ≠ kind) || (w.isIdle && w.queue.isEmpty)) = true

instance (r : NodeRun) (kind : StageKind) : Decidable (r.Drained kind) := inferInstanceAs (Decidable (_ = true))

/-- Stages are closed in order, each once the workers of the one before have finished. -/
inductive Closes (admits : NodeRun → NodeMove → Prop) : List StageKind → NodeRun → NodeRun → Prop
  | nil (r : NodeRun) : Closes admits [] r r
  | cons {kind : StageKind} {rest : List StageKind} {r s t : NodeRun} (hreach : Reaches admits (r.close kind) s)
    (hdrained : s.Drained kind) (hrest : Closes admits rest s t) : Closes admits (kind :: rest) r t

def Announced (r : NodeRun) : Prop := r.offered.length = r.raised.length

instance (r : NodeRun) : Decidable r.Announced := inferInstanceAs (Decidable (_ = _))

/-- Ledgers are flushed in order, and the alarms that one raises are offered before the next. -/
inductive Flushes (admits : NodeRun → NodeMove → Prop) : List Nat → NodeRun → NodeRun → Prop
  | nil (r : NodeRun) : Flushes admits [] r r
  | cons {i : Nat} {rest : List Nat} {r s t : NodeRun} {now : Instant} (hflush : admits r (.flush i now))
    (hreach : Reaches admits (r.step (.flush i now)) s) (hannounced : s.Announced) (hrest : Flushes admits rest s t) :
    Flushes admits (i :: rest) r t

/-- A run that ends in a shutdown: the stages are closed and their workers finish, and then all
ledgers are flushed. -/
inductive Stops (admits : NodeRun → NodeMove → Prop) (start : NodeRun) : NodeRun → NodeRun → Prop
  | intro {r s t : NodeRun} (hrun : Reaches admits start r) (hcloses : Closes admits StageKind.closingOrder r s)
    (hannounced : s.Announced) (hflushes : Flushes admits (List.range s.node.pipelines.length) s t) :
    Stops admits start r t

end NodeRun

/-! ### Pipelines of a node -/

namespace Node

/-- What never changes about the pipelines of a node. -/
def outline (n : Node) : List (RecordKind × PipelineId × Option AlarmFeed) :=
  n.pipelines.map fun a => (a.kind, a.id, a.feed)

theorem outline_set {n : Node} {i : Nat} {a b : AnyPipeline} (h : n.pipelines[i]? = some a)
    (hb : (b.kind, b.id, b.feed) = (a.kind, a.id, a.feed)) :
    (n.pipelines.set i b).map (fun a => (a.kind, a.id, a.feed)) = n.outline := by
  obtain ⟨hlt, rfl⟩ := List.getElem?_eq_some_iff.1 h
  have hlen : i < n.outline.length := by rwa [outline, List.length_map]
  have hget : n.outline[i] = (b.kind, b.id, b.feed) := by
    rw [hb]
    exact List.getElem_map _
  rw [List.map_set, ← hget]
  exact List.set_getElem_self hlen

theorem position?_eq (n : Node) (id : PipelineId) :
    n.position? id = n.outline.findIdx? fun o => decide (o.2.1 = id) := by
  rw [outline, List.findIdx?_map]
  rfl

theorem Moved.outline {n m : Node} (h : n.Moved m) : m.outline = n.outline := by
  cases h with
  | elsewhere store shared => rfl
  | pipeline ha hp store shared =>
    refine outline_set ha ?_
    simp only [AnyPipeline.id, hp.id]

theorem submit_cases (n : Node) (kind : RecordKind) (id : PipelineId) (record : kind.Carrier) :
    (∃ j a, n.position? id = some j ∧ n.pipelines[j]? = some a ∧ a.kind = kind) ∨
      (n.submit kind id record).2 = n ∧ n.entrance? kind id = none := by
  unfold submit entrance?
  cases hposition : n.position? id with
  | none => exact Or.inr ⟨rfl, rfl⟩
  | some j =>
    cases ha : n.pipelines[j]? with
    | none => exact Or.inr ⟨by simp [ha], by simp [ha]⟩
    | some a =>
      by_cases hkind : a.kind = kind
      · exact Or.inl ⟨j, a, rfl, ha, hkind⟩
      · exact Or.inr ⟨by simp [ha, dif_neg (Ne.symm hkind)], by simp [ha, hkind]⟩

theorem flushAt_cases {now : Instant} {n : Node} {i : Nat} {f : Flushed} (h : n.flushAt now i = some f) :
    ((∀ a, n.pipelines[i]? = some a → a.pipeline.ledger? = none) ∧ f.node = n ∧ f.alarms = []) ∨
      ∃ a l g, n.pipelines[i]? = some a ∧ a.pipeline.ledger? = some l ∧
        l.flushCounted n.store now n.counters = some g ∧ a.raise? now g.told = some f.alarms ∧
        f.node = { n with
          store := g.store
          shared := { n.shared with counters := countAlarms f.alarms g.counters }
          pipelines := n.pipelines.set i { a with pipeline := a.pipeline.withLedger g.ledger } } := by
  unfold flushAt at h
  cases ha : n.pipelines[i]? with
  | none =>
    rw [ha] at h
    cases h
    exact Or.inl ⟨nofun, rfl, rfl⟩
  | some a =>
    cases hl : a.pipeline.ledger? with
    | none =>
      simp only [ha, hl, Option.some.injEq] at h
      subst h
      exact Or.inl ⟨fun b hb => Option.some.inj hb ▸ hl, rfl, rfl⟩
    | some l =>
      simp only [ha, hl, Option.bind_eq_bind, Option.bind_eq_some_iff, Option.pure_def, Option.some.injEq] at h
      obtain ⟨g, hg, alarms, hraise, rfl⟩ := h
      exact Or.inr ⟨a, l, g, rfl, hl, hg, hraise, rfl⟩

theorem outline_cancel (kind : StageKind) (n : Node) : (n.cancel kind).outline = n.outline := by
  rw [outline, cancel, mapPipelines, List.map_map]
  rfl

end Node

namespace NodeRun

theorem outline_step (r : NodeRun) (m : NodeMove) : (r.step m).node.outline = r.node.outline := by
  cases m with
  | submit kind id record => exact (r.node.moved_submit kind id record).outline
  | begin i j now => exact (r.node.moved_begin _ i j).outline
  | handOn i j => exact (r.node.moved_handOn i j).outline
  | flush i now =>
    simp only [step]
    split
    · rfl
    · rename_i f hf
      exact (r.node.moved_flushAt hf).outline
  | offer =>
    simp only [step]
    split
    · rfl
    · rename_i id alarm hnext
      exact (r.node.moved_submit .alarm id alarm).outline

end NodeRun

/-! ### What pipelines share -/

/-- No series of a tag and not the ring of the members has changed. -/
structure Shared.Apart (hash : PointHash) (tag : String) (sh sh' : Shared) : Prop where
  flow : ∀ x : Series, x.flow? = some tag → sh'.counters.get x = sh.counters.get x
  ring : sh'.router.current hash = sh.router.current hash

namespace Shared.Apart
variable {hash : PointHash} {tag : String} {sh sh' sh'' : Shared}

theorem refl (hash : PointHash) (tag : String) (sh : Shared) : Apart hash tag sh sh := ⟨fun _ _ => rfl, rfl⟩

theorem trans (h : Apart hash tag sh sh') (h' : Apart hash tag sh' sh'') : Apart hash tag sh sh'' :=
  ⟨fun x hx => (h'.flow x hx).trans (h.flow x hx), h'.ring.trans h.ring⟩

theorem count (sh : Shared) (x : Series) (h : x.flow? ≠ some tag) (n : Nat) : Apart hash tag sh (sh.count x n) :=
  ⟨fun _ hy => Counters.get_add_of_ne _ (fun heq => h (heq ▸ hy)) n, rfl⟩

theorem gauge (sh : Shared) (x : Series) (h : x.flow? ≠ some tag) (n : Nat) : Apart hash tag sh (sh.gauge x n) :=
  ⟨fun _ hy => Counters.get_put_of_ne _ (fun heq => h (heq ▸ hy)) n, rfl⟩

theorem countRefusal (sh : Shared) {other : String} (h : other ≠ tag) (stage : StageId) (answer : Except Refusal Unit) :
    Apart hash tag sh (sh.countRefusal other stage answer) := by
  cases answer with
  | ok _ => exact .refl hash tag sh
  | error e =>
    unfold Shared.countRefusal countDropped
    split
    · exact .refl hash tag sh
    · exact .count sh (.dropped other _ _) (fun heq => h (Option.some.inj heq)) 1

end Shared.Apart

namespace Pipeline
variable {α : Type} [Rollup α] {tag : String}

theorem apart_submit (hash : PointHash) (h : Rollup.tag α ≠ tag) (q : Pipeline α) (here : String) (record : α)
    (sh : Shared) : Shared.Apart hash tag sh (q.submit here record sh).2.2 := by
  have hcount : Shared.Apart hash tag sh (sh.count (.submitted (Rollup.tag α)) 1) :=
    .count sh (.submitted _) (fun heq => h (Option.some.inj heq)) 1
  unfold submit
  dsimp only
  split
  · exact hcount
  · exact hcount.trans (.countRefusal _ h _ _)

theorem apart_begin (env : Conditions) (h : Rollup.tag α ≠ tag) (q : Pipeline α) (j : Nat) (sh : Shared) :
    Shared.Apart env.hash tag sh (q.begin env j sh).2 := by
  unfold Pipeline.begin
  split
  · exact .refl env.hash tag sh
  · rename_i w hw
    refine ⟨fun x hx => w.get_begin_of_ne env _ sh ?_ ?_, w.current_begin env _ sh⟩
    · rw [hx]
      exact Option.some_ne_none tag
    · rw [hx]
      exact fun heq => h (Option.some.inj heq).symm

theorem apart_handOn (hash : PointHash) (h : Rollup.tag α ≠ tag) (q : Pipeline α) (j : Nat) (sh : Shared) :
    Shared.Apart hash tag sh (q.handOn j sh).2 := by
  unfold Pipeline.handOn
  split
  · split
    · exact .refl hash tag sh
    · exact (Shared.Apart.countRefusal sh h _ _).trans (.gauge _ (.queueLength _ _) nofun _)
  · exact .refl hash tag sh

end Pipeline

/-! ### Sites of a node -/

/-- A pipeline of three stages in a node, with what it shares with the others. -/
structure Hosts {k : RecordKind} (i : Nat) (p : PipelineId) (n : Node) (s : Site k) : Prop where
  name : n.name = s.name
  store : n.store = s.store
  shared : n.shared = s.shared
  pipeline : ∃ feed, n.pipelines[i]? = some ⟨k, s.pipeline p, feed⟩

namespace Site
variable {k : RecordKind}

/-- Other pipelines have moved: what is of the site's kind was not touched. -/
structure Beside (hash : PointHash) (s t : Site k) : Prop where
  same : t = { s with store := t.store, shared := t.shared }
  shared : s.shared.Apart hash k.tag t.shared
  table : t.store.table k.tag = s.store.table k.tag
  history : ∀ c ∈ s.store.history, c ∈ t.store.history

theorem Beside.refl (hash : PointHash) (s : Site k) : s.Beside hash s := ⟨rfl, .refl hash k.tag _, rfl, fun _ h => h⟩

theorem node_inj {p : PipelineId} {s t : Site k} {q : Pipeline k.Carrier} {sh : Shared}
    (h : { s.node p with pipelines := [⟨k, q, none⟩], shared := sh } = t.node p) :
    q = t.pipeline p ∧ sh = t.shared ∧ s.name = t.name ∧ s.store = t.store := by
  simp only [node, Node.mk.injEq, List.cons.injEq, AnyPipeline.mk.injEq, heq_eq_eq, true_and, and_true] at h
  exact ⟨h.2.2.2.2, h.2.2.2.1, h.1, h.2.2.1⟩

end Site

namespace Hosts
variable {k : RecordKind} {i : Nat} {p : PipelineId} {n : Node} {s : Site k}

theorem moved (h : Hosts i p n s) {t : Site k} {q : Pipeline k.Carrier} {sh : Shared}
    (hinj : { s.node p with pipelines := [⟨k, q, none⟩], shared := sh } = t.node p) {feed : Option AlarmFeed} :
    Hosts i p { n with pipelines := n.pipelines.set i ⟨k, q, feed⟩, shared := sh } t := by
  obtain ⟨_, hpipeline⟩ := h.pipeline
  obtain ⟨hq, hsh, hname, hstore⟩ := Site.node_inj hinj
  have hlt := (List.getElem?_eq_some_iff.1 hpipeline).1
  refine ⟨h.name.trans hname, h.store.trans hstore, hsh, feed, ?_⟩
  rw [List.getElem?_set_self hlt, hq]

theorem begin (h : Hosts i p n s) (env : Conditions) (j : Nat) : Hosts i p (n.begin env i j) (s.begun env p j) := by
  obtain ⟨feed, hpipeline⟩ := h.pipeline
  unfold Node.begin
  rw [hpipeline]
  simp only [h.shared]
  exact h.moved (s.begin_node env p j)

theorem handOn (h : Hosts i p n s) (j : Nat) : Hosts i p (n.handOn i j) (s.handedOn p j) := by
  obtain ⟨feed, hpipeline⟩ := h.pipeline
  unfold Node.handOn
  rw [hpipeline]
  simp only [h.shared]
  exact h.moved (s.handOn_node p j)

theorem submit (h : Hosts i p n s) {id : PipelineId} (hposition : n.position? id = some i) (record : k.Carrier) :
    (n.submit k id record).1 = (s.entry.send ⟨s.name, record⟩).1 ∧
      Hosts i p (n.submit k id record).2 (s.submitted record) := by
  obtain ⟨feed, hpipeline⟩ := h.pipeline
  have hsubmit : (s.pipeline p).submit s.name record s.shared =
      ((s.entry.send ⟨s.name, record⟩).1, (s.submitted record).pipeline p, (s.submitted record).shared) := rfl
  unfold Node.submit
  rw [hposition]
  simp only [hpipeline, dif_pos, h.shared, h.name, hsubmit, true_and]
  exact ⟨rfl, h.store, rfl, feed, List.getElem?_set_self (List.getElem?_eq_some_iff.1 hpipeline).1⟩

theorem entrance? (h : Hosts i p n s) {id : PipelineId} (hposition : n.position? id = some i) :
    n.entrance? k id = some (i, s.entry.stage) := by
  obtain ⟨feed, hpipeline⟩ := h.pipeline
  simp [Node.entrance?, hposition, hpipeline, Site.pipeline, Worker.stage, Site.entryWorker]

theorem ledger_eq (h : Hosts i p n s) {t : Site k} (ht : Hosts i p n t) : s.ledger = t.ledger := by
  obtain ⟨_, hpipeline⟩ := h.pipeline
  obtain ⟨_, hpipeline'⟩ := ht.pipeline
  rw [hpipeline, Option.some.injEq, AnyPipeline.mk.injEq] at hpipeline'
  have hworkers := congrArg Pipeline.workers (eq_of_heq hpipeline'.2.1)
  simp only [Site.pipeline, List.cons.injEq, Site.storingWorker, Worker.mk.injEq, StageState.persist.injEq] at hworkers
  exact hworkers.2.2.1.2.1

theorem cancel (h : Hosts i p n s) (kind : StageKind) : Hosts i p (n.cancel kind) (s.closed kind) := by
  obtain ⟨feed, hpipeline⟩ := h.pipeline
  obtain ⟨hq, hsh, hname, hstore⟩ := Site.node_inj (s.cancel_node p kind)
  refine ⟨h.name.trans hname, h.store.trans hstore, h.shared.trans hsh, feed, ?_⟩
  rw [Node.cancel, Node.mapPipelines, List.getElem?_map, hpipeline, ← hq]
  rfl

theorem elsewhere (h : Hosts i p n s) {m : Node} (hname : m.name = n.name)
    (hpipeline : m.pipelines[i]? = n.pipelines[i]?) :
    Hosts i p m { s with store := m.store, shared := m.shared } := by
  obtain ⟨feed, hsome⟩ := h.pipeline
  exact ⟨hname.trans h.name, rfl, rfl, feed, hpipeline.trans hsome⟩

end Hosts
end TraceRollup
