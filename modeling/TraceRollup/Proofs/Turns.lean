import TraceRollup.Proofs.NodeRun
import TraceRollup.Proofs.Writes

/-!
# Turns of a site

What a node does next is a turn of each of its sites: a step of the site's own pipeline, or one
beside it (`Turn`). Either way at most one thing happens to the records of the site, and the
counters tell which (`Turn.get`).
-/

namespace TraceRollup

/-! ### Events -/

/-- What happens to the records of a pipeline. -/
inductive FlowEvent
  | nothing
  /-- A record is sent to the queue before a stage. -/
  | sent (stage : StageKind) (answer : Except Refusal Unit)
  /-- A worker takes a batch. -/
  | taken (stage : StageKind) (count late : Nat)

namespace FlowEvent

/-- What an event adds to a series. -/
def adds (k : RecordKind) (p : PipelineId) (x : Series) : FlowEvent → Nat
  | .nothing => 0
  | .sent stage answer =>
    (if stage = .aggregate ∧ x = .submitted k.tag then 1 else 0) + Shared.refusalIn k.tag (.of p stage) x answer
  | .taken stage count late =>
    (if x = .processed k.tag (StageId.of p stage).number.toNat then count else 0) +
      if x = .dropped k.tag (StageId.of p stage).number.toNat "late" then late else 0

def sendings (i : Nat) (p : PipelineId) : FlowEvent → List Sending
  | .sent stage answer => [⟨i, .of p stage, answer⟩]
  | .nothing | .taken _ _ _ => []

end FlowEvent

/-! ### Turns -/

namespace Site
variable {k : RecordKind}

/-- The second worker of a node that owns every key takes a batch. -/
def keepRouting (env : Conditions) (p : PipelineId) (s : Site k) : Site k :=
  { s with
    routing := (s.routing.receiveMany Worker.batchLimit).2
    mail := []
    kept := (s.routingWorker p).nextBatch
    shared := ((s.routingWorker p).begin env false s.shared).2 }

theorem takeRouting_of_givesAll {env : Conditions} {p : PipelineId} {s : Site k}
    (howner : (s.shared.router.current env.hash).GivesAllTo env.hash s.name) :
    s.takeRouting env p = s.keepRouting env p := by
  have hbundles :
      (s.dispatcher p).bundles env.hash (s.shared.router.current env.hash) (s.routingWorker p).nextBatch = [] :=
    Dispatcher.bundles_of_givesAll howner _
  have hkept : (s.routingWorker p).nextBatch.filter (fun x =>
      ((s.dispatcher p).foreignOwner? env.hash (s.shared.router.current env.hash) x).isNone) =
        (s.routingWorker p).nextBatch :=
    List.filter_eq_self.2 fun x _ => by rw [Dispatcher.foreignOwner?_of_givesAll howner]; rfl
  simp only [takeRouting, hbundles, hkept, List.any_nil, Bool.false_eq_true, if_false]
  rfl

theorem process_of_givesAll {env : Conditions} {p : PipelineId} {s : Site k} {batch : List (Snapshot k.Carrier)}
    {sh : Shared} (howner : (sh.router.current env.hash).GivesAllTo env.hash s.name) :
    (StageState.process env (.dispatch (s.dispatcher p)) batch sh).1 =
      some { state := .dispatch (s.dispatcher p), forward := batch, reason := "remote_unreachable", dropped := 0 } := by
  have hbundles : (s.dispatcher p).bundles env.hash (sh.router.current env.hash) batch = [] :=
    Dispatcher.bundles_of_givesAll howner batch
  have hkept : batch.filter (fun x =>
      ((s.dispatcher p).foreignOwner? env.hash (sh.router.current env.hash) x).isNone) = batch :=
    List.filter_eq_self.2 fun x _ => by rw [Dispatcher.foreignOwner?_of_givesAll howner]; rfl
  rw [StageState.process_dispatch, Dispatcher.split_eq, hbundles, hkept]
  rfl

end Site

/-- A site before and after a move of its node, and what happens to its records. -/
inductive Turn {k : RecordKind} (i : Nat) (p : PipelineId) (hash : PointHash) (s : Site k) :
    NodeMove → FlowEvent → Site k → Prop
  | submitted (id : PipelineId) (record : k.Carrier) :
    Turn i p hash s (.submit k id record) (.sent .aggregate (s.entry.send ⟨s.name, record⟩).1) (s.submitted record)
  | entry (now : Instant) (hcan : s.entryWorker.canBegin = true) :
    Turn i p hash s (.begin i 0 now)
      (.taken .aggregate s.entryWorker.nextBatch.length (s.totals.acceptBatch s.entryWorker.nextBatch now).1.late)
      (s.takeEntry (Node.solitude hash now))
  | routing (now : Instant) (hcan : (s.routingWorker p).canBegin = true) :
    Turn i p hash s (.begin i 1 now) (.taken .dispatch (s.routingWorker p).nextBatch.length 0)
      (s.keepRouting (Node.solitude hash now) p)
  | storing (now : Instant) (hcan : s.storingWorker.canBegin = true) :
    Turn i p hash s (.begin i 2 now)
      (.taken .persist s.storingWorker.nextBatch.length (s.ledger.acceptBatch s.storingWorker.nextBatch now).1)
      (s.takeStoring (Node.solitude hash now))
  | answered {x : Snapshot k.Carrier} {rest : List (Snapshot k.Carrier)} (h : s.answered = x :: rest) :
    Turn i p hash s (.handOn i 0) (.sent .dispatch (s.routing.send x).1) (s.handAnswered x rest)
  | kept {x : Snapshot k.Carrier} {rest : List (Snapshot k.Carrier)} (h : s.kept = x :: rest) :
    Turn i p hash s (.handOn i 1) (.sent .persist (s.arrivals.send x).1) (s.handKept p x rest)
  | flushed (now : Instant) {f : Ledger.Counted k.Carrier}
    (hf : s.ledger.flushCounted s.store now s.shared.counters = some f) (alarms : List (PipelineId × Alarm)) :
    Turn i p hash s (.flush i now) .nothing
      { s.flushed f with shared := { s.shared with counters := Node.countAlarms alarms f.counters } }
  | beside (m : NodeMove) {t : Site k} (h : s.Beside hash t) : Turn i p hash s m .nothing t

namespace Turn
variable {k : RecordKind} {i : Nat} {p : PipelineId} {hash : PointHash} {s t : Site k} {m : NodeMove} {e : FlowEvent}

/-- What is counted of the site's records in a turn. -/
theorem get (h : Turn i p hash s m e t) (hplaced : s.Placed p)
    (howner : (s.shared.router.current hash).GivesAllTo hash s.name) {x : Series} (hx : x.flow? = some k.tag) :
    t.shared.counters.get x = s.shared.counters.get x + e.adds k p x := by
  have hflow : x.flow? ≠ none := fun heq => by rw [heq] at hx; cases hx
  cases h with
  | submitted id record =>
    have hrefusal := Shared.get_countRefusal (s.shared.count (.submitted k.tag) 1) k.tag s.entry.stage
      (s.entry.send ⟨s.name, record⟩).1 x
    rw [Shared.count, Counters.get_add] at hrefusal
    rw [FlowEvent.adds, ← Nat.add_assoc, ← hplaced.entry]
    simp only [true_and]
    exact hrefusal
  | entry now hcan =>
    have hbegin := Worker.get_begin_of_output (Node.solitude hash now) hcan false s.shared _ rfl hflow
    rw [show s.entryWorker.stage = _ from hplaced.entry, Nat.add_assoc] at hbegin
    exact hbegin
  | routing now hcan =>
    have hbegin := Worker.get_begin_of_output (Node.solitude hash now) hcan false s.shared _
      (Site.process_of_givesAll howner) hflow
    rw [show (s.routingWorker p).stage = _ from hplaced.routing] at hbegin
    rw [FlowEvent.adds, ite_self, Nat.add_zero]
    exact hbegin.trans (by rw [ite_self, Nat.add_zero]; rfl)
  | storing now hcan =>
    have hbegin := Worker.get_begin_of_output (Node.solitude hash now) hcan true s.shared _ rfl hflow
    rw [show s.storingWorker.stage = _ from hplaced.arrivals, Nat.add_assoc] at hbegin
    exact hbegin
  | @answered y rest h =>
    have hrefusal := s.shared.get_countRefusal k.tag s.routing.stage (s.routing.send y).1 x
    rw [FlowEvent.adds, if_neg (fun h => by cases h.1), Nat.zero_add, ← hplaced.routing, ← hrefusal]
    exact s.entryWorker.get_showLength _ hflow
  | @kept y rest h =>
    have hrefusal := s.shared.get_countRefusal k.tag s.arrivals.stage (s.arrivals.send y).1 x
    rw [FlowEvent.adds, if_neg (fun h => by cases h.1), Nat.zero_add, ← hplaced.arrivals, ← hrefusal]
    exact (s.routingWorker p).get_showLength _ hflow
  | flushed now hf alarms =>
    rw [FlowEvent.adds, Nat.add_zero, ← Ledger.get_flushCounted hflow hf]
    exact Counters.get_countAlarms hflow alarms _
  | beside m h => exact h.shared.flow x hx

theorem same (h : Turn i p hash s m e t) : s.Same t := by
  cases h with
  | submitted id record => exact { Site.Same.refl s with entry := StageQueue.stage_send _ _ }
  | entry now _ | routing now _ | storing now _ | flushed now _ _ => exact ⟨rfl, rfl, rfl, rfl⟩
  | answered _ => exact { Site.Same.refl s with routing := StageQueue.stage_send _ _ }
  | kept _ => exact { Site.Same.refl s with arrivals := StageQueue.stage_send _ _ }
  | beside m h =>
    rw [h.same]
    exact ⟨rfl, rfl, rfl, rfl⟩

theorem ring (h : Turn i p hash s m e t) : t.shared.router.current hash = s.shared.router.current hash := by
  cases h with
  | submitted id record => exact congrArg (Router.current hash) (Shared.router_countRefusal _ _ _ _)
  | entry now _ => exact Worker.current_begin (Node.solitude hash now) false s.entryWorker s.shared
  | routing now _ => exact Worker.current_begin (Node.solitude hash now) false (s.routingWorker p) s.shared
  | storing now _ => exact Worker.current_begin (Node.solitude hash now) true s.storingWorker s.shared
  | answered _ | kept _ => exact congrArg (Router.current hash) (Shared.router_countRefusal _ _ _ _)
  | flushed now _ _ => rfl
  | beside m h => exact h.shared.ring

theorem still (h : Turn i p hash s m e t) (hs : s.mail = [] ∧ s.stuck = false) : t.mail = [] ∧ t.stuck = false := by
  cases h with
  | routing now _ => exact ⟨rfl, hs.2⟩
  | submitted _ _ | entry _ _ | storing _ _ | answered _ | kept _ | flushed _ _ _ => exact hs
  | beside m h =>
    rw [h.same]
    exact hs

/-- A stage that has nothing left to do gets nothing more. -/
theorem later (h : Turn i p hash s m e t) : Station.Later ⟨s, {}⟩ ⟨t, {}⟩ := by
  cases h with
  | submitted id record =>
    have hlater := Station.Later.act ⟨s, {}⟩ p hash (.submit 0 record)
    exact ⟨hlater.name, hlater.window, hlater.cancelled, hlater.aggregate, hlater.dispatch, hlater.persist⟩
  | entry now hcan => exact .entry ⟨s, {}⟩ hcan
  | routing now hcan =>
    have hitems : s.routing.items ≠ [] := Worker.items_of_canBegin hcan
    exact ⟨rfl, rfl, id, id, fun _ h => absurd h.1 hitems, fun _ _ h => h⟩
  | storing now hcan => exact .storing ⟨s, {}⟩ hcan
  | answered h =>
    have hlater := Station.Later.handOn ⟨s, {}⟩ p 0
    rwa [Site.handedOn, h] at hlater
  | kept h =>
    have hlater := Station.Later.handOn ⟨s, {}⟩ p 1
    rwa [Site.handedOn, h] at hlater
  | flushed now hf alarms =>
    obtain ⟨hledger, _, d, hd⟩ := Ledger.flushCounted_eq_some hf
    have hwindow := (LedgerRun.ledger_flush s.store now hd).2.1
    rw [← hledger] at hwindow
    exact ⟨rfl, hwindow, id, id, fun _ h => h, fun _ _ h => h⟩
  | beside m h =>
    rw [h.same]
    exact ⟨rfl, rfl, id, id, fun _ h => h, fun _ _ h => h⟩

end Turn

/-! ### Sites of a run -/

theorem RecordKind.tag_injective {j k : RecordKind} (h : j.tag = k.tag) : j = k := by
  cases j <;> cases k <;> first | rfl | exact absurd h (by decide)

/-- No other pipeline has records of the kind. -/
def Node.OnlyAt (n : Node) (k : RecordKind) (i : Nat) : Prop := ∀ j a, n.pipelines[j]? = some a → a.kind = k → j = i

theorem Node.OnlyAt.congr {n m : Node} {k : RecordKind} {i : Nat} (h : n.OnlyAt k i) (ho : m.outline = n.outline) :
    m.OnlyAt k i := by
  intro j a ha hk
  have houtline : n.outline[j]? = some (a.kind, a.id, a.feed) := by
    rw [← ho, outline, List.getElem?_map, ha]
    rfl
  rw [outline, List.getElem?_map, Option.map_eq_some_iff] at houtline
  obtain ⟨b, hb, heq⟩ := houtline
  exact h j b hb ((Prod.mk.inj heq).1.trans hk)

/-- The sends to the queues of a pipeline. -/
def NodeRun.sendingsAt (i : Nat) (r : NodeRun) : List Sending := r.sendings.filter fun s => decide (s.pipeline = i)

namespace NodeRun
variable {i : Nat} {r : NodeRun} {kind : RecordKind} {id : PipelineId}

theorem sendingsAt_submit {stage : StageId} (h : r.node.entrance? kind id = some (i, stage)) (record : kind.Carrier) :
    (r.submit kind id record).sendingsAt i = r.sendingsAt i ++ [⟨i, stage, (r.node.submit kind id record).1⟩] := by
  simp [sendingsAt, submit, h]

theorem sendingsAt_submit_of_ne (h : ∀ stage, r.node.entrance? kind id ≠ some (i, stage)) (record : kind.Carrier) :
    (r.submit kind id record).sendingsAt i = r.sendingsAt i := by
  cases hentrance : r.node.entrance? kind id with
  | none => simp [sendingsAt, submit, hentrance]
  | some e =>
    have he : e.1 ≠ i := by
      rintro rfl
      exact h e.2 hentrance
    simp [sendingsAt, submit, hentrance, he]

theorem sendingsAt_handOn (i j stage : Nat) (r : NodeRun) : (r.step (.handOn j stage)).sendingsAt i =
    r.sendingsAt i ++ if j = i then ((r.node.handing? j stage).map fun h => ⟨j, h.1, h.2⟩).toList else [] := by
  by_cases hj : j = i
  · subst hj
    cases hhanding : r.node.handing? j stage <;> simp [sendingsAt, step, hhanding]
  · cases hhanding : r.node.handing? j stage <;> simp [sendingsAt, step, hhanding, hj]

end NodeRun

/-- The pipeline at a position of a node that owns every key, as a site. -/
structure Seated {k : RecordKind} (i : Nat) (p : PipelineId) (r : NodeRun) (s : Site k) : Prop where
  hosts : Hosts i p r.node s
  only : r.node.OnlyAt k i
  placed : s.Placed p
  owner : (s.shared.router.current r.hash).GivesAllTo r.hash s.name
  still : s.mail = [] ∧ s.stuck = false

def Follows {k : RecordKind} (i : Nat) (p : PipelineId) (r next : NodeRun) (s : Site k) (m : NodeMove) : Prop :=
  ∃ e t, Turn i p r.hash s m e t ∧ Hosts i p next.node t ∧ next.sendingsAt i = r.sendingsAt i ++ e.sendings i p

namespace Seated
variable {k : RecordKind} {i : Nat} {p : PipelineId} {r : NodeRun} {s : Site k}

theorem refl (h : Seated i p r s) {next : NodeRun} (hnode : next.node = r.node)
    (hsendings : next.sendingsAt i = r.sendingsAt i) (m : NodeMove) : Follows i p r next s m := by
  refine ⟨.nothing, s, .beside m (.refl _ s), by rw [hnode]; exact h.hosts, ?_⟩
  rw [hsendings, FlowEvent.sendings, List.append_nil]

theorem aside (h : Seated i p r s) {j : Nat} (hj : j ≠ i) {next : NodeRun} (b : AnyPipeline) (store : Store)
    (shared : Shared) (hnode : next.node = { r.node with pipelines := r.node.pipelines.set j b, store, shared })
    (hshared : r.node.shared.Apart r.hash k.tag shared) (htable : store.table k.tag = r.node.store.table k.tag)
    (hhistory : ∀ c ∈ r.node.store.history, c ∈ store.history) (hsendings : next.sendingsAt i = r.sendingsAt i)
    (m : NodeMove) : Follows i p r next s m := by
  rw [h.hosts.shared] at hshared
  rw [h.hosts.store] at htable hhistory
  refine ⟨.nothing, { s with store, shared }, .beside m ⟨rfl, hshared, htable, hhistory⟩, ?_, ?_⟩
  · rw [hnode]
    exact h.hosts.elsewhere rfl (List.getElem?_set_ne hj)
  · rw [hsendings, FlowEvent.sendings, List.append_nil]

theorem tag_ne (h : Seated i p r s) {j : Nat} {a : AnyPipeline} (ha : r.node.pipelines[j]? = some a) (hj : j ≠ i) :
    Rollup.tag a.kind.Carrier ≠ k.tag :=
  fun heq => hj (h.only j a ha (RecordKind.tag_injective heq))

theorem submit (h : Seated i p r s) (kind : RecordKind) (id : PipelineId) (record : kind.Carrier) :
    Follows i p r (r.submit kind id record) s (.submit kind id record) := by
  rcases r.node.submit_cases kind id record with ⟨j, a, hposition, ha, rfl⟩ | ⟨hnode, hentrance⟩
  · by_cases hj : j = i
    · subst hj
      obtain ⟨feed, hpipeline⟩ := h.hosts.pipeline
      obtain rfl := Option.some.inj (ha.symm.trans hpipeline)
      obtain ⟨hanswer, hhosts⟩ := h.hosts.submit hposition record
      refine ⟨_, _, .submitted id record, ?_, ?_⟩
      · exact hhosts
      · rw [NodeRun.sendingsAt_submit (h.hosts.entrance? hposition), hanswer, FlowEvent.sendings, h.placed.entry]
    · have hentrance : ∀ stage, r.node.entrance? a.kind id ≠ some (i, stage) := by
        intro stage
        simp only [Node.entrance?, hposition, ha, Option.bind_eq_bind, Option.bind_some, ne_eq, Option.bind_eq_some_iff,
          not_exists, not_and, if_true]
        intro w _ heq
        exact hj (congrArg Prod.fst (Option.some.inj heq))
      refine h.aside hj { a with pipeline := (a.pipeline.submit r.node.name record r.node.shared).2.1 } _ _ ?_
        (Pipeline.apart_submit r.hash (h.tag_ne ha hj) a.pipeline r.node.name record r.node.shared) rfl (fun _ hc => hc)
        (NodeRun.sendingsAt_submit_of_ne hentrance record) _
      simp [NodeRun.submit, Node.submit, hposition, ha]
  · refine h.refl hnode (NodeRun.sendingsAt_submit_of_ne (fun stage => ?_) record) _
    rw [hentrance]
    exact (Option.some_ne_none _).symm

theorem begun (h : Seated i p r s) (stage : Nat) (now : Instant) :
    ∃ e, Turn i p r.hash s (.begin i stage now) e (s.begun (Node.solitude r.hash now) p stage) ∧ e.sendings i p = [] := by
  have hidle : ∃ e, Turn i p r.hash s (.begin i stage now) e s ∧ e.sendings i p = [] :=
    ⟨.nothing, .beside _ (.refl _ s), rfl⟩
  match stage with
  | 0 =>
    simp only [Site.begun, Site.beginEntry]
    split
    · rename_i hcan
      exact ⟨_, .entry now hcan, rfl⟩
    · exact hidle
  | 1 =>
    simp only [Site.begun, Site.beginRouting]
    split
    · rename_i hcan
      rw [Site.takeRouting_of_givesAll h.owner]
      exact ⟨_, .routing now hcan, rfl⟩
    · exact hidle
  | 2 =>
    simp only [Site.begun, Site.beginStoring]
    split
    · rename_i hcan
      exact ⟨_, .storing now hcan, rfl⟩
    · exact hidle
  | _ + 3 => exact hidle

theorem handedOn (h : Seated i p r s) (stage : Nat) :
    ∃ e, Turn i p r.hash s (.handOn i stage) e (s.handedOn p stage) ∧
      e.sendings i p = ((r.node.handing? i stage).map fun a => ⟨i, a.1, a.2⟩).toList := by
  obtain ⟨feed, hpipeline⟩ := h.hosts.pipeline
  simp only [Node.handing?, hpipeline, Option.bind_eq_bind, Option.bind_some]
  match stage with
  | 0 =>
    simp only [Site.handedOn]
    cases hanswered : s.answered with
    | nil =>
      refine ⟨.nothing, .beside _ (.refl _ s), ?_⟩
      simp [Site.pipeline, Site.entryWorker, hanswered, FlowEvent.sendings]
    | cons x rest =>
      refine ⟨_, .answered hanswered, ?_⟩
      simp [Site.pipeline, Site.entryWorker, Site.routingWorker, Worker.stage, hanswered, FlowEvent.sendings,
        h.placed.routing]
  | 1 =>
    simp only [Site.handedOn]
    cases hkept : s.kept with
    | nil =>
      refine ⟨.nothing, .beside _ (.refl _ s), ?_⟩
      simp [Site.pipeline, Site.routingWorker, hkept, FlowEvent.sendings]
    | cons x rest =>
      refine ⟨_, .kept hkept, ?_⟩
      simp [Site.pipeline, Site.routingWorker, Site.storingWorker, Worker.stage, hkept, FlowEvent.sendings,
        h.placed.arrivals]
  | _ + 2 =>
    refine ⟨.nothing, .beside _ (.refl _ s), ?_⟩
    simp [Site.pipeline, FlowEvent.sendings]

theorem begin (h : Seated i p r s) (j stage : Nat) (now : Instant) :
    Follows i p r (r.step (.begin j stage now)) s (.begin j stage now) := by
  have hnode : (r.step (.begin j stage now)).node = r.node.begin (Node.solitude r.hash now) j stage := rfl
  by_cases hj : j = i
  · subst hj
    obtain ⟨e, hturn, hsendings⟩ := h.begun stage now
    refine ⟨e, _, hturn, h.hosts.begin (Node.solitude r.hash now) stage, ?_⟩
    rw [hsendings, List.append_nil]
    rfl
  · cases ha : r.node.pipelines[j]? with
    | none =>
      rw [Node.begin, ha] at hnode
      exact h.refl hnode rfl _
    | some a =>
      rw [Node.begin, ha] at hnode
      exact h.aside hj _ _ _ hnode (Pipeline.apart_begin (Node.solitude r.hash now) (h.tag_ne ha hj) _ _ _) rfl
        (fun _ hc => hc) rfl _

theorem handOn (h : Seated i p r s) (j stage : Nat) :
    Follows i p r (r.step (.handOn j stage)) s (.handOn j stage) := by
  have hnode : (r.step (.handOn j stage)).node = r.node.handOn j stage := rfl
  have hsendings := NodeRun.sendingsAt_handOn i j stage r
  by_cases hj : j = i
  · subst hj
    obtain ⟨e, hturn, hsent⟩ := h.handedOn stage
    refine ⟨e, _, hturn, h.hosts.handOn stage, ?_⟩
    rw [hsendings, if_pos rfl, hsent]
  · rw [if_neg hj, List.append_nil] at hsendings
    cases ha : r.node.pipelines[j]? with
    | none =>
      rw [Node.handOn, ha] at hnode
      exact h.refl hnode hsendings _
    | some a =>
      rw [Node.handOn, ha] at hnode
      exact h.aside hj _ _ _ hnode (Pipeline.apart_handOn r.hash (h.tag_ne ha hj) _ _ _) rfl (fun _ hc => hc) hsendings _

theorem flushed (h : Seated i p r s) {now : Instant} {f : Node.Flushed} (hflush : r.node.flushAt now i = some f) :
    ∃ g, s.ledger.flushCounted s.store now s.shared.counters = some g ∧
      Hosts i p f.node
        { s.flushed g with shared := { s.shared with counters := Node.countAlarms f.alarms g.counters } } := by
  obtain ⟨feed, hpipeline⟩ := h.hosts.pipeline
  rcases Node.flushAt_cases hflush with ⟨hnone, -⟩ | ⟨a, l, g, ha, hl, hg, -, hnode⟩
  · cases hnone _ hpipeline
  · rw [hpipeline] at ha
    cases ha
    cases hl
    rw [h.hosts.store, Node.counters, h.hosts.shared] at hg
    rw [hnode]
    refine ⟨g, hg, h.hosts.name, rfl, ?_, feed, ?_⟩
    · rw [h.hosts.shared]
    · exact List.getElem?_set_self (List.getElem?_eq_some_iff.1 hpipeline).1

theorem flush (h : Seated i p r s) (j : Nat) (now : Instant) :
    Follows i p r (r.step (.flush j now)) s (.flush j now) := by
  simp only [NodeRun.step]
  cases hflush : r.node.flushAt now j with
  | none => exact h.refl rfl rfl _
  | some f =>
    have hsendings : NodeRun.sendingsAt i { r with node := f.node, raised := r.raised ++ f.alarms } =
        r.sendingsAt i := rfl
    by_cases hj : j = i
    · subst hj
      obtain ⟨g, hg, hhosts⟩ := h.flushed hflush
      exact ⟨.nothing, _, .flushed now hg f.alarms, hhosts, (List.append_nil _).symm⟩
    · rcases Node.flushAt_cases hflush with ⟨-, hnode, -⟩ | ⟨a, l, g, ha, -, hg, -, hnode⟩
      · exact h.refl hnode hsendings _
      · have hextends := Ledger.extends_flushCounted hg
        have hshared : r.node.shared.Apart r.hash k.tag
            { r.node.shared with counters := Node.countAlarms f.alarms g.counters } := by
          refine ⟨fun x hx => ?_, rfl⟩
          have hflow : x.flow? ≠ none := hx ▸ Option.some_ne_none k.tag
          rw [Counters.get_countAlarms hflow, Ledger.get_flushCounted hflow hg]
          rfl
        exact h.aside hj { a with pipeline := a.pipeline.withLedger g.ledger } g.store _ hnode hshared
          (hextends.others k.tag (h.tag_ne ha hj).symm) hextends.history hsendings _

end Seated

/-! ### Moves of a run -/

namespace NodeRun

/-- An offer of an alarm is a submission. -/
def actual (r : NodeRun) : NodeMove → NodeMove
  | .offer =>
    match r.raised[r.offered.length]? with
    | none => .offer
    | some (id, alarm) => .submit .alarm id alarm
  | m => m

theorem hash_step (r : NodeRun) (m : NodeMove) : (r.step m).hash = r.hash := by
  cases m with
  | submit kind id record => rfl
  | begin i j now => rfl
  | handOn i j => rfl
  | flush i now =>
    simp only [step]
    split <;> rfl
  | offer =>
    simp only [step]
    split <;> rfl

end NodeRun

namespace Seated
variable {k : RecordKind} {i : Nat} {p : PipelineId} {r : NodeRun} {s t : Site k} {m : NodeMove} {e : FlowEvent}

theorem after (h : Seated i p r s) (hturn : Turn i p r.hash s m e t) {next : NodeRun} (hhosts : Hosts i p next.node t)
    (houtline : next.node.outline = r.node.outline) (hhash : next.hash = r.hash) : Seated i p next t where
  hosts := hhosts
  only := h.only.congr houtline
  placed := hturn.same.placed h.placed
  owner := by
    rw [hhash, hturn.ring, hturn.same.name]
    exact h.owner
  still := hturn.still h.still

theorem close (h : Seated i p r s) (kind : StageKind) : Seated i p (r.close kind) (s.closed kind) where
  hosts := h.hosts.cancel kind
  only := h.only.congr (r.node.outline_cancel kind)
  placed := by cases kind <;> exact ⟨h.placed.entry, h.placed.routing, h.placed.arrivals⟩
  owner := by cases kind <;> exact h.owner
  still := by cases kind <;> exact h.still

theorem quiet_of_drained (h : Seated i p r s) {kind : StageKind} (hdrained : r.Drained kind)
    (hclosed : kind = .aggregate → s.entry.cancelled = true) : Station.Quiet ⟨s, {}⟩ kind := by
  obtain ⟨feed, hpipeline⟩ := h.hosts.pipeline
  have hworkers : ∀ w ∈ (s.pipeline p).workers, w.state.kind = kind →
      w.mail = [] ∧ w.ready = [] ∧ w.queue.items = [] := by
    intro w hw hkind
    have hdone := List.all_eq_true.1 (List.all_eq_true.1 hdrained _ (List.mem_of_getElem? hpipeline)) w hw
    simp only [hkind, ne_eq, not_true_eq_false, decide_false, Bool.false_or, Worker.isIdle, StageQueue.isEmpty,
      Bool.and_eq_true, List.isEmpty_iff] at hdone
    exact ⟨hdone.1.1, hdone.1.2, hdone.2⟩
  cases kind with
  | aggregate =>
    obtain ⟨_, hready, hitems⟩ := hworkers s.entryWorker (by simp [Site.pipeline]) rfl
    exact ⟨hclosed rfl, hitems, hready⟩
  | dispatch =>
    obtain ⟨hmail, hready, hitems⟩ := hworkers (s.routingWorker p) (by simp [Site.pipeline]) rfl
    exact ⟨hitems, List.map_eq_nil_iff.1 hmail, hready⟩
  | persist =>
    obtain ⟨_, _, hitems⟩ := hworkers s.storingWorker (by simp [Site.pipeline]) rfl
    exact hitems

theorem sole {o : PipelineOptions} {store : Store} {pipelines : List AnyPipeline} {feed : Option AlarmFeed}
    (hpipeline : pipelines[i]? = some ⟨k, .create o Node.soleName p Collector.layout, feed⟩)
    (honly : ∀ j a, pipelines[j]? = some a → a.kind = k → j = i) (hash : PointHash) :
    Seated i p { node := { Node.sole o store with pipelines }, hash }
      (Site.create k p Node.soleName o store (Node.sole o store).shared) where
  hosts := ⟨rfl, rfl, rfl, feed, hpipeline⟩
  only := honly
  placed := Site.placed_create k p _ o store _
  owner _ _ howner := List.mem_singleton.1 (HashRing.mem_of_owner? howner)
  still := ⟨rfl, rfl⟩

/-- Every move of the node is a turn of the site, which is seated there again. -/
theorem step (h : Seated i p r s) (m : NodeMove) :
    ∃ e t, Turn i p r.hash s (r.actual m) e t ∧ Seated i p (r.step m) t ∧
      (r.step m).sendingsAt i = r.sendingsAt i ++ e.sendings i p := by
  have hfollows : Follows i p r (r.step m) s (r.actual m) := by
    cases m with
    | submit kind id record => exact h.submit kind id record
    | begin j stage now => exact h.begin j stage now
    | handOn j stage => exact h.handOn j stage
    | flush j now => exact h.flush j now
    | offer =>
      simp only [NodeRun.step, NodeRun.actual]
      cases r.raised[r.offered.length]? with
      | none => exact h.refl rfl rfl _
      | some next => exact h.submit .alarm next.1 next.2
  obtain ⟨e, t, hturn, hhosts, hsendings⟩ := hfollows
  exact ⟨e, t, hturn, h.after hturn hhosts (r.outline_step m) (r.hash_step m), hsendings⟩

end Seated

/-! ### Properties that runs keep -/

/-- The stages before one have nothing left to do. -/
def Site.Upstream {k : RecordKind} (s : Site k) : StageKind → Prop
  | .aggregate => True
  | .dispatch => Station.Quiet ⟨s, {}⟩ .aggregate
  | .persist => Station.Quiet ⟨s, {}⟩ .aggregate ∧ Station.Quiet ⟨s, {}⟩ .dispatch

def Site.Finished {k : RecordKind} (s : Site k) : Prop := ∀ kind, Station.Quiet ⟨s, {}⟩ kind

/-- Moves keep a property of a run and its site. -/
structure Advances {k : RecordKind} (i : Nat) (p : PipelineId) (admits : NodeRun → NodeMove → Prop)
    (P : NodeRun → Site k → Prop) : Prop where
  step : ∀ {r : NodeRun} {s t : Site k} {m : NodeMove} {e : FlowEvent}, admits r m → Seated i p r s → P r s →
    Turn i p r.hash s (r.actual m) e t → Seated i p (r.step m) t →
    (r.step m).sendingsAt i = r.sendingsAt i ++ e.sendings i p → P (r.step m) t

/-- So does closing stages in their order. -/
structure Preserves {k : RecordKind} (i : Nat) (p : PipelineId) (admits : NodeRun → NodeMove → Prop)
    (P : NodeRun → Site k → Prop) : Prop extends Advances i p admits P where
  close : ∀ {r : NodeRun} {s : Site k} (kind : StageKind), Seated i p r s → P r s → s.Upstream kind →
    P (r.close kind) (s.closed kind)

theorem Advances.reaches {k : RecordKind} {i : Nat} {p : PipelineId} {admits : NodeRun → NodeMove → Prop}
    {P : NodeRun → Site k → Prop} {r next : NodeRun} {s : Site k} (hP : Advances i p admits P) (h : Seated i p r s)
    (hs : P r s) (hreach : NodeRun.Reaches admits r next) :
    ∃ t, Seated i p next t ∧ P next t ∧ Station.Later ⟨s, {}⟩ ⟨t, {}⟩ := by
  induction hreach with
  | refl => exact ⟨s, h, hs, .refl _⟩
  | step m _ hm ih =>
    obtain ⟨t, ht, hPt, hlater⟩ := ih
    obtain ⟨e, u, hturn, hu, hsendings⟩ := ht.step m
    exact ⟨u, hu, hP.step hm ht hPt hturn hu hsendings, hlater.trans hturn.later⟩

namespace Preserves
variable {k : RecordKind} {i : Nat} {p : PipelineId} {admits : NodeRun → NodeMove → Prop}
  {P : NodeRun → Site k → Prop} {r next : NodeRun} {s : Site k}

theorem finish (hP : Preserves i p admits P) (h : Seated i p r s) (kind : StageKind)
    (hs : P (r.close kind) (s.closed kind)) (hreach : NodeRun.Reaches admits (r.close kind) next)
    (hdrained : next.Drained kind) :
    ∃ t, Seated i p next t ∧ P next t ∧ Station.Later ⟨s.closed kind, {}⟩ ⟨t, {}⟩ ∧ Station.Quiet ⟨t, {}⟩ kind := by
  obtain ⟨t, ht, hPt, hlater⟩ := hP.reaches (h.close kind) hs hreach
  refine ⟨t, ht, hPt, hlater, ht.quiet_of_drained hdrained ?_⟩
  rintro rfl
  exact hlater.cancelled rfl

/-- Once all stages are closed and their workers finished, nothing is left to do. -/
theorem closes (hP : Preserves i p admits P) (h : Seated i p r s) (hs : P (r.close .aggregate) (s.closed .aggregate))
    (hcloses : NodeRun.Closes admits StageKind.closingOrder r next) :
    ∃ t, Seated i p next t ∧ P next t ∧ t.Finished := by
  unfold StageKind.closingOrder at hcloses
  cases hcloses with
  | cons hfirst hdrained₁ hrest =>
    cases hrest with
    | cons hsecond hdrained₂ hrest =>
      cases hrest with
      | cons hthird hdrained₃ hrest =>
        cases hrest
        obtain ⟨t, ht, hPt, _, haggregate⟩ := hP.finish h .aggregate hs hfirst hdrained₁
        obtain ⟨u, hu, hPu, hlater₂, hdispatch⟩ :=
          hP.finish ht .dispatch (hP.close .dispatch ht hPt haggregate) hsecond hdrained₂
        have haggregate₂ := hlater₂.aggregate haggregate
        obtain ⟨v, hv, hPv, hlater₃, hpersist⟩ :=
          hP.finish hu .persist (hP.close .persist hu hPu ⟨haggregate₂, hdispatch⟩) hthird hdrained₃
        refine ⟨v, hv, hPv, fun kind => ?_⟩
        cases kind with
        | aggregate => exact hlater₃.aggregate haggregate₂
        | dispatch => exact hlater₃.dispatch haggregate₂ hdispatch
        | persist => exact hpersist

end Preserves

theorem Station.Later.finished {k : RecordKind} {s t : Site k} (h : Station.Later ⟨s, {}⟩ ⟨t, {}⟩)
    (hs : s.Finished) : t.Finished
  | .aggregate => h.aggregate (hs _)
  | .dispatch => h.dispatch (hs _) (hs _)
  | .persist => h.persist (hs _) (hs _) (hs _)

theorem Advances.flushes {k : RecordKind} {i : Nat} {p : PipelineId} {admits : NodeRun → NodeMove → Prop}
    {P : NodeRun → Site k → Prop} {r next : NodeRun} {s : Site k} (hP : Advances i p admits P) {positions : List Nat}
    (h : Seated i p r s) (hs : P r s) (hfinished : s.Finished) (hflushes : NodeRun.Flushes admits positions r next) :
    ∃ t, Seated i p next t ∧ P next t ∧ t.Finished := by
  -- On the ledgers that are still to be flushed; a site that has finished does so for good.
  induction hflushes generalizing s with
  | nil r => exact ⟨s, h, hs, hfinished⟩
  | cons hflush hreach _ _ ih =>
    obtain ⟨e, t, hturn, ht, hsendings⟩ := h.step (.flush _ _)
    obtain ⟨u, hu, hPu, hlater⟩ := hP.reaches ht (hP.step hflush h hs hturn ht hsendings) hreach
    exact ih hu hPu (hlater.finished (hturn.later.finished hfinished))

end TraceRollup
