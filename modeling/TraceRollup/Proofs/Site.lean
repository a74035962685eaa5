import TraceRollup.Collector
import TraceRollup.Proofs.Routing

/-!
# Sites

A site is a node that runs one pipeline of three stages: records are totalled, sent to the node
that owns them and stored there. Its parts are named here by what they hold; `Site.node` is
the node that they make up. For every step of such a node there is the site after it
(`begin_entry`, `begin_routing` and so on), so what the steps do can be read off the parts.
-/

namespace TraceRollup

/-! ### Workers -/

namespace Worker
variable {α : Type} [Rollup α] {env : Conditions} {w : Worker α}

theorem begin_of_not (h : ¬ w.canBegin = true) (isLast : Bool) (sh : Shared) : w.begin env isLast sh = (w, sh) := by
  unfold begin
  rw [if_neg h]

def nextBatch (w : Worker α) : List (Snapshot α) := (w.queue.receiveMany batchLimit).1

def countBatch (w : Worker α) (sh : Shared) : Shared :=
  sh.count (.processed (Rollup.tag α) w.stage.number.toNat) w.nextBatch.length

theorem begin_of_output (h : w.canBegin = true) {isLast : Bool} {sh : Shared} (out : StageOutput α)
    (hout : (w.state.process env w.nextBatch (w.countBatch sh)).1 = some out) :
    (w.begin env isLast sh).1 =
      { w with
        queue := (w.queue.receiveMany batchLimit).2, state := out.state, mail := mailOf out.parcels
        ready := if isLast then [] else out.forward } := by
  have hpair : w.state.process env w.nextBatch (w.countBatch sh) =
      (some out, (w.state.process env w.nextBatch (w.countBatch sh)).2) := Prod.ext hout rfl
  simp only [nextBatch, countBatch] at hpair
  unfold begin
  rw [if_pos h]
  simp only
  rw [hpair]

theorem begin_of_stuck (h : w.canBegin = true) {isLast : Bool} {sh : Shared}
    (hout : (w.state.process env w.nextBatch (w.countBatch sh)).1 = none) :
    (w.begin env isLast sh).1 = { w with queue := (w.queue.receiveMany batchLimit).2, stuck := true } := by
  have hpair : w.state.process env w.nextBatch (w.countBatch sh) =
      (none, (w.state.process env w.nextBatch (w.countBatch sh)).2) := Prod.ext hout rfl
  simp only [nextBatch, countBatch] at hpair
  unfold begin
  rw [if_pos h]
  simp only
  rw [hpair]

end Worker

theorem StageQueue.stage_send {α : Type} (q : StageQueue α) (x : α) : (q.send x).2.stage = q.stage := by
  unfold send
  split
  · rfl
  · split <;> rfl

theorem StageQueue.mem_items_send {α : Type} {q : StageQueue α} {x y : α} (h : y ∈ (q.send x).2.items) :
    y ∈ q.items ∨ y = x := by
  rw [items_send, List.mem_append] at h
  refine h.imp_right fun hy => ?_
  split at hy
  · exact List.mem_singleton.1 hy
  · cases hy

theorem StageState.process_dispatch {α : Type} [Rollup α] (env : Conditions) (d : Dispatcher)
    (batch : List (Snapshot α)) (sh : Shared) :
    (StageState.process env (.dispatch d) batch sh).1 =
      if (d.split env.hash (sh.router.current env.hash) batch).parcels.any fun q => env.links q.node = .stalled then none
      else
        let parts := d.split env.hash (sh.router.current env.hash) batch
        let out := parts.parcels.partition fun q => decide (env.links q.node = .up)
        some { state := .dispatch d, forward := parts.kept, parcels := out.1, reason := "remote_unreachable",
               dropped := Dispatcher.messageCount out.2 } := by
  simp only [StageState.process, Dispatcher.route, Router.ring_ring]
  by_cases h : ((d.split env.hash (sh.router.current env.hash) batch).parcels.any
      fun q => decide (env.links q.node = .stalled)) = true
  · simp only [if_pos h]
  · simp only [if_neg h]

/-- A node of one pipeline, whose worker takes a batch. -/
theorem Node.begin_lone {k : RecordKind} {p : PipelineId} {workers : List (Worker k.Carrier)} (env : Conditions)
    (n : Node) (hn : n.pipelines = [⟨k, ⟨p, workers⟩, none⟩]) {j : Nat} {w : Worker k.Carrier}
    (hw : workers[j]? = some w) :
    n.begin env 0 j =
      { n with
        shared := (w.begin env (decide (workers.length ≤ j + 1)) n.shared).2
        pipelines := [⟨k, ⟨p, workers.set j (w.begin env (decide (workers.length ≤ j + 1)) n.shared).1⟩, none⟩] } := by
  unfold Node.begin
  rw [hn]
  simp only [List.getElem?_cons_zero, Pipeline.begin, hw]
  rfl

/-- The parts of a node whose only pipeline totals, sends and stores records. -/
structure Site (k : RecordKind) where
  name : String
  options : PipelineOptions
  store : Store
  shared : Shared
  /-- The queue before the totals. -/
  entry : StageQueue (Snapshot k.Carrier)
  totals : Accumulator k.Carrier
  /-- Totals that are still to be handed to the next stage. -/
  answered : List (Snapshot k.Carrier)
  /-- The queue before the sending stage. -/
  routing : StageQueue (Snapshot k.Carrier)
  /-- Snapshots for other nodes that are still to be sent, each with its node. -/
  mail : List (String × Snapshot k.Carrier)
  /-- Snapshots that stay here and are still to be handed to the last stage. -/
  kept : List (Snapshot k.Carrier)
  stuck : Bool
  /-- The queue before the ledger. -/
  arrivals : StageQueue (Snapshot k.Carrier)
  ledger : Ledger k.Carrier

namespace Site
variable {k : RecordKind}

def entryWorker (s : Site k) : Worker k.Carrier :=
  { queue := s.entry, state := .aggregate s.totals, ready := s.answered }

def dispatcher (p : PipelineId) (s : Site k) : Dispatcher := ⟨p, .of p .persist, s.name⟩

/-- A letter as it is put in the mail. -/
def posted (p : PipelineId) (s : Site k) (l : String × Snapshot k.Carrier) : String × WireMessage :=
  (l.1, (s.dispatcher p).message l.2)

def routingWorker (p : PipelineId) (s : Site k) : Worker k.Carrier :=
  { queue := s.routing, state := .dispatch (s.dispatcher p), mail := s.mail.map (s.posted p), ready := s.kept
    stuck := s.stuck }

def storingWorker (s : Site k) : Worker k.Carrier := { queue := s.arrivals, state := .persist s.ledger }

def pipeline (p : PipelineId) (s : Site k) : Pipeline k.Carrier :=
  ⟨p, [s.entryWorker, s.routingWorker p, s.storingWorker]⟩

/-- The node that the parts make up. -/
def node (p : PipelineId) (s : Site k) : Node := ⟨s.name, s.options, s.store, s.shared, [⟨k, s.pipeline p, none⟩]⟩

/-- The numbers of the stages before which the queues stand. -/
structure Placed (p : PipelineId) (s : Site k) : Prop where
  entry : s.entry.stage = .of p .aggregate
  routing : s.routing.stage = .of p .dispatch
  arrivals : s.arrivals.stage = .of p .persist

theorem pipeline?_node (k : RecordKind) (p : PipelineId) (s : Site k) : (s.node p).pipeline? k p = some (s.pipeline p) := by
  have hid : (⟨k, s.pipeline p, none⟩ : AnyPipeline).id = p := rfl
  simp [Node.pipeline?, Node.find?, node, hid]

/-! ### Building -/

def create (k : RecordKind) (p : PipelineId) (name : String) (o : PipelineOptions) (store : Store) (shared : Shared) :
    Site k where
  name
  options := o
  store
  shared
  entry := .create (.of p .aggregate) o.queueCapacity o.policy
  totals := { window := o.window }
  answered := []
  routing := .create (.of p .dispatch) o.queueCapacity o.policy
  mail := []
  kept := []
  stuck := false
  arrivals := .create (.of p .persist) o.queueCapacity o.policy
  ledger := .create p o.window o.batchSize

theorem build_node (k : RecordKind) (p : PipelineId) (name : String) (o : PipelineOptions) (store : Store)
    (shared : Shared) :
    Node.build ⟨name, o, store, shared, []⟩ k p Collector.layout none =
      (.ok (), (create k p name o store shared).node p) := by
  have hlayout : checkLayout p Collector.layout = .ok () := rfl
  unfold Node.build
  rw [hlayout]
  rfl

theorem placed_create (k : RecordKind) (p : PipelineId) (name : String) (o : PipelineOptions) (store : Store)
    (shared : Shared) : (create k p name o store shared).Placed p := ⟨rfl, rfl, rfl⟩

/-- The parts of a site that no step changes. -/
structure Same (s t : Site k) : Prop where
  name : t.name = s.name
  entry : t.entry.stage = s.entry.stage
  routing : t.routing.stage = s.routing.stage
  arrivals : t.arrivals.stage = s.arrivals.stage

theorem Same.refl (s : Site k) : s.Same s := ⟨rfl, rfl, rfl, rfl⟩

theorem Same.placed {p : PipelineId} {s t : Site k} (h : s.Same t) (hs : s.Placed p) : t.Placed p :=
  ⟨h.entry.trans hs.entry, h.routing.trans hs.routing, h.arrivals.trans hs.arrivals⟩

/-! ### Taking batches -/

theorem begin_worker (env : Conditions) (p : PipelineId) (s : Site k) (j : Nat) {w : Worker k.Carrier}
    (hw : (s.pipeline p).workers[j]? = some w) :
    (s.node p).begin env 0 j =
      { s.node p with
        shared := (w.begin env (decide (3 ≤ j + 1)) s.shared).2
        pipelines := [⟨k, ⟨p, (s.pipeline p).workers.set j (w.begin env (decide (3 ≤ j + 1)) s.shared).1⟩, none⟩] } :=
  Node.begin_lone env (s.node p) rfl hw

def takeEntry (env : Conditions) (s : Site k) : Site k :=
  let r := s.totals.acceptBatch s.entryWorker.nextBatch env.now
  { s with
    entry := (s.entry.receiveMany Worker.batchLimit).2
    totals := r.2
    answered := r.1.snapshots
    shared := (s.entryWorker.begin env false s.shared).2 }

def beginEntry (env : Conditions) (s : Site k) : Site k := if s.entryWorker.canBegin then s.takeEntry env else s

theorem begin_entry (env : Conditions) (p : PipelineId) (s : Site k) :
    (s.node p).begin env 0 0 = (s.beginEntry env).node p := by
  rw [begin_worker env p s 0 (w := s.entryWorker) rfl]
  unfold beginEntry
  split
  · rename_i h
    rw [Worker.begin_of_output h _ rfl]
    rfl
  · rename_i h
    rw [Worker.begin_of_not h]
    rfl

/-- The second worker takes a batch and divides it by owner. -/
def takeRouting (env : Conditions) (p : PipelineId) (s : Site k) : Site k :=
  let batch := (s.routingWorker p).nextBatch
  let ring := s.shared.router.current env.hash
  let bundles := (s.dispatcher p).bundles env.hash ring batch
  let shared := ((s.routingWorker p).begin env false s.shared).2
  if bundles.any fun b => env.links b.1 = .stalled then
    { s with routing := (s.routing.receiveMany Worker.batchLimit).2, stuck := true, shared }
  else
    { s with
      routing := (s.routing.receiveMany Worker.batchLimit).2
      mail := Dispatcher.letters (bundles.filter fun b => decide (env.links b.1 = .up))
      kept := batch.filter fun x => ((s.dispatcher p).foreignOwner? env.hash ring x).isNone
      shared }

def beginRouting (env : Conditions) (p : PipelineId) (s : Site k) : Site k :=
  if (s.routingWorker p).canBegin then s.takeRouting env p else s

theorem begin_routing (env : Conditions) (p : PipelineId) (s : Site k) :
    (s.node p).begin env 0 1 = (s.beginRouting env p).node p := by
  rw [begin_worker env p s 1 (w := s.routingWorker p) rfl]
  unfold beginRouting
  split
  · rename_i h
    have hprocess := StageState.process_dispatch env (s.dispatcher p) (s.routingWorker p).nextBatch
      ((s.routingWorker p).countBatch s.shared)
    have hrouter : ((s.routingWorker p).countBatch s.shared).router = s.shared.router := rfl
    rw [hrouter, Dispatcher.split_eq] at hprocess
    simp only [List.any_map, List.partition_eq_filter_filter, List.filter_map, Function.comp_def] at hprocess
    simp only [takeRouting]
    split
    · rename_i hstalled
      rw [if_pos hstalled] at hprocess
      rw [Worker.begin_of_stuck h hprocess]
      rfl
    · rename_i hstalled
      rw [if_neg hstalled] at hprocess
      rw [Worker.begin_of_output h _ hprocess]
      simp only [Dispatcher.mailOf_bundles]
      rfl
  · rename_i h
    rw [Worker.begin_of_not h]
    rfl

def takeStoring (env : Conditions) (s : Site k) : Site k :=
  { s with
    arrivals := (s.arrivals.receiveMany Worker.batchLimit).2
    ledger := (s.ledger.acceptBatch s.storingWorker.nextBatch env.now).2
    shared := (s.storingWorker.begin env true s.shared).2 }

def beginStoring (env : Conditions) (s : Site k) : Site k := if s.storingWorker.canBegin then s.takeStoring env else s

theorem begin_storing (env : Conditions) (p : PipelineId) (s : Site k) :
    (s.node p).begin env 0 2 = (s.beginStoring env).node p := by
  rw [begin_worker env p s 2 (w := s.storingWorker) rfl]
  unfold beginStoring
  split
  · rename_i h
    rw [Worker.begin_of_output h _ rfl]
    rfl
  · rename_i h
    rw [Worker.begin_of_not h]
    rfl

def begun (env : Conditions) (p : PipelineId) (s : Site k) : Nat → Site k
  | 0 => s.beginEntry env
  | 1 => s.beginRouting env p
  | 2 => s.beginStoring env
  | _ + 3 => s

theorem begin_node (env : Conditions) (p : PipelineId) (s : Site k) (j : Nat) :
    (s.node p).begin env 0 j = (s.begun env p j).node p := by
  match j with
  | 0 => exact begin_entry env p s
  | 1 => exact begin_routing env p s
  | 2 => exact begin_storing env p s
  | _ + 3 => rfl

theorem same_begun (env : Conditions) (p : PipelineId) (s : Site k) (j : Nat) : s.Same (s.begun env p j) := by
  match j with
  | 0 =>
    simp only [begun, beginEntry]
    split <;> exact ⟨rfl, rfl, rfl, rfl⟩
  | 1 =>
    simp only [begun, beginRouting, takeRouting]
    split
    · split <;> exact ⟨rfl, rfl, rfl, rfl⟩
    · exact ⟨rfl, rfl, rfl, rfl⟩
  | 2 =>
    simp only [begun, beginStoring]
    split <;> exact ⟨rfl, rfl, rfl, rfl⟩
  | _ + 3 => exact ⟨rfl, rfl, rfl, rfl⟩

/-! ### Handing on -/

/-- The first worker hands a total to the second. -/
def handAnswered (s : Site k) (x : Snapshot k.Carrier) (rest : List (Snapshot k.Carrier)) : Site k :=
  { s with
    answered := rest
    routing := (s.routing.send x).2
    shared := s.entryWorker.showLength (s.shared.countRefusal (Rollup.tag k.Carrier) s.routing.stage (s.routing.send x).1) }

/-- The second worker hands a snapshot that stays here to the last. -/
def handKept (p : PipelineId) (s : Site k) (x : Snapshot k.Carrier) (rest : List (Snapshot k.Carrier)) : Site k :=
  { s with
    kept := rest
    arrivals := (s.arrivals.send x).2
    shared := (s.routingWorker p).showLength
      (s.shared.countRefusal (Rollup.tag k.Carrier) s.arrivals.stage (s.arrivals.send x).1) }

def handedOn (p : PipelineId) (s : Site k) : Nat → Site k
  | 0 => match s.answered with
    | [] => s
    | x :: rest => s.handAnswered x rest
  | 1 => match s.kept with
    | [] => s
    | x :: rest => s.handKept p x rest
  | _ + 2 => s

theorem handOn_node (p : PipelineId) (s : Site k) (j : Nat) : (s.node p).handOn 0 j = (s.handedOn p j).node p := by
  match j with
  | 0 =>
    simp only [Node.handOn, node, pipeline, Pipeline.handOn, List.getElem?_cons_zero, List.getElem?_cons_succ,
      entryWorker, handedOn]
    cases h : s.answered with
    | nil => simp [h]
    | cons x rest => rfl
  | 1 =>
    simp only [Node.handOn, node, pipeline, Pipeline.handOn, List.getElem?_cons_zero, List.getElem?_cons_succ,
      routingWorker, handedOn]
    cases h : s.kept with
    | nil => simp [h]
    | cons x rest => rfl
  | 2 => rfl
  | _ + 3 => rfl

theorem same_handedOn (p : PipelineId) (s : Site k) (j : Nat) : s.Same (s.handedOn p j) := by
  match j with
  | 0 =>
    simp only [handedOn]
    split
    · exact ⟨rfl, rfl, rfl, rfl⟩
    · exact { Same.refl s with routing := StageQueue.stage_send _ _ }
  | 1 =>
    simp only [handedOn]
    split
    · exact ⟨rfl, rfl, rfl, rfl⟩
    · exact { Same.refl s with arrivals := StageQueue.stage_send _ _ }
  | _ + 2 => exact ⟨rfl, rfl, rfl, rfl⟩

/-! ### Messages -/

def letter? (s : Site k) : Nat → Option (String × Snapshot k.Carrier)
  | 1 => s.mail.head?
  | 0 | _ + 2 => none

def mailed (s : Site k) : Nat → Site k
  | 1 => { s with mail := s.mail.tail }
  | 0 | _ + 2 => s

theorem takeMail_node (p : PipelineId) (s : Site k) (j : Nat) :
    (s.node p).takeMail 0 j = ((s.letter? j).map (s.posted p), (s.mailed j).node p) := by
  match j with
  | 0 => rfl
  | 1 =>
    have hnode : (s.node p).takeMail 0 1 =
        ((s.mail.map (s.posted p)).head?,
          { s.node p with
            pipelines := [⟨k, ⟨p, [s.entryWorker, { s.routingWorker p with mail := (s.mail.map (s.posted p)).tail },
              s.storingWorker]⟩, none⟩] }) := rfl
    rw [hnode, List.head?_map, ← List.map_tail]
    rfl
  | 2 => rfl
  | _ + 3 => rfl

def receive (s : Site k) (x : Snapshot k.Carrier) : Site k :=
  { s with
    arrivals := (s.arrivals.send x).2
    shared := s.shared.count (.wireMessages (if (s.arrivals.send x).1.isOk then "received" else "rejected")) 1 }

theorem deliver_node {p : PipelineId} {s : Site k} (h : s.Placed p) (x : Snapshot k.Carrier) :
    (s.node p).deliver (.ofSnapshot p (.of p .persist) x) = ((s.arrivals.send x).1, (s.receive x).node p) := by
  have hentry : ¬ s.entry.stage = .of p .persist := by
    rw [h.entry, StageId.of_inj]
    exact fun heq => by cases heq.2
  have hrouting : ¬ s.routing.stage = .of p .persist := by
    rw [h.routing, StageId.of_inj]
    exact fun heq => by cases heq.2
  have hposition : (s.pipeline p).position? (.of p .persist) = some 2 := by
    simp [Pipeline.position?, pipeline, List.findIdx?_cons, Worker.stage, entryWorker, routingWorker, storingWorker,
      hentry, hrouting, h.arrivals]
  have hdeliver : (s.pipeline p).deliver (.ofSnapshot p (.of p .persist) x) =
      ((s.arrivals.send x).1, { s with arrivals := (s.arrivals.send x).2 }.pipeline p) := by
    unfold Pipeline.deliver
    rw [if_neg (fun hne => hne rfl), show (WireMessage.ofSnapshot p (.of p .persist) x).stage = .of p .persist from rfl,
      hposition, WireMessage.snapshot_ofSnapshot _ _ _ (k.decode?_encode x.record)]
    rfl
  have hfind : (s.node p).position? (WireMessage.ofSnapshot p (.of p .persist) x).pipeline = some 0 := by
    simp [Node.position?, node, AnyPipeline.id, pipeline, WireMessage.ofSnapshot]
  unfold Node.deliver
  rw [hfind]
  simp only [node, List.getElem?_cons_zero, hdeliver]
  rfl

/-! ### Records from outside -/

def submitted (s : Site k) (record : k.Carrier) : Site k :=
  { s with
    entry := (s.entry.send ⟨s.name, record⟩).2
    shared := (s.shared.count (.submitted (Rollup.tag k.Carrier)) 1).countRefusal (Rollup.tag k.Carrier) s.entry.stage
      (s.entry.send ⟨s.name, record⟩).1 }

theorem submit_node (p : PipelineId) (s : Site k) (record : k.Carrier) :
    (s.node p).submit k p record = ((s.entry.send ⟨s.name, record⟩).1, (s.submitted record).node p) := by
  have hfind : (s.node p).position? p = some 0 := by
    simp [Node.position?, node, AnyPipeline.id, pipeline]
  unfold Node.submit
  rw [hfind]
  simp only [node, List.getElem?_cons_zero, dif_pos]
  rfl

/-! ### Flushing and closing -/

def flushed (s : Site k) (f : Ledger.Counted k.Carrier) : Site k :=
  { s with store := f.store, ledger := f.ledger, shared := { s.shared with counters := f.counters } }

theorem flush_node (p : PipelineId) (s : Site k) (now : Instant) :
    (s.node p).flushAt now 0 =
      (s.ledger.flushCounted s.store now s.shared.counters).map fun f => ⟨f.report, [], (s.flushed f).node p⟩ := by
  have hledger : (s.pipeline p).ledger? = some s.ledger := rfl
  unfold Node.flushAt
  simp only [node, List.getElem?_cons_zero, hledger]
  cases hf : s.ledger.flushCounted s.store now s.shared.counters with
  | none =>
    simp only [Node.counters, hf]
    rfl
  | some f =>
    simp only [Node.counters, hf]
    rfl

/-- The stages of a kind take nothing more in. -/
def closed (kind : StageKind) (s : Site k) : Site k :=
  match kind with
  | .aggregate => { s with entry := s.entry.cancel }
  | .dispatch => { s with routing := s.routing.cancel }
  | .persist => { s with arrivals := s.arrivals.cancel }

theorem cancel_node (p : PipelineId) (s : Site k) (kind : StageKind) :
    (s.node p).cancel kind = (s.closed kind).node p := by
  cases kind <;> rfl

end Site
end TraceRollup
