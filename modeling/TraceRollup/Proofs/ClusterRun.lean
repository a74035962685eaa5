import Mathlib.Data.List.Basic
import Mathlib.Logic.Function.Basic
import TraceRollup.Proofs.Site
import TraceRollup.Proofs.Standing

/-!
# Runs of a cluster

The nodes of a cluster take steps in any order, each at what its own clock shows, while nodes
come within reach and out of it. A `ClusterRun` is such a cluster with notes on every node:
what was submitted and accepted there, and what was written to its store. When the nodes are
made from sites (`Composed`), what a node does is read off its site, whatever order its layout
puts the stages in; with the stages of a site one after another, a run goes on like the runs of
its sites (`Stationed.step`).
-/

namespace TraceRollup

/-! ### Notes -/

/-- What is noted of a node. -/
structure Log (k : RecordKind) where
  clock : Instant := .epoch
  /-- The records that were submitted and not refused. -/
  submitted : List k.Carrier := []
  /-- The records that were not late when they were to be totalled. -/
  accepted : List k.Carrier := []
  /-- When the snapshots in the buffer came in. -/
  arrived : OriginKey → Instant := fun _ => .epoch
  /-- The snapshots last written. -/
  written : Standing k.Carrier := fun _ => none

namespace Log
variable {k : RecordKind}

def under (l : Log k) (id : String) : List k.Carrier := l.accepted.filter fun a => decide (Rollup.id a = id)

def noteSubmit (record : k.Carrier) (answer : Except Refusal Unit) (l : Log k) : Log k :=
  if answer.isOk then { l with submitted := l.submitted ++ [record] } else l

def noteBatch (now : Instant) (w : Worker k.Carrier) (l : Log k) : Log k :=
  if w.canBegin then
    match w.state with
    | .aggregate totals =>
      { l with accepted := l.accepted ++ (w.nextBatch.filter fun s => !totals.isLate now s.record).map Snapshot.record }
    | .dispatch _ => l
    | .persist ledger =>
      { l with arrived := fun key =>
          if w.nextBatch.any fun s => !(Rollup.bucket s.record).isExpired now ledger.window &&
              decide ((s.origin, Rollup.id s.record) = key)
          then now else l.arrived key }
  else l

def noteFlush (ledger : Ledger k.Carrier) (before after : Store) (l : Log k) : Log k :=
  { l with written := l.written.advance ledger.buffer.toList (writesIn k.tag (after.callsSince before)) }

end Log

/-! ### Runs -/

/-- What can happen next. The first number is that of a node, the second that of a stage. -/
inductive ClusterMove (k : RecordKind)
  | submit (node : Nat) (record : k.Carrier)
  | begin (node stage : Nat) (now : Instant) (attached : List String) (stalled : Bool)
  | send (node stage : Nat)
  /-- A message gets lost on its way. -/
  | lose (node stage : Nat)
  | handOn (node stage : Nat)
  | flush (node : Nat) (now : Instant)
  | close (node : Nat) (kind : StageKind)

/-- A cluster with notes on its nodes. -/
structure ClusterRun (k : RecordKind) where
  cluster : Cluster
  logs : Nat → Log k

namespace ClusterRun
variable {k : RecordKind}

def worker? (p : PipelineId) (r : ClusterRun k) (i j : Nat) : Option (Worker k.Carrier) := do
  let pipeline ← (← r.cluster.nodes[i]?).pipeline? k p
  pipeline.workers[j]?

def ledger? (p : PipelineId) (r : ClusterRun k) (i : Nat) : Option (Ledger k.Carrier) := do
  let pipeline ← (← r.cluster.nodes[i]?).pipeline? k p
  pipeline.ledger?

def store (r : ClusterRun k) (i : Nat) : Store := ((r.cluster.nodes[i]?).map Node.store).getD .fresh

def note (r : ClusterRun k) (i : Nat) (f : Log k → Log k) : ClusterRun k :=
  { r with logs := Function.update r.logs i (f (r.logs i)) }

/-- The clock of a node shows `now`. -/
def read (r : ClusterRun k) (i : Nat) (now : Instant) : ClusterRun k :=
  { r with cluster := { r.cluster with clock := now } }.note i fun l => { l with clock := now }

/-- The ledger of a node was flushed: what it wrote shows in the calls that its store has answered. -/
def noteFlush (p : PipelineId) (before after : ClusterRun k) (i : Nat) : ClusterRun k :=
  after.note i fun l =>
    ((before.ledger? p i).map fun ledger => l.noteFlush ledger (before.store i) (after.store i)).getD l

def step (p : PipelineId) (r : ClusterRun k) : ClusterMove k → ClusterRun k
  | .submit i record =>
    let a := r.cluster.submitNow i k p record
    { r with cluster := a.2 }.note i (Log.noteSubmit record a.1)
  | .begin i j now attached stalled =>
    let r := r.read i now
    let r := { r with cluster := { r.cluster with attached, stalled } }
    let r := r.note i fun l => ((r.worker? p i j).map fun w => l.noteBatch now w).getD l
    { r with cluster := r.cluster.begin ⟨i, 0, j⟩ }
  | .send i j => { r with cluster := r.cluster.sendMail ⟨i, 0, j⟩ }
  | .lose i j => { r with cluster := r.cluster.modifyNode i fun n => (n.takeMail 0 j).2 }
  | .handOn i j => { r with cluster := r.cluster.handOn ⟨i, 0, j⟩ }
  | .flush i now =>
    let r := r.read i now
    match r.cluster.flushAt i 0 with
    | none => r
    | some f => r.noteFlush p { r with cluster := f.2.2 } i
  | .close i kind => { r with cluster := r.cluster.modifyNode i (Node.cancel kind) }

/-- The states that a run can get to by moves that are admitted. -/
inductive Reaches (p : PipelineId) (admits : ClusterRun k → ClusterMove k → Prop) (start : ClusterRun k) :
    ClusterRun k → Prop
  | refl : Reaches p admits start start
  | step {r : ClusterRun k} (m : ClusterMove k) (h : Reaches p admits start r) (hm : admits r m) :
      Reaches p admits start (r.step p m)

theorem Reaches.trans {p : PipelineId} {admits : ClusterRun k → ClusterMove k → Prop} {r s t : ClusterRun k}
    (h : Reaches p admits r s) (h' : Reaches p admits s t) : Reaches p admits r t := by
  induction h' with
  | refl => exact h
  | step m _ hm ih => exact .step m ih hm

end ClusterRun

/-! ### Stations -/

structure Station (k : RecordKind) where
  site : Site k
  log : Log k

namespace Station
variable {k : RecordKind}

/-- What a move does at the station where it takes place. -/
def act (p : PipelineId) (hash : PointHash) (s : Station k) : ClusterMove k → Station k
  | .submit _ record =>
    ⟨s.site.submitted record, s.log.noteSubmit record (s.site.entry.send ⟨s.site.name, record⟩).1⟩
  | .begin _ j now attached stalled =>
    let env := Cluster.conditions { nodes := [], hash, attached, stalled, clock := now }
    let log := { s.log with clock := now }
    ⟨s.site.begun env p j, (((s.site.pipeline p).workers[j]?).map fun w => log.noteBatch now w).getD log⟩
  | .send _ j | .lose _ j => { s with site := s.site.mailed j }
  | .handOn _ j => { s with site := s.site.handedOn p j }
  | .flush _ now =>
    let log := { s.log with clock := now }
    match s.site.ledger.flushCounted s.site.store now s.site.shared.counters with
    | none => { s with log }
    | some f => ⟨s.site.flushed f, log.noteFlush s.site.ledger s.site.store f.store⟩
  | .close _ kind => { s with site := s.site.closed kind }

def receive (s : Station k) (x : Snapshot k.Carrier) : Station k := { s with site := s.site.receive x }

theorem same_act (p : PipelineId) (hash : PointHash) (s : Station k) (m : ClusterMove k) :
    s.site.Same (s.act p hash m).site := by
  cases m with
  | submit i record => exact { Site.Same.refl s.site with entry := StageQueue.stage_send _ _ }
  | begin i j now attached stalled => exact Site.same_begun _ p s.site j
  | send i j | lose i j => match j with
    | 0 => exact ⟨rfl, rfl, rfl, rfl⟩
    | 1 => exact ⟨rfl, rfl, rfl, rfl⟩
    | _ + 2 => exact ⟨rfl, rfl, rfl, rfl⟩
  | handOn i j => exact Site.same_handedOn p s.site j
  | flush i now =>
    simp only [act]
    split <;> exact ⟨rfl, rfl, rfl, rfl⟩
  | close i kind => cases kind <;> exact ⟨rfl, rfl, rfl, rfl⟩

theorem same_receive (s : Station k) (x : Snapshot k.Carrier) : s.site.Same (s.receive x).site :=
  { Site.Same.refl s.site with arrivals := StageQueue.stage_send _ _ }

end Station

def ClusterMove.node {k : RecordKind} : ClusterMove k → Nat
  | .submit i _ | .begin i _ _ _ _ | .send i _ | .lose i _ | .handOn i _ | .flush i _ | .close i _ => i

theorem Cluster.nodeIndex?_congr {c d : Cluster} (h : d.nodes.map Node.name = c.nodes.map Node.name) (name : String) :
    d.nodeIndex? name = c.nodeIndex? name := by
  have key : ∀ c : Cluster, c.nodeIndex? name = (c.nodes.map Node.name).findIdx? fun n => decide (n = name) := by
    intro c
    rw [List.findIdx?_map]
    rfl
  rw [key, key, h]

/-! ### Nodes put together from stations -/

/-- The nodes of a run are put together from the sites of stations, no two of one name. -/
structure Composed {k : RecordKind} (make : Site k → Node) (r : ClusterRun k) (hash : PointHash) (count : Nat)
    (stations : Nat → Station k) : Prop where
  hash_eq : r.cluster.hash = hash
  nodes : r.cluster.nodes = (List.range count).map fun i => make (stations i).site
  logs : ∀ i < count, r.logs i = (stations i).log
  distinct : ∀ i < count, ∀ j < count, (stations i).site.name = (stations j).site.name → i = j

/-- However many stages there are, records enter at the first and are stored by the last. -/
structure Makes {k : RecordKind} (p : PipelineId) (make : Site k → Node) : Prop where
  name : ∀ s, (make s).name = s.name
  store : ∀ s, (make s).store = s.store
  ledger : ∀ s, ((make s).pipeline? k p).bind Pipeline.ledger? = some s.ledger
  storing : ∀ s l, (make s).pipeline? k p = some l → ∀ w ∈ l.workers, ∀ ledger, w.state = .persist ledger →
    w = s.storingWorker
  submit : ∀ s record, (make s).submit k p record = ((s.entry.send ⟨s.name, record⟩).1, make (s.submitted record))
  flush : ∀ s now, (make s).flushAt now 0 =
    (s.ledger.flushCounted s.store now s.shared.counters).map fun f => ⟨f.report, [], make (s.flushed f)⟩

namespace Composed
variable {k : RecordKind} {make : Site k → Node} {p : PipelineId} {r : ClusterRun k} {hash : PointHash} {count : Nat}
  {stations : Nat → Station k}

theorem getElem? (h : Composed make r hash count stations) {i : Nat} (hi : i < count) :
    r.cluster.nodes[i]? = some (make (stations i).site) := by
  rw [h.nodes]
  simp [hi]

theorem length (h : Composed make r hash count stations) : r.cluster.nodes.length = count := by
  rw [h.nodes, List.length_map, List.length_range]

theorem storing (h : Composed make r hash count stations) (hmake : Makes p make) {i j : Nat} {w : Worker k.Carrier}
    {l : Ledger k.Carrier} (hw : r.worker? p i j = some w) (hstate : w.state = .persist l) :
    i < count ∧ w = (stations i).site.storingWorker := by
  unfold ClusterRun.worker? at hw
  simp only [Option.bind_eq_bind, Option.bind_eq_some_iff] at hw
  obtain ⟨n, hn, l', hl, hw⟩ := hw
  have hi : i < count := h.length ▸ (List.getElem?_eq_some_iff.1 hn).1
  rw [h.getElem? hi, Option.some.injEq] at hn
  subst hn
  exact ⟨hi, hmake.storing _ l' hl w (List.mem_of_getElem? hw) l hstate⟩

theorem set_eq {i : Nat} (s : Station k) :
    ((List.range count).map fun i => make (stations i).site).set i (make s.site) =
      (List.range count).map fun j => make (Function.update stations i s j).site := by
  apply List.ext_getElem
  · simp
  · intro j hj hj'
    simp only [List.getElem_set, List.getElem_map, List.getElem_range, Function.update_apply]
    by_cases hij : i = j
    · simp [hij]
    · simp [hij, Ne.symm hij]

theorem set_self (h : Composed make r hash count stations) (i : Nat) :
    r.cluster.nodes.set i (make (stations i).site) = r.cluster.nodes := by
  rw [h.nodes, set_eq, Function.update_eq_self]

theorem congr (h : Composed make r hash count stations) {next : ClusterRun k}
    (hhash : next.cluster.hash = r.cluster.hash) (hnodes : next.cluster.nodes = r.cluster.nodes)
    (hlogs : ∀ i < count, next.logs i = r.logs i) : Composed make next hash count stations where
  hash_eq := hhash.trans h.hash_eq
  nodes := hnodes.trans h.nodes
  logs i hi := (hlogs i hi).trans (h.logs i hi)
  distinct := h.distinct

theorem update (h : Composed make r hash count stations) {next : ClusterRun k} {i : Nat} {s : Station k}
    (hhash : next.cluster.hash = r.cluster.hash) (hnodes : next.cluster.nodes = r.cluster.nodes.set i (make s.site))
    (hlog : next.logs i = s.log) (hlogs : ∀ j, j ≠ i → next.logs j = r.logs j)
    (hname : s.site.name = (stations i).site.name) :
    Composed make next hash count (Function.update stations i s) := by
  have hnames : ∀ j, (Function.update stations i s j).site.name = (stations j).site.name := by
    intro j
    by_cases hj : j = i
    · rw [hj, Function.update_self, hname]
    · rw [Function.update_of_ne hj]
  refine ⟨hhash.trans h.hash_eq, ?_, fun j hj => ?_, fun a ha b hb => ?_⟩
  · rw [hnodes, h.nodes, set_eq]
  · by_cases hji : j = i
    · rw [hji, Function.update_self, hlog]
    · rw [Function.update_of_ne hji, hlogs j hji, h.logs j hj]
  · rw [hnames, hnames]
    exact h.distinct a ha b hb

/-- A move at a node that does not exist changes nothing. -/
theorem step_nowhere (h : Composed make r hash count stations) {m : ClusterMove k} (hm : count ≤ m.node) :
    Composed make (r.step p m) hash count stations := by
  have hnone : r.cluster.nodes[m.node]? = none := List.getElem?_eq_none (h.length ▸ hm)
  have hmodify : ∀ f : Node → Node, r.cluster.nodes.modify m.node f = r.cluster.nodes :=
    fun f => List.modify_eq_self (List.getElem?_eq_none_iff.1 hnone)
  have hlogs : ∀ (f : Log k) (i : Nat), i < count → Function.update r.logs m.node f i = r.logs i := by
    intro f i hi
    rw [Function.update_of_ne (by omega)]
  cases m with
  | submit i record =>
    simp only [ClusterMove.node] at hnone hlogs
    simp only [ClusterRun.step, Cluster.submitNow, hnone, ClusterRun.note]
    exact h.congr rfl rfl (hlogs _)
  | begin i j now attached stalled =>
    simp only [ClusterMove.node] at hmodify hlogs
    refine h.congr rfl (hmodify _) fun a ha => ?_
    simp only [ClusterRun.step, ClusterRun.note, ClusterRun.read, Function.update_idem]
    exact hlogs _ a ha
  | send i j =>
    simp only [ClusterMove.node] at hnone
    simp only [ClusterRun.step, Cluster.sendMail, hnone]
    exact h.congr rfl rfl fun a _ => rfl
  | lose i j => exact h.congr rfl (hmodify _) fun a _ => rfl
  | handOn i j => exact h.congr rfl (hmodify _) fun a _ => rfl
  | flush i now =>
    simp only [ClusterMove.node] at hnone hlogs
    simp only [ClusterRun.step, Cluster.flushAt, ClusterRun.read, ClusterRun.note, hnone]
    refine h.congr rfl rfl fun a ha => ?_
    simp only [ClusterMove.node] at hm
    simp only [ClusterRun.noteFlush, ClusterRun.note, Function.update_of_ne (show a ≠ i by omega)]
  | close i kind => exact h.congr rfl (hmodify _) fun a _ => rfl

/-- One node changes, and its notes stay as they are. -/
theorem modify (h : Composed make r hash count stations) {i : Nat} (hi : i < count) {f : Node → Node} {t : Site k}
    (hf : f (make (stations i).site) = make t) (hname : t.name = (stations i).site.name) :
    Composed make { r with cluster := r.cluster.modifyNode i f } hash count
      (Function.update stations i { stations i with site := t }) := by
  refine h.update rfl ?_ (h.logs i hi) (fun _ _ => rfl) hname
  have hset := List.modify_eq_set_getElem? f i r.cluster.nodes
  rw [h.getElem? hi, Option.map_eq_map, Option.map_some, hf] at hset
  exact hset

theorem step_submit (h : Composed make r hash count stations) (hmake : Makes p make) {i : Nat} (hi : i < count)
    (record : k.Carrier) :
    Composed make (r.step p (.submit i record)) hash count
      (Function.update stations i ((stations i).act p hash (.submit i record))) := by
  simp only [ClusterRun.step, Cluster.submitNow, h.getElem? hi, ClusterRun.note, hmake.submit]
  refine h.update rfl rfl ?_ (fun j hj => Function.update_of_ne hj _ _) rfl
  simp only [Function.update_self, h.logs i hi]
  rfl

theorem step_begin (h : Composed make r hash count stations) {i j : Nat} (hi : i < count) {now : Instant}
    {attached : List String} {stalled : Bool} {t : Station k}
    (hbegin : (make (stations i).site).begin
      (Cluster.conditions { nodes := [], hash, attached, stalled, clock := now }) 0 j = make t.site)
    (hlog : ((((make (stations i).site).pipeline? k p).bind fun pl => pl.workers[j]?).map fun w =>
      Log.noteBatch now w { (stations i).log with clock := now }).getD { (stations i).log with clock := now } = t.log)
    (hname : t.site.name = (stations i).site.name) :
    Composed make (r.step p (.begin i j now attached stalled)) hash count (Function.update stations i t) := by
  refine h.update rfl ?_ ?_ (fun l hl => ?_) hname
  · have hset := List.modify_eq_set_getElem? (fun n : Node => n.begin
      (Cluster.conditions { nodes := [], hash := r.cluster.hash, attached, stalled, clock := now }) 0 j) i r.cluster.nodes
    rw [h.getElem? hi, Option.map_eq_map, Option.map_some, h.hash_eq, hbegin] at hset
    rw [← h.hash_eq] at hset
    exact hset
  · rw [← hlog]
    simp only [ClusterRun.step, ClusterRun.note, ClusterRun.read, Function.update_self, ClusterRun.worker?,
      h.getElem? hi, Option.bind_eq_bind, Option.bind_some, h.logs i hi]
  · simp only [ClusterRun.step, ClusterRun.note, ClusterRun.read, Function.update_of_ne hl]

theorem read (h : Composed make r hash count stations) {i : Nat} (hi : i < count) (now : Instant) :
    Composed make (r.read i now) hash count
      (Function.update stations i { stations i with log := { (stations i).log with clock := now } }) := by
  refine h.update rfl ?_ ?_ (fun j hj => Function.update_of_ne hj _ _) rfl
  · exact (h.set_self i).symm
  · simp only [ClusterRun.read, ClusterRun.note, Function.update_self, h.logs i hi]

theorem step_flush (h : Composed make r hash count stations) (hmake : Makes p make) {i : Nat} (hi : i < count)
    (now : Instant) :
    Composed make (r.step p (.flush i now)) hash count
      (Function.update stations i ((stations i).act p hash (.flush i now))) := by
  have hread := h.read hi now
  have hnode := hread.getElem? hi
  have hlog := hread.logs i hi
  simp only [Function.update_self] at hnode hlog
  simp only [ClusterRun.step, Station.act]
  generalize hr₁ : r.read i now = r₁ at hread hnode hlog ⊢
  have hclock : r₁.cluster.clock = now := by
    rw [← hr₁]
    rfl
  have hflush : r₁.cluster.flushAt i 0 =
      ((stations i).site.ledger.flushCounted (stations i).site.store now (stations i).site.shared.counters).map
        fun f => (f.report, [], { r₁.cluster with
          nodes := r₁.cluster.nodes.set i (make ((stations i).site.flushed f)) }) := by
    simp only [Cluster.flushAt, hnode, hmake.flush, hclock]
    cases (stations i).site.ledger.flushCounted (stations i).site.store now (stations i).site.shared.counters <;> rfl
  rw [hflush]
  cases (stations i).site.ledger.flushCounted (stations i).site.store now (stations i).site.shared.counters with
  | none => exact hread
  | some f =>
    have hlt : i < r₁.cluster.nodes.length := by rwa [hread.length]
    have hledger : r₁.ledger? p i = some (stations i).site.ledger := by
      simp only [ClusterRun.ledger?, hnode, Option.bind_eq_bind, Option.bind_some]
      exact hmake.ledger (stations i).site
    have hnext : Composed make (r₁.noteFlush p { r₁ with cluster := { r₁.cluster with
        nodes := r₁.cluster.nodes.set i (make ((stations i).site.flushed f)) } } i) hash count
        (Function.update (Function.update stations i { stations i with log := { (stations i).log with clock := now } }) i
          ⟨(stations i).site.flushed f, Log.noteFlush (stations i).site.ledger (stations i).site.store f.store
            { (stations i).log with clock := now }⟩) := by
      refine hread.update rfl rfl ?_ (fun j hj => Function.update_of_ne hj _ _) ?_
      · simp only [ClusterRun.noteFlush, ClusterRun.note, Function.update_self, hledger, ClusterRun.store, hnode, hlog,
          List.getElem?_set_self hlt, Option.map_some, Option.getD_some, hmake.store]
        rfl
      · simp only [Function.update_self]
        rfl
    rw [Function.update_idem] at hnext
    exact hnext

end Composed

/-! ### Nodes with three stages -/

theorem Site.makes_node {k : RecordKind} (p : PipelineId) : Makes (k := k) p (Site.node p) where
  name _ := rfl
  store _ := rfl
  ledger s := by
    rw [Site.pipeline?_node]
    rfl
  storing s l hl w hw ledger hstate := by
    rw [Site.pipeline?_node] at hl
    cases hl
    simp only [Site.pipeline, List.mem_cons, List.not_mem_nil, or_false] at hw
    rcases hw with rfl | rfl | rfl
    · cases hstate
    · cases hstate
    · rfl
  submit s record := s.submit_node p record
  flush s now := s.flush_node p now

/-- The nodes of a run are made up of stations, no two of one name. -/
structure Stationed {k : RecordKind} (p : PipelineId) (r : ClusterRun k) (hash : PointHash) (count : Nat)
    (stations : Nat → Station k) : Prop extends Composed (Site.node p) r hash count stations where
  placed : ∀ i < count, (stations i).site.Placed p

/-- The stations after a move. A letter that was sent may arrive at another one. -/
inductive Moved {k : RecordKind} (p : PipelineId) (hash : PointHash) (count : Nat) (stations : Nat → Station k)
    (m : ClusterMove k) : (Nat → Station k) → Prop
  | nowhere (h : count ≤ m.node) : Moved p hash count stations m stations
  | here (h : m.node < count) :
    Moved p hash count stations m (Function.update stations m.node ((stations m.node).act p hash m))
  | sent {i d : Nat} {x : Snapshot k.Carrier} (hm : m = .send i 1) (hi : i < count) (hd : d < count)
    (hne : (stations i).site.name ≠ (stations d).site.name)
    (hx : (stations i).site.mail.head? = some ((stations d).site.name, x)) :
    Moved p hash count stations m
      (Function.update (Function.update stations i ((stations i).act p hash m)) d ((stations d).receive x))

namespace Stationed
variable {k : RecordKind} {p : PipelineId} {r : ClusterRun k} {hash : PointHash} {count : Nat}
  {stations : Nat → Station k}

theorem of_composed (h : Stationed p r hash count stations) {next : ClusterRun k} {i : Nat} {s : Station k}
    (hnext : Composed (Site.node p) next hash count (Function.update stations i s))
    (hsame : (stations i).site.Same s.site) : Stationed p next hash count (Function.update stations i s) := by
  refine ⟨hnext, fun j hj => ?_⟩
  by_cases hji : j = i
  · subst hji
    rw [Function.update_self]
    exact hsame.placed (h.placed j hj)
  · rw [Function.update_of_ne hji]
    exact h.placed j hj

theorem posted (h : Stationed p r hash count stations) {i : Nat} (hi : i < count) (j : Nat) :
    Stationed p { r with cluster :=
        { r.cluster with nodes := r.cluster.nodes.set i (((stations i).site.mailed j).node p) } } hash count
      (Function.update stations i ((stations i).act p hash (.send i j))) := by
  have hsame := (stations i).same_act p hash (.send i j)
  exact h.of_composed (h.toComposed.update rfl rfl (h.logs i hi) (fun _ _ => rfl) hsame.name) hsame

theorem names_posted (h : Stationed p r hash count stations) {i : Nat} (j : Nat) :
    (r.cluster.nodes.set i (((stations i).site.mailed j).node p)).map Node.name = r.cluster.nodes.map Node.name := by
  have hname : (((stations i).site.mailed j).node p).name = ((stations i).site.node p).name :=
    ((stations i).same_act p hash (.send i j)).name
  rw [List.map_set, hname, ← List.map_set, h.set_self i]

/-- A move without a letter that arrives changes the station where it takes place. -/
theorem step_here (h : Stationed p r hash count stations) {m : ClusterMove k} (hm : m.node < count)
    (hsend : ∀ i j, m = .send i j → ∀ name x, (stations i).site.letter? j = some (name, x) →
      r.cluster.nodeIndex? name = none) :
    Stationed p (r.step p m) hash count (Function.update stations m.node ((stations m.node).act p hash m)) := by
  have hsame := (stations m.node).same_act p hash m
  cases m with
  | submit i record => exact h.of_composed (h.step_submit (Site.makes_node p) hm record) hsame
  | begin i j now attached stalled =>
    refine h.of_composed (h.step_begin hm (Site.begin_node _ p _ j) ?_ hsame.name) hsame
    rw [Site.pipeline?_node]
    rfl
  | send i j =>
    simp only [ClusterMove.node] at hm ⊢
    have hout := h.posted hm j
    have hindex : ∀ name, Cluster.nodeIndex?
        { r.cluster with nodes := r.cluster.nodes.set i (((stations i).site.mailed j).node p) } name =
          r.cluster.nodeIndex? name := fun name => Cluster.nodeIndex?_congr (h.names_posted j) name
    have hstep : r.step p (.send i j) = { r with cluster :=
        { r.cluster with nodes := r.cluster.nodes.set i (((stations i).site.mailed j).node p) } } := by
      simp only [ClusterRun.step, Cluster.sendMail, h.getElem? hm, Site.takeMail_node]
      cases hletter : (stations i).site.letter? j with
      | none => rfl
      | some l =>
        simp only [Option.map_some, Site.posted, hindex, hsend i j rfl l.1 l.2 hletter]
    rw [hstep]
    exact hout
  | lose i j =>
    refine h.of_composed (h.modify hm ?_ hsame.name) hsame
    rw [Site.takeMail_node]
  | handOn i j => exact h.of_composed (h.modify hm (Site.handOn_node p _ j) hsame.name) hsame
  | flush i now => exact h.of_composed (h.step_flush (Site.makes_node p) hm now) hsame
  | close i kind => exact h.of_composed (h.modify hm (Site.cancel_node p _ kind) hsame.name) hsame

theorem step_sent (h : Stationed p r hash count stations) {i d : Nat} {x : Snapshot k.Carrier} (hi : i < count)
    (hd : d < count) (hid : i ≠ d) (hx : (stations i).site.mail.head? = some ((stations d).site.name, x)) :
    Stationed p (r.step p (.send i 1)) hash count
      (Function.update (Function.update stations i ((stations i).act p hash (.send i 1))) d ((stations d).receive x)) := by
  have hnode := h.getElem? hi
  have hout := h.posted hi 1
  have hindex : Cluster.nodeIndex?
      { r.cluster with nodes := r.cluster.nodes.set i (((stations i).site.mailed 1).node p) } (stations d).site.name =
        some d := by
    rw [Cluster.nodeIndex?_congr (h.names_posted 1), Cluster.nodeIndex?, List.findIdx?_eq_some_iff_getElem]
    have hget : ∀ (j : Nat) (hj : j < r.cluster.nodes.length), (r.cluster.nodes[j]).name = (stations j).site.name := by
      intro j hj
      have hsome := h.getElem? (h.length ▸ hj)
      rw [List.getElem?_eq_getElem hj] at hsome
      rw [Option.some.inj hsome]
      rfl
    refine ⟨h.length ▸ hd, decide_eq_true (hget d _), fun j hj => ?_⟩
    rw [decide_eq_true_eq, hget]
    exact fun hname => absurd (h.distinct j (by omega) d hd hname) (by omega)
  have hpeer := hout.getElem? hd
  simp only [Function.update_of_ne (Ne.symm hid)] at hpeer
  have hstep : r.step p (.send i 1) = { r with cluster := { r.cluster with
      nodes := (r.cluster.nodes.set i (((stations i).site.mailed 1).node p)).set d
        (((stations d).site.receive x).node p) } } := by
    have hmessage : (stations i).site.posted p ((stations d).site.name, x) =
        ((stations d).site.name, .ofSnapshot p (.of p .persist) x) := rfl
    simp only [ClusterRun.step, Cluster.sendMail, hnode, Site.takeMail_node, Site.letter?, hx, Option.map_some,
      hmessage, hindex, Cluster.deliverNow, hpeer, Site.deliver_node (h.placed d hd)]
  have hsame : (Function.update stations i ((stations i).act p hash (.send i 1)) d).site.Same
      ((stations d).receive x).site := by
    rw [Function.update_of_ne (Ne.symm hid)]
    exact (stations d).same_receive x
  rw [hstep]
  exact hout.of_composed (hout.toComposed.update (s := (stations d).receive x) rfl rfl (h.logs d hd) (fun _ _ => rfl)
    hsame.name) hsame

/-- Every move of a run is one of its stations, if no letter is for the node that sends it. -/
theorem step (h : Stationed p r hash count stations)
    (hmail : ∀ i < count, ∀ l ∈ (stations i).site.mail, l.1 ≠ (stations i).site.name) (m : ClusterMove k) :
    ∃ next, Stationed p (r.step p m) hash count next ∧ Moved p hash count stations m next := by
  by_cases hm : m.node < count
  · by_cases harrives : ∃ i j name x, m = .send i j ∧ (stations i).site.letter? j = some (name, x) ∧
        r.cluster.nodeIndex? name ≠ none
    · obtain ⟨i, j, name, x, rfl, hletter, hindex⟩ := harrives
      obtain ⟨d, hd⟩ := Option.ne_none_iff_exists'.1 hindex
      simp only [ClusterMove.node] at hm
      match j with
      | 0 | _ + 2 => cases hletter
      | 1 =>
        have hx : (stations i).site.mail.head? = some (name, x) := hletter
        rw [Cluster.nodeIndex?, List.findIdx?_eq_some_iff_getElem] at hd
        obtain ⟨hlt, hname, _⟩ := hd
        have hd : d < count := h.length ▸ hlt
        have hsome := h.getElem? hd
        rw [List.getElem?_eq_getElem hlt] at hsome
        rw [Option.some.inj hsome, decide_eq_true_eq] at hname
        have hname : (stations d).site.name = name := hname
        subst hname
        have hne := hmail i hm _ (List.mem_of_mem_head? hx)
        have hid : i ≠ d := fun heq => hne (by rw [heq])
        exact ⟨_, h.step_sent hm hd hid hx, .sent rfl hm hd (Ne.symm hne) hx⟩
    · refine ⟨_, h.step_here hm ?_, .here hm⟩
      intro i j heq name x hletter
      by_contra hindex
      exact harrives ⟨i, j, name, x, heq, hletter, hindex⟩
  · exact ⟨stations, ⟨h.step_nowhere (by omega), h.placed⟩, .nowhere (by omega)⟩

end Stationed
end TraceRollup
