import TraceRollup.Proofs.Orderly

/-!
# Clusters with fixed members

The nodes of a cluster all know the same members. Whatever order they take their steps in and
whatever gets lost, the stations stay sound and the lines between them in order
(`Upheld.step`). So only the owner of a key has a row for it, and that row counts for every
node a first part of what the node has accepted (`ClusterRun.row_counts`).
-/

namespace TraceRollup

/-! ### Lines between all stations -/

def Lines {k : RecordKind} (hash : PointHash) (ring : HashRing) (count : Nat) (stations : Nat → Station k) : Prop :=
  ∀ o < count, ∀ d < count, ∀ id, Line hash ring (stations o) (stations d) id

theorem Line.sent {k : RecordKind} {hash : PointHash} {ring : HashRing} {o d : Station k} {x : Snapshot k.Carrier}
    {id : String} (h : Line hash ring o d id) (hne : o.site.name ≠ d.site.name)
    (hx : o.site.mail.head? = some (d.site.name, x)) :
    Line hash ring { o with site := o.site.mailed 1 } (d.receive x) id := by
  refine ⟨h.order.sent hne hx, fun hnil => h.place fun hs => hnil ?_⟩
  have hsub := Station.inbound_sent hne hx id
  rw [hs] at hsub
  exact List.sublist_nil.1 hsub

theorem Line.receive {k : RecordKind} {hash : PointHash} {ring : HashRing} {o d : Station k} {x : Snapshot k.Carrier}
    {id : String} (h : Line hash ring o d id) (hne : x.origin ≠ o.site.name) : Line hash ring o (d.receive x) id := by
  refine ⟨h.order.receive hne, ?_⟩
  rw [Station.inbound_receive d (o.site.name, id) hne]
  exact h.place

namespace Lines
variable {k : RecordKind} {hash : PointHash} {ring : HashRing} {count : Nat} {stations : Nat → Station k}

theorem here (h : Lines hash ring count stations) {i : Nat} {t : Station k} (hi : i < count)
    (hp : Progress hash ring (stations i) t)
    (hdistinct : ∀ i < count, ∀ j < count, (stations i).site.name = (stations j).site.name → i = j) :
    Lines hash ring count (Function.update stations i t) := by
  have hne : ∀ j, j < count → j ≠ i → (stations j).site.name ≠ (stations i).site.name :=
    fun j hj hji heq => hji (hdistinct j hj i hi heq)
  exact pairs_update (R := fun o d => ∀ id, Line hash ring o d id) h
    (fun d hd hdi id => hp.line_out (h i hi d hd id) (hne d hd hdi))
    (fun o ho hoi id => hp.line_in (h o ho i hi id) (hne o ho hoi))
    fun id => hp.line_home (h i hi i hi id)

theorem sent (h : Lines hash ring count stations) {i j : Nat} {x : Snapshot k.Carrier} (hi : i < count) (hj : j < count)
    (hdistinct : ∀ i < count, ∀ j < count, (stations i).site.name = (stations j).site.name → i = j)
    (hne : (stations i).site.name ≠ (stations j).site.name) (horigin : x.origin = (stations i).site.name)
    (hx : (stations i).site.mail.head? = some ((stations j).site.name, x)) :
    Lines hash ring count (Function.update (Function.update stations i
      { stations i with site := (stations i).site.mailed 1 }) j ((stations j).receive x)) := by
  have hij : i ≠ j := fun heq => hne (by rw [heq])
  have hleft := h.here hi (Station.Sound.progress_mailed (stations i) 1) hdistinct
  refine pairs_sent (R := fun o d => ∀ id, Line hash ring o d id) hj hij hleft
    (fun id => (h i hi j hj id).sent hne hx) (fun d hout id => ⟨(hout id).order, (hout id).place⟩) ?_ ?_
  · exact fun o ho hoi hin id =>
      (hin id).receive (by rw [horigin]; exact fun heq => hoi (hdistinct o ho i hi heq.symm))
  · intro hhome id
    have hreceived := (hhome id).receive (x := x) (by rw [horigin]; exact hne)
    exact ⟨hreceived.order, hreceived.place⟩

end Lines

/-! ### What is upheld -/

/-- The stations of a run are sound, and the lines between them in order. -/
structure Upheld {k : RecordKind} {V : Type} [AddCommMonoid V] (A : Account k.Carrier V) (p : PipelineId)
    (hash : PointHash) (ring : HashRing) (good : k.Carrier → Prop) (r : ClusterRun k) (count : Nat)
    (stations : Nat → Station k) : Prop where
  stationed : Stationed p r hash count stations
  sound : ∀ i < count, (stations i).Sound A hash ring good
  lines : Lines hash ring count stations
  known : ∀ i < count, ∀ key, (stations i).inbound key ≠ [] → ∃ o < count, (stations o).site.name = key.1

namespace Upheld
variable {k : RecordKind} {V : Type} [AddCommMonoid V] {A : Account k.Carrier V} {p : PipelineId} {hash : PointHash}
  {ring : HashRing} {good : k.Carrier → Prop} {r : ClusterRun k} {count : Nat} {stations : Nat → Station k}

theorem orderly (h : Upheld A p hash ring good r count stations) : Orderly A hash good count stations where
  distinct := h.stationed.distinct
  sound i hi := ⟨ring, h.sound i hi⟩
  order o ho d hd id := (h.lines o ho d hd id).order
  known := h.known

theorem ready (h : Upheld A p hash ring good r count stations)
    (hchain : ∀ o < count, ∀ id, A.Chain id ((stations o).totals id)) {i : Nat} (hi : i < count) :
    Ready A (stations i).log.written (stations i).site.ledger.buffer :=
  h.orderly.ready hchain hi

variable [Cumulative k.Carrier]

/-- A move at one node, without a letter that arrives. -/
theorem here (h : Upheld A p hash ring good r count stations) {m : ClusterMove k} {after : ClusterRun k}
    (hnode : m.node < count) (hm : m.Admissible good (stations m.node).log)
    (hready : Ready A (stations m.node).log.written (stations m.node).site.ledger.buffer)
    (hstationed : Stationed p after hash count
      (Function.update stations m.node ((stations m.node).act p hash m))) :
    Upheld A p hash ring good after count (Function.update stations m.node ((stations m.node).act p hash m)) := by
  have hprogress := (h.sound m.node hnode).progress p hm
  have hsound := (h.sound m.node hnode).act p hm hready
  refine ⟨hstationed, fun i hi => ?_, h.lines.here hnode hprogress h.stationed.distinct,
    (h.orderly.here hnode hprogress ⟨ring, hsound⟩).known⟩
  by_cases him : i = m.node
  · rw [him, Function.update_self]
    exact hsound
  · rw [Function.update_of_ne him]
    exact h.sound i hi

/-- A letter that arrives comes in at another station, and only from the one that sent it. -/
theorem sent (h : Upheld A p hash ring good r count stations) {i d : Nat} {x : Snapshot k.Carrier}
    {after : ClusterRun k} (hi : i < count) (hd : d < count) (hne : (stations i).site.name ≠ (stations d).site.name)
    (hx : (stations i).site.mail.head? = some ((stations d).site.name, x))
    (hready : Ready A (stations i).log.written (stations i).site.ledger.buffer)
    (hstationed : Stationed p after hash count
      (Function.update (Function.update stations i ((stations i).act p hash (.send i 1))) d ((stations d).receive x))) :
    Upheld A p hash ring good after count
      (Function.update (Function.update stations i ((stations i).act p hash (.send i 1))) d
        ((stations d).receive x)) := by
  have horigin := ((h.sound i hi).mail _ (List.mem_of_mem_head? hx)).2
  have hsound := (h.sound i hi).act p (m := .send i 1) trivial hready
  refine ⟨hstationed, fun j hj => ?_, h.lines.sent hi hd h.stationed.distinct hne horigin hx,
    (h.orderly.sent hi hd hne horigin hx ⟨ring, hsound⟩).known⟩
  by_cases hjd : j = d
  · rw [hjd, Function.update_self]
    exact (h.sound d hd).receive x
  · rw [Function.update_of_ne hjd]
    by_cases hji : j = i
    · rw [hji, Function.update_self]
      exact hsound
    · rw [Function.update_of_ne hji]
      exact h.sound j hj

theorem step (h : Upheld A p hash ring good r count stations) {m : ClusterMove k}
    (hm : m.Admissible good (r.logs m.node)) (hchain : ∀ o < count, ∀ id, A.Chain id ((stations o).totals id)) :
    ∃ next, Upheld A p hash ring good (r.step p m) count next ∧ Moved p hash count stations m next := by
  obtain ⟨next, hstationed, hmoved⟩ := h.stationed.step (fun i hi l hl => ((h.sound i hi).mail l hl).1) m
  refine ⟨next, ?_, hmoved⟩
  cases hmoved with
  | nowhere hnode => exact ⟨hstationed, h.sound, h.lines, h.known⟩
  | here hnode =>
    have hadmissible : m.Admissible good (stations m.node).log := h.stationed.logs m.node hnode ▸ hm
    exact h.here hnode hadmissible (h.ready hchain hnode) hstationed
  | sent hsend hi hd hne hx =>
    subst hsend
    exact h.sent hi hd hne hx (h.ready hchain hi) hstationed

end Upheld

/-! ### The beginning -/

/-- A node without pipelines and rows, which knows the members. -/
structure Node.Fresh (k : RecordKind) (hash : PointHash) (members : List String) (virtualNodes : Nat) (n : Node) :
    Prop where
  pipelines : n.pipelines = []
  knows : ∀ m, m ∈ n.shared.router.members.nodes ↔ m ∈ members
  replicas : n.shared.router.virtualNodes = virtualNodes
  /-- A ring that was kept is that of the members. -/
  built : ∀ b, n.shared.router.built = some b → b.2 = HashRing.build hash members virtualNodes
  table : n.store.table k.tag = Dict.empty

/-- Nodes of different names have just built their pipelines. -/
structure ClusterRun.Opens {k : RecordKind} (p : PipelineId) (members : List String) (virtualNodes : Nat)
    (r : ClusterRun k) : Prop where
  nodes : ∀ n ∈ r.cluster.nodes, ∃ m : Node,
    m.Fresh k r.cluster.hash members virtualNodes ∧ (m.build k p Collector.layout none).2 = n
  names : (r.cluster.nodes.map Node.name).Nodup
  logs : ∀ i, r.logs i = {}

theorem Node.Fresh.current {k : RecordKind} {hash : PointHash} {members : List String} {virtualNodes : Nat} {n : Node}
    (h : n.Fresh k hash members virtualNodes) :
    n.shared.router.current hash = HashRing.build hash members virtualNodes := by
  refine Router.current_eq h.built ?_
  rw [h.replicas]
  exact HashRing.build_congr h.knows hash virtualNodes

theorem ClusterRun.Opens.iff_built {k : RecordKind} {p : PipelineId} {members : List String} {virtualNodes : Nat}
    {r : ClusterRun k} : r.Opens p members virtualNodes ↔
      r.Built p Collector.layout fun m => m.Fresh k r.cluster.hash members virtualNodes :=
  ⟨fun h => ⟨fun n hn => (h.nodes n hn).imp fun _ hm => ⟨hm.1, hm.1.pipelines, hm.2⟩, h.names, h.logs⟩,
    fun h => ⟨fun n hn => (h.nodes n hn).imp fun _ hm => ⟨hm.1, hm.2.2⟩, h.names, h.logs⟩⟩

theorem ClusterRun.Opens.upheld {k : RecordKind} {V : Type} [AddCommMonoid V] (A : Account k.Carrier V)
    (good : k.Carrier → Prop) {p : PipelineId} {members : List String} {virtualNodes : Nat} {r : ClusterRun k}
    (h : r.Opens p members virtualNodes) :
    ∃ stations, Upheld A p r.cluster.hash (HashRing.build r.cluster.hash members virtualNodes) good r
      r.cluster.nodes.length stations ∧
      ∀ i, ∃ m : Node, stations i = ⟨.create k p m.name m.options m.store m.shared, {}⟩ := by
  obtain ⟨founder, hfresh, hstationed⟩ := (Opens.iff_built.1 h).stationed
  refine ⟨_, ⟨hstationed, fun i hi => ?_, fun o _ d _ id => ⟨.create (founder o) rfl, fun hnil => ?_⟩,
    fun i _ key hnil => absurd rfl hnil⟩, fun i => ⟨founder i, rfl⟩⟩
  · rw [← (hfresh i hi).current]
    exact Station.sound_create A p _ good (hfresh i hi).table
  · exact absurd (Station.arriving_create (founder o) _ _ id rfl) hnil

end TraceRollup
