import TraceRollup.Proofs.FixedMembership
import TraceRollup.Proofs.StoredTotals

/-!
# What the rows of a cluster count

In a cluster with fixed members only the owner of a key has a row for it, and the row counts of
every node the first of the calls accepted there, each of them once (`ClusterRun.row_counts`).
-/

namespace TraceRollup

/-! ### The totals of calls are a chain -/

namespace Upheld
variable {k : RecordKind} [Counted k.Carrier] {p : PipelineId} {hash : PointHash} {ring : HashRing}
  {r : ClusterRun k} {count : Nat} {stations : Nat → Station k}

theorem totals_chain {good : k.Carrier → Prop} (hgood : ∀ a, good a → Counted.IsCall a)
    (h : Upheld (Counted.account k.Carrier) p hash ring good r count stations) :
    ∀ o < count, ∀ id, (Counted.account k.Carrier).Chain id ((stations o).totals id) :=
  h.orderly.totals_chain hgood

/-- In every state of every run the stations are upheld, and have what they begin with and every
move keeps. -/
theorem run_keeping [Cumulative k.Carrier] {I : Station k → Prop} {members : List String} {virtualNodes : Nat}
    {start : ClusterRun k} (hopens : start.Opens p members virtualNodes)
    (hcreate : ∀ m : Node, I ⟨.create k p m.name m.options m.store m.shared, {}⟩)
    (hmoved : ∀ (stations next : Nat → Station k) (m : ClusterMove k),
      Moved p start.cluster.hash start.cluster.nodes.length stations m next →
      (m.node < start.cluster.nodes.length → m.Admissible Counted.IsCall (stations m.node).log) →
      (∀ i < start.cluster.nodes.length, I (stations i)) → ∀ i < start.cluster.nodes.length, I (next i))
    (h : ClusterRun.Reaches p (fun r m => m.Admissible Counted.IsCall (r.logs m.node)) start r) :
    ∃ stations, Upheld (Counted.account k.Carrier) p start.cluster.hash
      (HashRing.build start.cluster.hash members virtualNodes) Counted.IsCall r start.cluster.nodes.length stations ∧
      ∀ i < start.cluster.nodes.length, I (stations i) := by
  induction h with
  | refl =>
    obtain ⟨stations, hs, hcreated⟩ := hopens.upheld (Counted.account k.Carrier) Counted.IsCall
    refine ⟨stations, hs, fun i _ => ?_⟩
    obtain ⟨m, hm⟩ := hcreated i
    rw [hm]
    exact hcreate m
  | step m _ hm ih =>
    obtain ⟨stations, hs, hkept⟩ := ih
    obtain ⟨next, hnext, hmove⟩ := hs.step hm (totals_chain (fun _ ha => ha) hs)
    exact ⟨next, hnext, hmoved stations next m hmove (fun hnode => hs.stationed.logs m.node hnode ▸ hm) hkept⟩

theorem run [Cumulative k.Carrier] {members : List String} {virtualNodes : Nat} {start : ClusterRun k}
    (hopens : start.Opens p members virtualNodes)
    (h : ClusterRun.Reaches p (fun r m => m.Admissible Counted.IsCall (r.logs m.node)) start r) :
    ∃ stations, Upheld (Counted.account k.Carrier) p start.cluster.hash
      (HashRing.build start.cluster.hash members virtualNodes) Counted.IsCall r start.cluster.nodes.length stations := by
  obtain ⟨stations, hs, _⟩ := run_keeping (I := fun _ => True) hopens (fun _ => trivial)
    (fun _ _ _ _ _ _ _ _ => trivial) h
  exact ⟨stations, hs⟩

end Upheld

/-! ### What a row counts -/

namespace Upheld
variable {k : RecordKind} {V : Type} [AddCommMonoid V] {A : Account k.Carrier V} {p : PipelineId} {hash : PointHash}
  {ring : HashRing} {good : k.Carrier → Prop} {r : ClusterRun k} {count : Nat} {stations : Nat → Station k}

/-- What was written came from a node of the cluster, and belongs here. -/
theorem origin (h : Upheld A p hash ring good r count stations) {i : Nat} (hi : i < count) {o id : String}
    (hW : (stations i).log.written (o, id) ≠ none) :
    ∃ j < count, (stations j).site.name = o ∧ (stations j).dest hash ring id = (stations i).site.name := by
  have hin := Station.inbound_of_written hW
  obtain ⟨j, hj, hname⟩ := h.known i hi (o, id) hin
  have hname : (stations j).site.name = o := hname
  refine ⟨j, hj, hname, (h.lines j hj i hi id).place fun hnil => hin ?_⟩
  rw [← hname]
  exact (List.append_eq_nil_iff.1 hnil).1

end Upheld

namespace Upheld
variable {k : RecordKind} [Counted k.Carrier] {p : PipelineId} {hash : PointHash} {ring : HashRing}
  {r : ClusterRun k} {count : Nat} {stations : Nat → Station k}

/-- The rows of a node are of keys that it owns, and count what they should. -/
theorem row (h : Upheld (Counted.account k.Carrier) p hash ring Counted.IsCall r count stations)
    (htally : k.tally = Counted.tally) {i : Nat} {n : Node} (hn : r.cluster.nodes[i]? = some n) (id : String) :
    (∀ row, (n.store.table k.tag).get? id = some row →
      (∀ owner, ring.owner? hash id = some owner → owner = n.name) ∧
        ∃ m, row = Rollup.encode m ∧ r.Counts i id m) ∧
    ((n.store.table k.tag).get? id = none → ∀ o, (r.logs i).written (o, id) = none) := by
  obtain ⟨hi, hname, hstore⟩ := h.stationed.shows.name hn
  obtain ⟨hrow, hnone⟩ := h.orderly.row h.stationed.shows htally hi id
  rw [h.stationed.shows.store_eq hi, ← hstore] at hrow hnone
  rw [h.stationed.logs i hi]
  refine ⟨fun row hget => ?_, hnone⟩
  obtain ⟨m, hm, hbalance, hcounts⟩ := hrow row hget
  obtain ⟨o, ho⟩ := hbalance.stands
  obtain ⟨j, _, _, hdest⟩ := h.origin hi ho
  refine ⟨fun owner howner => ?_, m, hm, hcounts⟩
  rw [Station.dest, howner] at hdest
  exact hdest.trans hname.symm

end Upheld

/-- In every state of every run of a cluster with fixed members, whatever is refused, lost or
fails, only the owner of a key has a row for it. The row counts for every node the first of the
records that the node has accepted, and all of them once the newest totals are written. -/
theorem ClusterRun.row_counts (k : RecordKind) (hk : Rollup.mode k.Carrier = .additive) (p : PipelineId)
    (members : List String) (virtualNodes : Nat) (start : ClusterRun k) (hopens : start.Opens p members virtualNodes)
    (r : ClusterRun k) (hreach : Reaches p (fun r m => m.Admissible k.IsCall (r.logs m.node)) start r)
    (i : Nat) (n : Node) (hn : r.cluster.nodes[i]? = some n) (id : String) :
    (∀ row, (n.store.table k.tag).get? id = some row →
      (members ≠ [] →
        (HashRing.build start.cluster.hash members virtualNodes).owner? start.cluster.hash id = some n.name) ∧
      ∃ m, row = Rollup.encode m ∧ r.Counts i id m) ∧
    ((n.store.table k.tag).get? id = none → ∀ o, (r.logs i).written (o, id) = none) := by
  have key : ∀ row, ((∀ owner, (HashRing.build start.cluster.hash members virtualNodes).owner? start.cluster.hash id =
        some owner → owner = n.name) ∧ ∃ m, row = Rollup.encode m ∧ r.Counts i id m) →
      (members ≠ [] →
        (HashRing.build start.cluster.hash members virtualNodes).owner? start.cluster.hash id = some n.name) ∧
      ∃ m, row = Rollup.encode m ∧ r.Counts i id m := by
    rintro row ⟨howner, hm⟩
    refine ⟨fun hne => ?_, hm⟩
    obtain ⟨owner, ho⟩ := HashRing.owner?_build hne start.cluster.hash virtualNodes id
    rw [ho, howner owner ho]
  cases k with
  | heartbeat => cases hk
  | alarm => cases hk
  | callSummary =>
    obtain ⟨stations, h⟩ := Upheld.run hopens hreach
    obtain ⟨hrow, hnone⟩ := h.row rfl hn id
    exact ⟨fun row hget => key row (hrow row hget), hnone⟩
  | serviceStats =>
    obtain ⟨stations, h⟩ := Upheld.run hopens hreach
    obtain ⟨hrow, hnone⟩ := h.row rfl hn id
    exact ⟨fun row hget => key row (hrow row hget), hnone⟩

/-! ### Two nodes -/

namespace ClusterRun

/-- A node that has asked for its ring before. -/
def newcomer (name : String) : Node :=
  { name, options := {}, store := .fresh
    shared := ⟨{ members := ⟨["a", "b"], 0⟩, virtualNodes := 1
                 built := some (0, ⟨["a", "b"], [⟨0, 0⟩]⟩) }, .fresh⟩ }

/-- Two nodes, the first of which owns every key. -/
def twoNodes : ClusterRun .serviceStats where
  cluster :=
    { nodes := ["a", "b"].map fun name => ((newcomer name).build .serviceStats ⟨2⟩ Collector.layout none).2
      hash := fun _ => 0
      attached := ["a", "b"]
      clock := .epoch }
  logs _ := {}

/-- A call is submitted at the second node and stored at the first. -/
def stored : ClusterRun .serviceStats :=
  [.submit 1 .oneCall, .begin 1 0 .epoch [] false, .handOn 1 0, .begin 1 1 .epoch ["a"] false, .send 1 1,
    .begin 0 2 .epoch [] false, .flush 0 .epoch].foldl (step ⟨2⟩) twoNodes

theorem opens_twoNodes : twoNodes.Opens ⟨2⟩ ["a", "b"] 1 where
  nodes n hn := by
    obtain ⟨name, _, rfl⟩ := List.mem_map.1 hn
    refine ⟨newcomer name, ⟨rfl, fun _ => .rfl, rfl, fun b hb => ?_, rfl⟩, rfl⟩
    cases hb
    rfl
  names := by decide
  logs _ := rfl

theorem reaches_stored :
    Reaches ⟨2⟩ (fun r m => m.Admissible RecordKind.serviceStats.IsCall (r.logs m.node)) twoNodes stored := by
  simp only [stored, List.foldl_cons, List.foldl_nil]
  refine .step _ (.step _ (.step _ (.step _ (.step _ (.step _ (.step _ .refl ?_) ?_) ?_) ?_) ?_) ?_) ?_
  · exact ⟨1, 1, _, 100, false, _, rfl⟩
  · exact ⟨Instant.inEra_epoch, by decide +kernel⟩
  · trivial
  · exact ⟨Instant.inEra_epoch, by decide +kernel⟩
  · trivial
  · exact ⟨Instant.inEra_epoch, by decide +kernel⟩
  · exact ⟨Instant.inEra_epoch, by decide +kernel⟩

theorem row_counts_stored : ∃ n row, stored.cluster.nodes[0]? = some n ∧
    (n.store.table RecordKind.serviceStats.tag).get? ServiceStats.oneCall.id = some row ∧
    (HashRing.build twoNodes.cluster.hash ["a", "b"] 1).owner? twoNodes.cluster.hash ServiceStats.oneCall.id =
      some n.name ∧ ∃ m, row = Rollup.encode m ∧ stored.Counts 0 ServiceStats.oneCall.id m := by
  have hsome : ((stored.cluster.nodes[0]?).bind fun n =>
      (n.store.table RecordKind.serviceStats.tag).get? ServiceStats.oneCall.id).isSome = true := by decide +kernel
  obtain ⟨row, hrow⟩ := Option.isSome_iff_exists.1 hsome
  obtain ⟨n, hn, hrow⟩ := Option.bind_eq_some_iff.1 hrow
  have hcounts := row_counts .serviceStats rfl ⟨2⟩ ["a", "b"] 1 twoNodes opens_twoNodes stored reaches_stored 0 n hn
    ServiceStats.oneCall.id
  obtain ⟨howner, hm⟩ := hcounts.1 row hrow
  exact ⟨n, row, hn, hrow, howner (by decide), hm⟩

end ClusterRun
end TraceRollup
