import Mathlib.Algebra.Order.BigOperators.Group.Finset
import Mathlib.Algebra.Order.Ring.Int
import TraceRollup.Proofs.Orderly

/-!
# What a cluster has stored

The rows of a key, summed over the nodes (`ClusterRun.storedTotal`), against the records of the
key that were accepted. A row counts of every node the first of its records
(`ClusterRun.Counts`), so the sum exceeds what was accepted only as far as totals of one node
stand at several (`Orderly.storedTotal_le`).
-/

namespace TraceRollup

/-! ### Sums of counters -/

namespace RecordKind
variable {k : RecordKind}

theorem counted_append (c : Nat) (xs ys : List k.Carrier) :
    k.counted c (xs ++ ys) = k.counted c xs + k.counted c ys := by
  induction xs with
  | nil => exact (Int.zero_add _).symm
  | cons x rest ih =>
    simp only [counted, List.cons_append, List.foldr_cons] at ih ⊢
    omega

theorem counted_flatMap (c n : Nat) (part : Nat → List k.Carrier) :
    k.counted c ((List.range n).flatMap part) = ∑ j ∈ Finset.range n, k.counted c (part j) := by
  induction n with
  | zero => rfl
  | succ n ih =>
    rw [List.range_succ, List.flatMap_append, counted_append, ih, Finset.sum_range_succ, List.flatMap_singleton]

/-- The counter that goes up by one with every call. -/
def callsAt : RecordKind → Nat
  | .callSummary => 5
  | .serviceStats | .heartbeat | .alarm => 0

theorem tally_callsAt {a : k.Carrier} (h : k.IsCall a) : (k.tally a k.callsAt).toInt = 1 := by
  cases k with
  | callSummary =>
    obtain ⟨front, behind, bucket, millis, isError, rfl⟩ := h
    rfl
  | serviceStats =>
    obtain ⟨service, application, bucket, millis, isError, traceId, rfl⟩ := h
    rfl
  | heartbeat => exact absurd h id
  | alarm => exact absurd h id

theorem counted_callsAt {xs : List k.Carrier} (h : ∀ a ∈ xs, k.IsCall a) : k.counted k.callsAt xs = xs.length := by
  induction xs with
  | nil => rfl
  | cons x rest ih =>
    have hx := tally_callsAt (h x (List.mem_cons_self ..))
    have hrest := ih fun a ha => h a (List.mem_cons_of_mem _ ha)
    simp only [counted, List.foldr_cons, List.length_cons] at hrest ⊢
    omega

/-- Records that add up are records of calls with counters. -/
theorem counted_of_additive (h : Rollup.mode k.Carrier = .additive) :
    ∃ inst : Counted k.Carrier, Cumulative k.Carrier ∧ k.tally = inst.tally ∧ k.IsCall = inst.IsCall := by
  cases k with
  | callSummary => exact ⟨inferInstance, inferInstance, rfl, rfl⟩
  | serviceStats => exact ⟨inferInstance, inferInstance, rfl, rfl⟩
  | heartbeat => cases h
  | alarm => cases h

end RecordKind

/-! ### Rows -/

namespace ClusterRun
variable {k : RecordKind}

/-- The records of a key that were accepted, node by node. -/
def accepted (r : ClusterRun k) (id : String) : List k.Carrier :=
  (List.range r.cluster.nodes.length).flatMap fun j => (r.logs j).under id

def Newest (r : ClusterRun k) (i : Nat) (id : String) : Prop :=
  ∀ j n, r.cluster.nodes[j]? = some n → (r.logs i).written (n.name, id) = Rollup.mergeAll ((r.logs j).under id)

/-- A record counts calls that were accepted, of every node the first ones. -/
structure Counts (r : ClusterRun k) (i : Nat) (id : String) (m : k.Carrier) : Prop where
  id_eq : Rollup.id m = id
  parts : ∃ part : Nat → List k.Carrier,
    (∀ j n, r.cluster.nodes[j]? = some n → part j <+: (r.logs j).under id ∧
      (r.logs i).written (n.name, id) = Rollup.mergeAll (part j)) ∧
    ∀ c, (k.tally m c).toInt =
      min 9223372036854775807 (k.counted c ((List.range r.cluster.nodes.length).flatMap part))
  bounded : ∀ c, (k.tally m c).toInt ≤ k.counted c (r.accepted id)
  newest : r.Newest i id → ∀ c, (k.tally m c).toInt = min 9223372036854775807 (k.counted c (r.accepted id))

/-- What a counter has come to in the row of a key at a node. -/
def storedAt (r : ClusterRun k) (i : Nat) (id : String) (c : Nat) : Int :=
  ((((r.store i).table k.tag).get? id).bind fun row => (Rollup.decode? row : Option k.Carrier)).elim 0
    fun m => (k.tally m c).toInt

def storedTotal (r : ClusterRun k) (id : String) (c : Nat) : Int :=
  ∑ i ∈ Finset.range r.cluster.nodes.length, r.storedAt i id c

/-- A total of node `j` stands in the store of node `i`. -/
def holds (r : ClusterRun k) (id : String) (j i : Nat) : Bool :=
  ((r.cluster.nodes[j]?).bind fun n => (r.logs i).written (n.name, id)).isSome

def holders (r : ClusterRun k) (id : String) (j : Nat) : Finset Nat :=
  (Finset.range r.cluster.nodes.length).filter fun i => r.holds id j i

/-- The nodes of a run have the names and the stores of stations, and the run their notes. -/
structure Shows (r : ClusterRun k) (count : Nat) (stations : Nat → Station k) : Prop where
  length : r.cluster.nodes.length = count
  node : ∀ i < count, ∃ n, r.cluster.nodes[i]? = some n ∧ n.name = (stations i).site.name ∧
    n.store = (stations i).site.store
  logs : ∀ i < count, r.logs i = (stations i).log

namespace Shows
variable {r : ClusterRun k} {count : Nat} {stations : Nat → Station k}

theorem name (h : r.Shows count stations) {j : Nat} {n : Node} (hn : r.cluster.nodes[j]? = some n) :
    j < count ∧ n.name = (stations j).site.name ∧ n.store = (stations j).site.store := by
  have hj : j < count := h.length ▸ (List.getElem?_eq_some_iff.1 hn).1
  obtain ⟨n', hn', hname⟩ := h.node j hj
  rw [hn] at hn'
  cases hn'
  exact ⟨hj, hname⟩

theorem accepted_eq (h : r.Shows count stations) (id : String) :
    r.accepted id = (List.range count).flatMap fun j => (stations j).log.under id := by
  rw [accepted, h.length]
  refine List.flatMap_congr fun j hj => ?_
  rw [h.logs j (List.mem_range.1 hj)]

theorem store_eq (h : r.Shows count stations) {i : Nat} (hi : i < count) : r.store i = (stations i).site.store := by
  obtain ⟨n, hn, _, hstore⟩ := h.node i hi
  rw [store, hn, ← hstore]
  rfl

theorem holds_eq (h : r.Shows count stations) (id : String) {i j : Nat} (hi : i < count) (hj : j < count) :
    r.holds id j i = ((stations i).log.written ((stations j).site.name, id)).isSome := by
  obtain ⟨n, hn, hname, _⟩ := h.node j hj
  rw [holds, hn, ← hname, h.logs i hi]
  rfl

end Shows
end ClusterRun

theorem Composed.shows {k : RecordKind} {make : Site k → Node} {p : PipelineId} {r : ClusterRun k} {hash : PointHash}
    {count : Nat} {stations : Nat → Station k} (h : Composed make r hash count stations) (hmake : Makes p make) :
    r.Shows count stations where
  length := h.length
  node _ hi := ⟨_, h.getElem? hi, hmake.name _, hmake.store _⟩
  logs := h.logs

theorem Stationed.shows {k : RecordKind} {p : PipelineId} {r : ClusterRun k} {hash : PointHash} {count : Nat}
    {stations : Nat → Station k} (h : Stationed p r hash count stations) : r.Shows count stations :=
  h.toComposed.shows (Site.makes_node p)

/-! ### What rows count -/

theorem Rollup.eq_nil_of_mergeAll {α : Type} [Rollup α] {xs : List α} (h : Rollup.mergeAll xs = none) : xs = [] := by
  cases xs with
  | nil => rfl
  | cons x rest => cases h

namespace Orderly
variable {k : RecordKind} [Counted k.Carrier] {hash : PointHash} {r : ClusterRun k} {count : Nat}
  {stations : Nat → Station k}

theorem counted_le (h : Orderly (Counted.account k.Carrier) hash Counted.IsCall count stations)
    (htally : k.tally = Counted.tally) {j : Nat} (hj : j < count) {id : String} {xs : List k.Carrier}
    (hxs : xs.Sublist ((stations j).log.under id)) (c : Nat) :
    0 ≤ k.counted c xs ∧ k.counted c xs ≤ k.counted c ((stations j).log.under id) := by
  have hcalls := h.calls_under (fun _ ha => ha) hj id
  rw [RecordKind.counted_eq htally]
  exact ⟨Counted.counted_nonneg (fun a ha => (hcalls a (hxs.subset ha)).1) c,
    Counted.counted_sublist hxs (fun a ha => (hcalls a ha).1) c⟩

theorem counts (h : Orderly (Counted.account k.Carrier) hash Counted.IsCall count stations)
    (hr : r.Shows count stations) (htally : k.tally = Counted.tally) {i : Nat} (hi : i < count) {id : String}
    {m : k.Carrier} (hrow : Row (Counted.account k.Carrier) (stations i).log.written id m) : r.Counts i id m := by
  obtain ⟨part, hpart⟩ := h.parts hi id
  have htotal := h.tally_row htally hi hrow fun j hj => ⟨(hpart j hj).1, (hpart j hj).2.1⟩
  refine ⟨hrow.of.1, ⟨part, fun j n hn => ?_, ?_⟩, fun c => ?_, fun hnew c => ?_⟩
  · obtain ⟨hj, hname, _⟩ := hr.name hn
    rw [hr.logs i hi, hr.logs j hj, hname]
    exact ⟨(hpart j hj).1, (hpart j hj).2.1⟩
  · rw [hr.length]
    exact htotal
  · have hle : ∑ j ∈ Finset.range count, k.counted c (part j) ≤
        ∑ j ∈ Finset.range count, k.counted c ((stations j).log.under id) := by
      refine Finset.sum_le_sum fun j hj => ?_
      have hj := Finset.mem_range.1 hj
      exact (h.counted_le htally hj (hpart j hj).1.sublist c).2
    rw [htotal, hr.accepted_eq, RecordKind.counted_flatMap, RecordKind.counted_flatMap]
    omega
  · have hwhole : (List.range count).flatMap part = r.accepted id := by
      rw [hr.accepted_eq]
      refine List.flatMap_congr fun j hj => ?_
      have hj := List.mem_range.1 hj
      obtain ⟨n, hn, hname, _⟩ := hr.node j hj
      have hnewest := hnew j n hn
      rw [hr.logs i hi, hr.logs j hj, hname] at hnewest
      exact (hpart j hj).2.2 hnewest
    rw [htotal, hwhole]

/-- Every row counts what it should, and where there is none nothing was written. -/
theorem row (h : Orderly (Counted.account k.Carrier) hash Counted.IsCall count stations)
    (hr : r.Shows count stations) (htally : k.tally = Counted.tally) {i : Nat} (hi : i < count) (id : String) :
    (∀ row, ((r.store i).table k.tag).get? id = some row → ∃ m, row = Rollup.encode m ∧
      Row (Counted.account k.Carrier) (stations i).log.written id m ∧ r.Counts i id m) ∧
    (((r.store i).table k.tag).get? id = none → ∀ o, (stations i).log.written (o, id) = none) := by
  obtain ⟨ring, hsound⟩ := h.sound i hi
  rw [hr.store_eq hi]
  refine ⟨fun row hrow => ?_, hsound.books.absent id⟩
  obtain ⟨m, hm, hbalance⟩ := hsound.books.row id row hrow
  exact ⟨m, hm, hbalance, h.counts hr htally hi hbalance⟩

/-- A row holds no more than what was accepted of the nodes whose totals stand there. -/
theorem storedAt_le (h : Orderly (Counted.account k.Carrier) hash Counted.IsCall count stations)
    (hr : r.Shows count stations) (htally : k.tally = Counted.tally) {i : Nat} (hi : i < count) (id : String)
    (c : Nat) :
    r.storedAt i id c ≤
      ∑ j ∈ Finset.range count, if r.holds id j i then k.counted c ((stations j).log.under id) else 0 := by
  obtain ⟨hrow, _⟩ := h.row hr htally hi id
  unfold ClusterRun.storedAt
  cases hget : ((r.store i).table k.tag).get? id with
  | none =>
    refine Finset.sum_nonneg fun j hj => ?_
    split
    · exact (h.counted_le htally (Finset.mem_range.1 hj) (List.Sublist.refl _) c).1
    · exact Int.le_refl 0
  | some row =>
    obtain ⟨m, rfl, _, hcounts⟩ := hrow row hget
    obtain ⟨part, hpart, htotal⟩ := hcounts.parts
    have hle : k.counted c ((List.range count).flatMap part) ≤
        ∑ j ∈ Finset.range count, if r.holds id j i then k.counted c ((stations j).log.under id) else 0 := by
      rw [RecordKind.counted_flatMap]
      refine Finset.sum_le_sum fun j hj => ?_
      have hj := Finset.mem_range.1 hj
      obtain ⟨n, hn, hname, _⟩ := hr.node j hj
      obtain ⟨hfirst, hwritten⟩ := hpart j n hn
      rw [hr.logs j hj] at hfirst
      rw [hr.logs i hi, hname] at hwritten
      rw [hr.holds_eq id hi hj, hwritten]
      cases hmerge : Rollup.mergeAll (part j) with
      | none =>
        rw [Rollup.eq_nil_of_mergeAll hmerge]
        exact Int.le_refl 0
      | some t => exact (h.counted_le htally hj hfirst.sublist c).2
    have htotal := htotal c
    rw [hr.length] at htotal
    rw [Option.bind_some, k.decode?_encode, Option.elim_some, htotal]
    omega

/-- The rows of a key hold no more than what was accepted, as often as totals of the node stand. -/
theorem storedTotal_le (h : Orderly (Counted.account k.Carrier) hash Counted.IsCall count stations)
    (hr : r.Shows count stations) (htally : k.tally = Counted.tally) (id : String) (c : Nat) :
    r.storedTotal id c ≤
      ∑ j ∈ Finset.range count, (r.holders id j).card * k.counted c ((stations j).log.under id) := by
  calc r.storedTotal id c
      ≤ ∑ i ∈ Finset.range count, ∑ j ∈ Finset.range count,
          if r.holds id j i then k.counted c ((stations j).log.under id) else 0 := by
        rw [ClusterRun.storedTotal, hr.length]
        exact Finset.sum_le_sum fun i hi => h.storedAt_le hr htally (Finset.mem_range.1 hi) id c
    _ = ∑ j ∈ Finset.range count, ∑ i ∈ Finset.range count,
          if r.holds id j i then k.counted c ((stations j).log.under id) else 0 := Finset.sum_comm
    _ = ∑ j ∈ Finset.range count, (r.holders id j).card * k.counted c ((stations j).log.under id) := by
        refine Finset.sum_congr rfl fun j _ => ?_
        rw [← Finset.sum_filter, Finset.sum_const, nsmul_eq_mul, ClusterRun.holders, hr.length]

/-- Where totals of no node stand twice, the rows hold no more than what was accepted. -/
theorem storedTotal_le_accepted (h : Orderly (Counted.account k.Carrier) hash Counted.IsCall count stations)
    (hr : r.Shows count stations) (htally : k.tally = Counted.tally) {id : String}
    (honce : ∀ j < count, (r.holders id j).card ≤ 1) (c : Nat) :
    r.storedTotal id c ≤ k.counted c (r.accepted id) := by
  refine (h.storedTotal_le hr htally id c).trans ?_
  rw [hr.accepted_eq, RecordKind.counted_flatMap]
  refine Finset.sum_le_sum fun j hj => ?_
  have hj := Finset.mem_range.1 hj
  have hcard := honce j hj
  obtain ⟨hnonneg, _⟩ := h.counted_le htally hj (List.Sublist.refl ((stations j).log.under id)) c
  calc ((r.holders id j).card : Int) * k.counted c ((stations j).log.under id)
      ≤ 1 * k.counted c ((stations j).log.under id) := Int.mul_le_mul_of_nonneg_right (by omega) hnonneg
    _ = k.counted c ((stations j).log.under id) := Int.one_mul _

end Orderly
end TraceRollup
