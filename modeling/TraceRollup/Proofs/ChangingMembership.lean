import TraceRollup.Proofs.StoredTotals

/-!
# Clusters whose members change

Nodes hear of other members at any time, each of them when it does. Whatever they hear, what
comes to a store are running totals in order, so every row counts of each node the first of its
records. But the owner of a key takes a running total whole if none of that node stands in its
own store: after a key has moved on, totals of one node may stand at two
(`ClusterRun.stored_amid_changes`).
-/

namespace TraceRollup

/-! ### News of members -/

namespace ClusterRun
variable {k : RecordKind}

/-- A node hears of a new list of members. -/
def hear (r : ClusterRun k) (i : Nat) (members : List String) : ClusterRun k :=
  { r with cluster := r.cluster.modifyNode i fun n => n.updateMembers members }

/-- The states that a run can get to while nodes hear of members. -/
inductive ReachesHearing (p : PipelineId) (good : k.Carrier → Prop) (start : ClusterRun k) : ClusterRun k → Prop
  | refl : ReachesHearing p good start start
  | step {r : ClusterRun k} (m : ClusterMove k) (h : ReachesHearing p good start r)
      (hm : m.Admissible good (r.logs m.node)) : ReachesHearing p good start (r.step p m)
  | hear {r : ClusterRun k} (i : Nat) (members : List String) (h : ReachesHearing p good start r) :
      ReachesHearing p good start (r.hear i members)

end ClusterRun

def Station.heard {k : RecordKind} (members : List String) (s : Station k) : Station k :=
  { s with site := { s.site with shared := { s.site.shared with router := s.site.shared.router.update members } } }

theorem Stationed.hear {k : RecordKind} {p : PipelineId} {r : ClusterRun k} {hash : PointHash} {count : Nat}
    {stations : Nat → Station k} (h : Stationed p r hash count stations) {i : Nat} (hi : i < count)
    (members : List String) :
    Stationed p (r.hear i members) hash count (Function.update stations i ((stations i).heard members)) :=
  h.of_composed (h.modify hi rfl rfl) ⟨rfl, rfl, rfl, rfl⟩

theorem Stationed.hear_nowhere {k : RecordKind} {p : PipelineId} {r : ClusterRun k} {hash : PointHash} {count : Nat}
    {stations : Nat → Station k} (h : Stationed p r hash count stations) {i : Nat} (hi : count ≤ i)
    (members : List String) : Stationed p (r.hear i members) hash count stations := by
  have hnone : r.cluster.nodes.length ≤ i := by rwa [h.length]
  exact ⟨h.congr rfl (List.modify_eq_self hnone) fun _ _ => rfl, h.placed⟩

/-- The new list takes effect with the next batch; what is under way stays as it is. -/
theorem Orderly.heard {k : RecordKind} {V : Type} [AddCommMonoid V] {A : Account k.Carrier V} {hash : PointHash}
    {good : k.Carrier → Prop} {count : Nat} {stations : Nat → Station k} (h : Orderly A hash good count stations)
    {i : Nat} (hi : i < count) (members : List String) :
    Orderly A hash good count (Function.update stations i ((stations i).heard members)) := by
  obtain ⟨ring, hsound⟩ := h.sound i hi
  have hprogress : Progress hash ring (stations i) ((stations i).heard members) :=
    Station.Sound.progress_of_eq rfl (fun _ => rfl) (fun _ _ => rfl) (fun _ => rfl) fun _ => rfl
  exact h.here hi hprogress ⟨((stations i).heard members).site.shared.router.current hash, { hsound with ring := rfl }⟩

/-! ### Runs -/

theorem ClusterRun.ReachesHearing.orderly {k : RecordKind} [Counted k.Carrier] [Cumulative k.Carrier] {p : PipelineId}
    {start r : ClusterRun k} (hstart : start.Built p Collector.layout fun m => m.store.table k.tag = Dict.empty)
    (h : start.ReachesHearing p Counted.IsCall r) :
    ∃ stations, Stationed p r start.cluster.hash start.cluster.nodes.length stations ∧
      Orderly (Counted.account k.Carrier) start.cluster.hash Counted.IsCall start.cluster.nodes.length stations := by
  induction h with
  | refl =>
    obtain ⟨founder, htable, hstationed⟩ := hstart.stationed
    exact ⟨_, hstationed, .create _ p _ _ hstationed.distinct htable⟩
  | step m _ hm ih =>
    obtain ⟨stations, hstationed, horderly⟩ := ih
    have hmail : ∀ i < start.cluster.nodes.length, ∀ l ∈ (stations i).site.mail, l.1 ≠ (stations i).site.name := by
      intro i hi l hl
      obtain ⟨ring, hsound⟩ := horderly.sound i hi
      exact (hsound.mail l hl).1
    obtain ⟨next, hnext, hmoved⟩ := hstationed.step hmail m
    refine ⟨next, hnext, horderly.moved hmoved (fun hnode => ?_) (horderly.totals_chain fun _ ha => ha)⟩
    rw [← hstationed.logs m.node hnode]
    exact hm
  | hear i members _ ih =>
    obtain ⟨stations, hstationed, horderly⟩ := ih
    by_cases hi : i < start.cluster.nodes.length
    · exact ⟨_, hstationed.hear hi members, horderly.heard hi members⟩
    · exact ⟨stations, hstationed.hear_nowhere (by omega) members, horderly⟩

/-- In every state of every run in which nodes hear of members at any time, whatever is refused,
lost or fails, a row counts of each node the first of the records accepted there. The rows of a
key hold no more than was accepted of each node, as often as totals of the node stand in stores. -/
theorem ClusterRun.stored_amid_changes (k : RecordKind) (hk : Rollup.mode k.Carrier = .additive) (p : PipelineId)
    (start : ClusterRun k) (hstart : start.Built p Collector.layout fun m => m.store.table k.tag = Dict.empty)
    (r : ClusterRun k) (hreach : start.ReachesHearing p k.IsCall r) (id : String) :
    (∀ i < r.cluster.nodes.length, ∀ row, ((r.store i).table k.tag).get? id = some row →
      ∃ m, row = Rollup.encode m ∧ r.Counts i id m) ∧
    (∀ c, r.storedTotal id c ≤ ∑ j ∈ Finset.range r.cluster.nodes.length,
      (r.holders id j).card * k.counted c ((r.logs j).under id)) ∧
    ((∀ j < r.cluster.nodes.length, (r.holders id j).card ≤ 1) →
      (∀ c, r.storedTotal id c ≤ k.counted c (r.accepted id)) ∧
        r.storedTotal id k.callsAt ≤ (r.accepted id).length) := by
  obtain ⟨_, _, htally, hcall⟩ := RecordKind.counted_of_additive hk
  rw [hcall] at hreach
  obtain ⟨stations, hstationed, horderly⟩ := hreach.orderly hstart
  have hshows := hstationed.shows
  have hcalls : ∀ a ∈ r.accepted id, k.IsCall a := by
    rw [hshows.accepted_eq, hcall]
    intro a ha
    obtain ⟨j, hj, ha⟩ := List.mem_flatMap.1 ha
    exact (horderly.calls_under (fun _ ha => ha) (List.mem_range.1 hj) id a ha).1
  rw [hshows.length]
  refine ⟨fun i hi row hrow => ?_, fun c => ?_, fun honce => ?_⟩
  · obtain ⟨m, hm, _, hcounts⟩ := (horderly.row hshows htally hi id).1 row hrow
    exact ⟨m, hm, hcounts⟩
  · refine (horderly.storedTotal_le hshows htally id c).trans (le_of_eq (Finset.sum_congr rfl fun j hj => ?_))
    rw [hshows.logs j (Finset.mem_range.1 hj)]
  · have hle := horderly.storedTotal_le_accepted hshows htally honce
    refine ⟨hle, ?_⟩
    rw [← RecordKind.counted_callsAt hcalls]
    exact hle k.callsAt

/-! ### A key that moves on -/

namespace ClusterRun

/-- Two nodes know the first as the only member. -/
def firstOnly : ClusterRun .serviceStats where
  cluster :=
    { nodes := ["a", "b"].map fun name =>
        (Node.build { name, options := {}, store := .fresh
                      shared := ⟨{ members := ⟨["a"], 0⟩, virtualNodes := 1 }, .fresh⟩ }
          .serviceStats ⟨2⟩ Collector.layout none).2
      hash := fun _ => 0
      attached := ["a", "b"]
      clock := .epoch }
  logs _ := {}

/-- A call is submitted at the first node, and stored there if it owns the key. -/
def callAtFirst : List (ClusterMove .serviceStats) :=
  [.submit 0 .oneCall, .begin 0 0 .epoch [] false, .handOn 0 0, .begin 0 1 .epoch [] false, .handOn 0 1,
    .begin 0 2 .epoch [] false, .flush 0 .epoch]

/-- After a call at the first node both hear that the second is the only member, and a call that is
submitted at node `i` gets stored at the second. -/
def movedOn (i : Nat) : ClusterRun .serviceStats :=
  [.submit i .oneCall, .begin i 0 .epoch [] false, .handOn i 0, .begin i 1 .epoch ["b"] false, .send i 1, .handOn i 1,
    .begin 1 2 .epoch [] false, .flush 1 .epoch].foldl (step ⟨2⟩)
    (((callAtFirst.foldl (step ⟨2⟩) firstOnly).hear 0 ["b"]).hear 1 ["b"])

theorem built_firstOnly :
    firstOnly.Built ⟨2⟩ Collector.layout fun m => m.store.table RecordKind.serviceStats.tag = Dict.empty where
  nodes n hn := by
    obtain ⟨name, _, rfl⟩ := List.mem_map.1 hn
    exact ⟨_, rfl, rfl, rfl⟩
  names := by decide
  logs _ := rfl

theorem reaches_movedOn (i : Fin 2) : firstOnly.ReachesHearing ⟨2⟩ RecordKind.serviceStats.IsCall (movedOn i) := by
  have hcall : RecordKind.serviceStats.IsCall .oneCall := ⟨1, 1, _, 100, false, _, rfl⟩
  have hera := Instant.inEra_epoch
  simp only [movedOn, callAtFirst, List.foldl_cons, List.foldl_nil]
  refine .step _ (.step _ (.step _ (.step _ (.step _ (.step _ (.step _ (.step _ (.hear 1 _ (.hear 0 _ ?_)) hcall)
    ⟨hera, ?_⟩) trivial) ⟨hera, ?_⟩) trivial) trivial) ⟨hera, ?_⟩) ⟨hera, ?_⟩
  · refine .step _ (.step _ (.step _ (.step _ (.step _ (.step _ (.step _ .refl hcall) ⟨hera, ?_⟩) trivial) ⟨hera, ?_⟩)
      trivial) ⟨hera, ?_⟩) ⟨hera, ?_⟩
    all_goals decide +kernel
  all_goals
    revert i
    decide +kernel

/-- The second call comes from the node that owns the key by then. -/
theorem stored_amid_changes_movedOn :
    (∀ j < (movedOn 1).cluster.nodes.length, ((movedOn 1).holders ServiceStats.oneCall.id j).card ≤ 1) ∧
    (movedOn 1).storedTotal ServiceStats.oneCall.id RecordKind.serviceStats.callsAt ≤
      ((movedOn 1).accepted ServiceStats.oneCall.id).length := by
  have honce : ∀ j < (movedOn 1).cluster.nodes.length, ((movedOn 1).holders ServiceStats.oneCall.id j).card ≤ 1 := by
    decide +kernel
  obtain ⟨_, _, hbound⟩ := stored_amid_changes .serviceStats rfl ⟨2⟩ firstOnly built_firstOnly (movedOn 1)
    (reaches_movedOn 1) ServiceStats.oneCall.id
  exact ⟨honce, (hbound honce).2⟩

/-- The second call comes from the node that owned the key before. Its running total of two calls is
stored whole, next to the one that already counts the first of them. -/
theorem stored_twice_movedOn :
    firstOnly.Built ⟨2⟩ Collector.layout (fun m => m.store.table RecordKind.serviceStats.tag = Dict.empty) ∧
    firstOnly.ReachesHearing ⟨2⟩ RecordKind.serviceStats.IsCall (movedOn 0) ∧
    ((movedOn 0).accepted ServiceStats.oneCall.id).length <
      (movedOn 0).storedTotal ServiceStats.oneCall.id RecordKind.serviceStats.callsAt :=
  ⟨built_firstOnly, reaches_movedOn 0, by decide +kernel⟩

-- On a clock that goes back after a total was forgotten, one node counts a call twice by itself.
example :
    ((callAtFirst ++ .flush 0 ⟨1546300800000000000⟩ :: callAtFirst).foldl (step ⟨2⟩) firstOnly).storedTotal
      ServiceStats.oneCall.id RecordKind.serviceStats.callsAt = 3 := by decide +kernel

end ClusterRun
end TraceRollup
