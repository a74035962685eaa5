import TraceRollup.Proofs.ClusterCounts
import TraceRollup.Proofs.DirectSites

/-!
# Layouts that total first

Two layouts that end in a persist stage begin by totalling the records: with a dispatch stage
behind, or straight to the ledger. Then every snapshot is a total of records of one node, its
origin, and the rows never hold more than was submitted (`ClusterRun.stored_of_aggregating_first`).
A third one is accepted that divides records before they are totalled. There the records of all
nodes make up one total, which counts anew with each origin (`ClusterRun.stored_dispatchFirst`).
-/

namespace TraceRollup

/-! ### Records that were submitted -/

/-- What was accepted or waits to be was submitted before. -/
structure Station.Fed {k : RecordKind} (good : k.Carrier → Prop) (s : Station k) : Prop where
  good : ∀ a ∈ s.log.submitted, good a
  order : (s.log.accepted ++ s.site.entry.items.map Snapshot.record).Sublist s.log.submitted

namespace Station.Fed
variable {k : RecordKind} {good : k.Carrier → Prop} {s : Station k}

theorem submit (h : s.Fed good) {record : k.Carrier} (hrecord : good record) (p : PipelineId) (hash : PointHash)
    (i : Nat) : (s.act p hash (.submit i record)).Fed good := by
  have hitems := StageQueue.items_send s.site.entry ⟨s.site.name, record⟩
  simp only [Station.act, Log.noteSubmit]
  split
  · rename_i hok
    rw [if_pos hok] at hitems
    refine ⟨fun a ha => ?_, ?_⟩
    · rcases List.mem_append.1 ha with ha | ha
      · exact h.good a ha
      · rw [List.mem_singleton.1 ha]
        exact hrecord
    · simp only [Site.submitted, hitems, List.map_append, ← List.append_assoc]
      exact h.order.append (.refl _)
  · rename_i hok
    rw [if_neg hok, List.append_nil] at hitems
    refine ⟨h.good, ?_⟩
    simp only [Site.submitted, hitems]
    exact h.order

theorem begin (h : s.Fed good) (p : PipelineId) (hash : PointHash) (i j : Nat) (now : Instant) (attached : List String)
    (stalled : Bool) : (s.act p hash (.begin i j now attached stalled)).Fed good := by
  have hbegun := s.begun p hash i j now attached stalled
  generalize Cluster.conditions { nodes := [], hash, attached, stalled, clock := now } = env at hbegun
  generalize s.act p hash (.begin i j now attached stalled) = t at hbegun ⊢
  cases hbegun with
  | idle => exact ⟨h.good, h.order⟩
  | entry hcan =>
    rw [Log.noteBatch_entry hcan]
    refine ⟨h.good, List.Sublist.trans ?_ h.order⟩
    -- what is taken and not late comes before what is left
    have htaken : (s.site.entryWorker.nextBatch.filter fun x => !s.site.totals.isLate env.now x.record).Sublist
        (s.site.entry.items.take Worker.batchLimit) := List.filter_sublist
    have hsplit := congrArg (List.map Snapshot.record) (List.take_append_drop Worker.batchLimit s.site.entry.items)
    rw [List.map_append] at hsplit
    simp only [Site.takeEntry, StageQueue.receiveMany, List.append_assoc]
    rw [← hsplit]
    exact (List.Sublist.refl _).append ((htaken.map _).append (.refl _))
  | routing hcan =>
    simp only [Site.takeRouting]
    split <;> exact ⟨h.good, h.order⟩
  | storing hcan =>
    obtain ⟨arrived, hlog⟩ := Log.noteBatch_storing s.site env.now { s.log with clock := env.now }
    rw [hlog]
    exact ⟨h.good, h.order⟩

theorem act (h : s.Fed good) (p : PipelineId) (hash : PointHash) {m : ClusterMove k}
    (hm : m.Admissible good s.log) : (s.act p hash m).Fed good := by
  cases m with
  | submit i record => exact h.submit hm p hash i
  | begin i j now attached stalled => exact h.begin p hash i j now attached stalled
  | send i j => match j with
    | 0 | 1 | _ + 2 => exact ⟨h.good, h.order⟩
  | lose i j => match j with
    | 0 | 1 | _ + 2 => exact ⟨h.good, h.order⟩
  | handOn i j =>
    match j with
    | 0 | 1 =>
      simp only [Station.act, Site.handedOn]
      split <;> exact ⟨h.good, h.order⟩
    | _ + 2 => exact ⟨h.good, h.order⟩
  | flush i now =>
    simp only [Station.act]
    split <;> exact ⟨h.good, h.order⟩
  | close i kind => cases kind <;> exact ⟨h.good, h.order⟩

theorem actDirect (h : s.Fed good) (p : PipelineId) (hash : PointHash) {m : ClusterMove k}
    (hm : m.Admissible good s.log) : (s.actDirect p hash m).Fed good := by
  cases m with
  | begin i j now attached stalled =>
    rcases j with _ | _ | j
    · have hbegin := h.begin p hash i 0 now attached stalled
      simp only [Station.actDirect]
      split
      · exact ⟨hbegin.good, hbegin.order⟩
      · exact ⟨h.good, h.order⟩
    · exact h.begin p hash i 2 now attached stalled
    · exact ⟨h.good, h.order⟩
  | handOn i j =>
    rcases j with _ | j
    · simp only [Station.actDirect, Site.handedDirect]
      split <;> exact ⟨h.good, h.order⟩
    · exact ⟨h.good, h.order⟩
  | send i j => exact h
  | lose i j => exact h
  | submit i record => exact h.act p hash hm
  | flush i now => exact h.act p hash (m := .flush i now) hm
  | close i kind => exact h.act p hash (m := .close i kind) hm

theorem under (h : s.Fed good) (id : String) :
    (s.log.under id).Sublist (s.log.submitted.filter fun a => decide (Rollup.id a = id)) :=
  ((List.sublist_append_left _ _).trans h.order).filter _

end Station.Fed

theorem Moved.fed {k : RecordKind} {p : PipelineId} {hash : PointHash} {count : Nat} {stations next : Nat → Station k}
    {m : ClusterMove k} {good : k.Carrier → Prop} (h : Moved p hash count stations m next)
    (hfed : ∀ i < count, (stations i).Fed good) (hm : m.node < count → m.Admissible good (stations m.node).log) :
    ∀ i < count, (next i).Fed good := by
  intro i hi
  cases h with
  | nowhere _ => exact hfed i hi
  | here hnode =>
    by_cases him : i = m.node
    · rw [him, Function.update_self]
      exact (hfed _ hnode).act p hash (hm hnode)
    · rw [Function.update_of_ne him]
      exact hfed i hi
  | @sent a d x hsend ha hd hne hx =>
    subst hsend
    by_cases hid : i = d
    · rw [hid, Function.update_self]
      exact ⟨(hfed d hd).good, (hfed d hd).order⟩
    · rw [Function.update_of_ne hid]
      by_cases hia : i = a
      · rw [hia, Function.update_self]
        exact (hfed a ha).act p hash (m := .send a 1) trivial
      · rw [Function.update_of_ne hia]
        exact hfed i hi

/-! ### What was submitted and what is stored -/

namespace ClusterRun
variable {k : RecordKind}

/-- The records of a key that were submitted and not refused, node by node. -/
def submitted (r : ClusterRun k) (id : String) : List k.Carrier :=
  (List.range r.cluster.nodes.length).flatMap fun j =>
    (r.logs j).submitted.filter fun a => decide (Rollup.id a = id)

/-- A running total of records of one node, which is the origin. -/
def TotalOf (r : ClusterRun k) (origin : String) (t : k.Carrier) : Prop :=
  ∃ j n part, r.cluster.nodes[j]? = some n ∧ n.name = origin ∧ part.Sublist (r.logs j).submitted ∧
    (∀ a ∈ part, Rollup.id a = Rollup.id t) ∧ Rollup.mergeAll part = some t

/-- Rows count no more than was submitted, and what comes to a persist stage are totals of its origin. -/
structure Faithful (r : ClusterRun k) (p : PipelineId) : Prop where
  stored : ∀ id c, r.storedTotal id c ≤ k.counted c (r.submitted id)
  queued : ∀ i j w l, r.worker? p i j = some w → w.state = .persist l → ∀ x ∈ w.queue.items, r.TotalOf x.origin x.record
  buffered : ∀ i j w l, r.worker? p i j = some w → w.state = .persist l →
    ∀ key t, l.buffer.get? key = some t → r.TotalOf key.1 t

end ClusterRun

namespace Orderly
variable {k : RecordKind} [Counted k.Carrier] [LawfulKey k.Carrier] {hash : PointHash} {p : PipelineId}
  {make : Site k → Node} {r : ClusterRun k} {count : Nat} {stations : Nat → Station k}

theorem totalOf (h : Orderly (Counted.account k.Carrier) hash Counted.IsCall count stations)
    (hr : r.Shows count stations) (hfed : ∀ i < count, (stations i).Fed Counted.IsCall) {i : Nat} (hi : i < count)
    {key : OriginKey} {t : k.Carrier} (ht : t ∈ (stations i).inbound key) : r.TotalOf key.1 t := by
  obtain ⟨j, hj, hname⟩ := h.known i hi key (List.ne_nil_of_mem ht)
  obtain ⟨n, hn, hn', _⟩ := hr.node j hj
  have hin : t ∈ (stations i).inbound ((stations j).site.name, key.2) := by
    rw [hname]
    exact ht
  have htotal : t ∈ (stations j).totals key.2 :=
    (h.order j hj i hi key.2).subset (List.mem_append_left _ (List.mem_append_left _ hin))
  obtain ⟨part, hpart, hmerge⟩ := Rollup.mem_totals htotal
  have hids : ∀ a ∈ part, Rollup.id a = key.2 :=
    fun a ha => (h.calls_under (fun _ ha => ha) hj key.2 a (hpart.subset ha)).2
  have hid : Rollup.id t = key.2 := Rollup.id_mergeAll hids hmerge
  refine ⟨j, n, part, hn, hn'.trans hname, ?_, fun a ha => (hids a ha).trans hid.symm, hmerge⟩
  rw [hr.logs j hj]
  exact (hpart.sublist.trans ((hfed j hj).under key.2)).trans List.filter_sublist

theorem faithful (h : Orderly (Counted.account k.Carrier) hash Counted.IsCall count stations)
    (hcomposed : Composed make r hash count stations) (hmake : Makes p make)
    (hfed : ∀ i < count, (stations i).Fed Counted.IsCall) (htally : k.tally = Counted.tally)
    (honce : ∀ id, ∀ j < count, (r.holders id j).card ≤ 1) : r.Faithful p where
  stored id c := by
    have hr := hcomposed.shows hmake
    refine (h.storedTotal_le_accepted hr htally (honce id) c).trans ?_
    rw [hr.accepted_eq, ClusterRun.submitted, hr.length, RecordKind.counted_flatMap, RecordKind.counted_flatMap]
    refine Finset.sum_le_sum fun j hj => ?_
    have hj := Finset.mem_range.1 hj
    rw [hr.logs j hj, RecordKind.counted_eq htally]
    exact Counted.counted_sublist ((hfed j hj).under id)
      (fun a ha => (hfed j hj).good a (List.mem_of_mem_filter ha)) c
  queued i j w l hw hstate x hx := by
    obtain ⟨hi, rfl⟩ := hcomposed.storing hmake hw hstate
    have hpick : x.record ∈ pick (x.origin, Rollup.id x.record) (stations i).site.arrivals.items :=
      List.mem_map.2 ⟨x, List.mem_filter.2 ⟨hx, decide_eq_true rfl⟩, rfl⟩
    exact h.totalOf (hcomposed.shows hmake) hfed hi (List.mem_append_right _ hpick)
  buffered i j w l hw hstate key t ht := by
    obtain ⟨hi, rfl⟩ := hcomposed.storing hmake hw hstate
    cases hstate
    refine h.totalOf (hcomposed.shows hmake) hfed hi (List.mem_append_left _ (List.mem_append_right _ ?_))
    rw [ht]
    exact List.mem_singleton_self t

end Orderly

/-! ### With a dispatch stage -/

namespace Upheld
variable {k : RecordKind} [Counted k.Carrier] {p : PipelineId} {hash : PointHash} {ring : HashRing}
  {r : ClusterRun k} {count : Nat} {stations : Nat → Station k}

/-- Totals of a node stand only where their key belongs. -/
theorem holders_card (h : Upheld (Counted.account k.Carrier) p hash ring Counted.IsCall r count stations) (id : String)
    {j : Nat} (hj : j < count) : (r.holders id j).card ≤ 1 := by
  have hplace : ∀ i ∈ r.holders id j, i < count ∧ (stations i).site.name = (stations j).dest hash ring id := by
    intro i hi
    obtain ⟨hrange, hholds⟩ := Finset.mem_filter.1 hi
    have hi : i < count := h.stationed.length ▸ Finset.mem_range.1 hrange
    rw [h.stationed.shows.holds_eq id hi hj] at hholds
    obtain ⟨l, hl, hname, hdest⟩ := h.origin hi (Option.isSome_iff_ne_none.1 hholds)
    rw [h.stationed.distinct l hl j hj hname] at hdest
    exact ⟨hi, hdest.symm⟩
  refine Finset.card_le_one.2 fun a ha b hb => ?_
  obtain ⟨ha, hna⟩ := hplace a ha
  obtain ⟨hb, hnb⟩ := hplace b hb
  exact h.stationed.distinct a ha b hb (hna.trans hnb.symm)

theorem run_fed [Cumulative k.Carrier] {members : List String} {virtualNodes : Nat} {start : ClusterRun k}
    (hopens : start.Opens p members virtualNodes)
    (h : ClusterRun.Reaches p (fun r m => m.Admissible Counted.IsCall (r.logs m.node)) start r) :
    ∃ stations, Upheld (Counted.account k.Carrier) p start.cluster.hash
      (HashRing.build start.cluster.hash members virtualNodes) Counted.IsCall r start.cluster.nodes.length stations ∧
      ∀ i < start.cluster.nodes.length, (stations i).Fed Counted.IsCall :=
  run_keeping hopens (fun _ => ⟨fun _ ha => absurd ha List.not_mem_nil, .refl _⟩)
    (fun _ _ _ hmove hm hfed => hmove.fed hfed hm) h

end Upheld

/-! ### Without a dispatch stage -/

/-- Nothing is divided here, and what has come in is from here. -/
structure Station.Apart {k : RecordKind} (good : k.Carrier → Prop) (s : Station k) : Prop where
  unrouted : s.Unrouted
  home : ∀ key, s.inbound key ≠ [] → key.1 = s.site.name
  fed : s.Fed good

theorem Station.Apart.create {k : RecordKind} (p : PipelineId) (good : k.Carrier → Prop) (m : Node) :
    Station.Apart good ⟨.create k p m.name m.options m.store m.shared, {}⟩ where
  unrouted := ⟨rfl, rfl, rfl⟩
  home _ hnil := absurd rfl hnil
  fed := ⟨fun _ ha => absurd ha List.not_mem_nil, .refl _⟩

theorem Station.Apart.actDirect {k : RecordKind} {good : k.Carrier → Prop} {s : Station k} (h : s.Apart good)
    {p : PipelineId} {hash : PointHash} {m : ClusterMove k} (hm : m.Admissible good s.log)
    (hprogress : Progress hash default s (s.actDirect p hash m)) : (s.actDirect p hash m).Apart good where
  unrouted := h.unrouted.actDirect p hash m
  fed := h.fed.actDirect p hash hm
  home key hnil := by
    rw [hprogress.name]
    by_contra hkey
    refine hnil ?_
    have hsub := hprogress.foreign key hkey
    have hnone : s.inbound key = [] := by
      by_contra hin
      exact hkey (h.home key hin)
    rw [hnone] at hsub
    exact List.sublist_nil.1 hsub

/-- Totals of a node stand only at the node. -/
theorem Station.Apart.holders_card {k : RecordKind} {p : PipelineId} {hash : PointHash} {r : ClusterRun k} {count : Nat}
    {stations : Nat → Station k} {good : k.Carrier → Prop} (hcomposed : Composed (Site.direct p) r hash count stations)
    (h : ∀ i < count, (stations i).Apart good) (id : String) {j : Nat} (hj : j < count) :
    (r.holders id j).card ≤ 1 := by
  have hown : ∀ i ∈ r.holders id j, i = j := by
    intro i hi
    obtain ⟨hrange, hholds⟩ := Finset.mem_filter.1 hi
    have hi : i < count := hcomposed.length ▸ Finset.mem_range.1 hrange
    rw [(hcomposed.shows (Site.makes_direct p)).holds_eq id hi hj] at hholds
    have hin := Station.inbound_of_written (Option.isSome_iff_ne_none.1 hholds)
    exact hcomposed.distinct i hi j hj ((h i hi).home _ hin).symm
  exact Finset.card_le_one.2 fun a ha b hb => (hown a ha).trans (hown b hb).symm

namespace ClusterRun
variable {k : RecordKind} [Counted k.Carrier] {p : PipelineId} {start r : ClusterRun k}

theorem Built.direct (h : start.Built p [.aggregate, .persist] fun m => m.store.table k.tag = Dict.empty) :
    ∃ stations, Composed (Site.direct p) start start.cluster.hash start.cluster.nodes.length stations ∧
      Orderly (Counted.account k.Carrier) start.cluster.hash Counted.IsCall start.cluster.nodes.length stations ∧
      ∀ i < start.cluster.nodes.length, (stations i).Apart Counted.IsCall := by
  obtain ⟨founder, htable, hcomposed⟩ := h.composed (fun _ => rfl) fun m => by rw [Site.build_direct]
  exact ⟨_, hcomposed, .create _ p _ _ hcomposed.distinct htable, fun i _ => .create p _ (founder i)⟩

theorem Reaches.direct [Cumulative k.Carrier]
    (hstart : start.Built p [.aggregate, .persist] fun m => m.store.table k.tag = Dict.empty)
    (h : Reaches p (fun r m => m.Admissible Counted.IsCall (r.logs m.node)) start r) :
    ∃ stations, Composed (Site.direct p) r start.cluster.hash start.cluster.nodes.length stations ∧
      Orderly (Counted.account k.Carrier) start.cluster.hash Counted.IsCall start.cluster.nodes.length stations ∧
      ∀ i < start.cluster.nodes.length, (stations i).Apart Counted.IsCall := by
  induction h with
  | refl => exact hstart.direct
  | step m _ hm ih =>
    obtain ⟨stations, hcomposed, horderly, hapart⟩ := ih
    by_cases hnode : m.node < start.cluster.nodes.length
    · have hready := horderly.ready (horderly.totals_chain fun _ ha => ha) hnode
      have hadmissible : m.Admissible Counted.IsCall (stations m.node).log := hcomposed.logs m.node hnode ▸ hm
      obtain ⟨ring, hsound⟩ := horderly.sound m.node hnode
      obtain ⟨hnext, hprogress⟩ := hsound.actDirect (hapart m.node hnode).unrouted p hadmissible hready
      refine ⟨_, hcomposed.step_direct (fun i hi => (hapart i hi).unrouted) hnode,
        horderly.here hnode hprogress ⟨ring, hnext⟩, fun i hi => ?_⟩
      by_cases him : i = m.node
      · rw [him, Function.update_self]
        exact (hapart m.node hnode).actDirect hadmissible hprogress
      · rw [Function.update_of_ne him]
        exact hapart i hi
    · exact ⟨stations, hcomposed.step_nowhere (by omega), horderly, hapart⟩

end ClusterRun

/-! ### Both layouts -/

/-- A layout that totals first and stores last has at most a dispatch stage between. -/
theorem layout_of_aggregating_first {p : PipelineId} {layout : Layout} (h : checkLayout p layout = .ok ())
    (hfirst : layout.head? = some .aggregate) (hlast : layout.getLast? = some .persist) :
    layout = [.aggregate, .persist] ∨ layout = Collector.layout := by
  obtain ⟨rest, rfl⟩ := List.head?_eq_some_iff.1 hfirst
  match rest with
  | [] => cases hlast
  | .aggregate :: _ => simp [checkLayout, checkStages] at h
  | [.persist] => exact .inl rfl
  | .persist :: second :: _ => cases second <;> simp [checkLayout, checkStages] at h
  | [.dispatch] => cases hlast
  | .dispatch :: .aggregate :: _ => simp [checkLayout, checkStages] at h
  | .dispatch :: .dispatch :: _ => simp [checkLayout, checkStages] at h
  | [.dispatch, .persist] => exact .inr rfl
  | .dispatch :: .persist :: third :: _ => cases third <;> simp [checkLayout, checkStages] at h

/-- In every state of every run of a cluster with fixed members whose nodes total records before
anything else, whatever is refused, lost or fails, rows hold no more than was submitted on all
nodes, and what comes to a persist stage are running totals of records of the origin alone. -/
theorem ClusterRun.stored_of_aggregating_first (k : RecordKind) (hk : Rollup.mode k.Carrier = .additive)
    (p : PipelineId) (layout : Layout) (hlayout : checkLayout p layout = .ok ())
    (hfirst : layout.head? = some .aggregate) (hlast : layout.getLast? = some .persist) (members : List String)
    (virtualNodes : Nat) (start : ClusterRun k)
    (hstart : start.Built p layout fun m => m.Fresh k start.cluster.hash members virtualNodes) (r : ClusterRun k)
    (hreach : Reaches p (fun r m => m.Admissible k.IsCall (r.logs m.node)) start r) : r.Faithful p := by
  obtain ⟨_, _, htally, hcall⟩ := RecordKind.counted_of_additive hk
  rw [hcall] at hreach
  rcases layout_of_aggregating_first hlayout hfirst hlast with rfl | rfl
  · have hbuilt : start.Built p [.aggregate, .persist] fun m => m.store.table k.tag = Dict.empty :=
      ⟨fun n hn => (hstart.nodes n hn).imp fun _ hm => ⟨hm.1.table, hm.2⟩, hstart.names, hstart.logs⟩
    obtain ⟨stations, hcomposed, horderly, hapart⟩ := hreach.direct hbuilt
    exact horderly.faithful hcomposed (Site.makes_direct p) (fun i hi => (hapart i hi).fed) htally
      fun id j hj => Station.Apart.holders_card hcomposed hapart id hj
  · obtain ⟨stations, hupheld, hfed⟩ := Upheld.run_fed (Opens.iff_built.2 hstart) hreach
    exact hupheld.orderly.faithful hupheld.stationed.toComposed (Site.makes_node p) hfed htally
      fun id j hj => hupheld.holders_card id hj

namespace ClusterRun

theorem stored_of_aggregating_first_stored : stored.Faithful ⟨2⟩ ∧
    stored.storedTotal ServiceStats.oneCall.id RecordKind.serviceStats.callsAt = 1 := by
  have hbuilt := Opens.iff_built.1 opens_twoNodes
  exact ⟨stored_of_aggregating_first .serviceStats rfl ⟨2⟩ Collector.layout rfl rfl rfl ["a", "b"] 1 twoNodes hbuilt
    stored reaches_stored, by decide +kernel⟩

/-! ### Dividing before totalling -/

/-- Two nodes that divide records by owner before they total them. The first owns every key. -/
def dispatchFirst : ClusterRun .serviceStats where
  cluster :=
    { nodes := ["a", "b"].map fun name =>
        ((newcomer name).build .serviceStats ⟨2⟩ [.dispatch, .aggregate, .persist] none).2
      hash := fun _ => 0
      attached := ["a", "b"]
      clock := .epoch }
  logs _ := {}

/-- A call is submitted at each node. Both are totalled at the first, and stored there. -/
def totalledTogether : ClusterRun .serviceStats :=
  [.submit 0 .oneCall, .begin 0 0 .epoch [] false, .handOn 0 0, .submit 1 .oneCall, .begin 1 0 .epoch ["a"] false,
    .send 1 0, .begin 0 1 .epoch [] false, .handOn 0 1, .handOn 0 1, .begin 0 2 .epoch [] false,
    .flush 0 .epoch].foldl (step ⟨2⟩) dispatchFirst

/-- The layout is accepted. The second total comes to the ledger as one of the second node, though
it counts the call of the first as well, and is added to the first total. -/
theorem stored_dispatchFirst :
    checkLayout ⟨2⟩ [.dispatch, .aggregate, .persist] = .ok () ∧
    dispatchFirst.Built ⟨2⟩ [.dispatch, .aggregate, .persist]
      (fun m => m.Fresh .serviceStats dispatchFirst.cluster.hash ["a", "b"] 1) ∧
    Reaches ⟨2⟩ (fun r m => m.Admissible RecordKind.serviceStats.IsCall (r.logs m.node)) dispatchFirst totalledTogether ∧
    RecordKind.serviceStats.counted RecordKind.serviceStats.callsAt (totalledTogether.submitted ServiceStats.oneCall.id) <
      totalledTogether.storedTotal ServiceStats.oneCall.id RecordKind.serviceStats.callsAt := by
  refine ⟨rfl, ⟨fun n hn => ?_, by decide, fun _ => rfl⟩, ?_, by decide +kernel⟩
  · obtain ⟨name, _, rfl⟩ := List.mem_map.1 hn
    refine ⟨newcomer name, ⟨rfl, fun _ => .rfl, rfl, fun b hb => ?_, rfl⟩, rfl, rfl⟩
    cases hb
    rfl
  · have hcall : RecordKind.serviceStats.IsCall .oneCall := ⟨1, 1, _, 100, false, _, rfl⟩
    have hera := Instant.inEra_epoch
    simp only [totalledTogether, List.foldl_cons, List.foldl_nil]
    refine .step _ (.step _ (.step _ (.step _ (.step _ (.step _ (.step _ (.step _ (.step _ (.step _ (.step _ .refl hcall)
      ⟨hera, ?_⟩) trivial) hcall) ⟨hera, ?_⟩) trivial) ⟨hera, ?_⟩) trivial) trivial) ⟨hera, ?_⟩) ⟨hera, ?_⟩
    all_goals decide +kernel

end ClusterRun
end TraceRollup
