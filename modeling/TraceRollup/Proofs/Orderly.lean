import Mathlib.Algebra.BigOperators.Intervals
import Mathlib.Data.List.Flatten
import TraceRollup.Proofs.SoundStations

/-!
# Stations in order

Stations are orderly if each is sound and what comes to one from another are running totals in
their order, whichever way they come (`Orderly`). Every move keeps stations orderly
(`Orderly.moved`). A row then counts, of every station, the first of the calls accepted there
(`Orderly.tally_row`).
-/

namespace TraceRollup

/-! ### Pairs of stations -/

section
variable {k : RecordKind} {R : Station k → Station k → Prop} {count : Nat} {stations : Nat → Station k}

/-- A relation between all stations, when one of them has changed. -/
theorem pairs_update {i : Nat} {t : Station k} (h : ∀ o < count, ∀ d < count, R (stations o) (stations d))
    (hout : ∀ d < count, d ≠ i → R t (stations d)) (hin : ∀ o < count, o ≠ i → R (stations o) t) (hhome : R t t) :
    ∀ o < count, ∀ d < count, R (Function.update stations i t o) (Function.update stations i t d) := by
  intro o ho d hd
  by_cases hoi : o = i <;> by_cases hdi : d = i
  · rw [hoi, hdi, Function.update_self]
    exact hhome
  · rw [hoi, Function.update_self, Function.update_of_ne hdi]
    exact hout d hd hdi
  · rw [hdi, Function.update_self, Function.update_of_ne hoi]
    exact hin o ho hoi
  · rw [Function.update_of_ne hoi, Function.update_of_ne hdi]
    exact h o ho d hd

/-- A relation between all stations, when one has sent a letter to another. -/
theorem pairs_sent {i j : Nat} {s t : Station k} (hj : j < count) (hij : i ≠ j)
    (h : ∀ o < count, ∀ d < count, R (Function.update stations i s o) (Function.update stations i s d))
    (hsent : R s t) (hout : ∀ d, R (stations j) d → R t d)
    (hin : ∀ o < count, o ≠ i → R (stations o) (stations j) → R (stations o) t)
    (hhome : R (stations j) (stations j) → R t t) :
    ∀ o < count, ∀ d < count, R (Function.update (Function.update stations i s) j t o)
      (Function.update (Function.update stations i s) j t d) := by
  have hself : Function.update stations i s j = stations j := Function.update_of_ne (Ne.symm hij) _ _
  refine pairs_update h (fun d hd _ => hout _ (hself ▸ h j hj d hd)) (fun o ho _ => ?_) (hhome ?_)
  · by_cases hoi : o = i
    · rw [hoi, Function.update_self]
      exact hsent
    · have ho' := h o ho j hj
      rw [hself, Function.update_of_ne hoi] at ho'
      rw [Function.update_of_ne hoi]
      exact hin o ho hoi ho'
  · have hhome' := h j hj j hj
    rwa [hself] at hhome'

end

/-! ### Letters that arrive -/

namespace Station
variable {k : RecordKind}

theorem inbound_receive (d : Station k) (key : OriginKey) {x : Snapshot k.Carrier} (h : x.origin ≠ key.1) :
    (d.receive x).inbound key = d.inbound key := by
  have hnone : pick key (if (d.site.arrivals.send x).1.isOk then [x] else []) = [] := by
    refine pick_eq_nil fun y hy => ?_
    split at hy
    · rw [List.mem_singleton.1 hy]
      exact h
    · cases hy
  simp only [inbound, receive, Site.receive, StageQueue.items_send, pick_append, hnone, List.append_nil]

/-- A letter that arrives goes from what is handed to what has come in. -/
theorem inbound_sent {o d : Station k} {x : Snapshot k.Carrier} (hne : o.site.name ≠ d.site.name)
    (hx : o.site.mail.head? = some (d.site.name, x)) (id : String) :
    ((d.receive x).inbound (o.site.name, id) ++
      (Station.mk (o.site.mailed 1) o.log).handed d.site.name id).Sublist
        (d.inbound (o.site.name, id) ++ o.handed d.site.name id) := by
  obtain ⟨rest, hmail⟩ := List.head?_eq_some_iff.1 hx
  have hhanded : o.handed d.site.name id = pick (o.site.name, id) [x] ++
      (Station.mk (o.site.mailed 1) o.log).handed d.site.name id := by
    have hletters : Dispatcher.lettersTo d.site.name o.site.mail =
        [x] ++ Dispatcher.lettersTo d.site.name o.site.mail.tail := by
      simp [hmail, Dispatcher.lettersTo]
    rw [handed_of_ne (Ne.symm hne), handed_of_ne (s := ⟨o.site.mailed 1, o.log⟩) (Ne.symm hne), hletters]
    exact pick_append _ _ _
  rw [hhanded, ← List.append_assoc]
  refine List.Sublist.append ?_ (.refl _)
  simp only [inbound, receive, Site.receive, StageQueue.items_send, pick_append, ← List.append_assoc]
  refine (List.Sublist.refl _).append ?_
  split
  · exact .refl _
  · exact List.nil_sublist _

end Station

namespace InOrder
variable {k : RecordKind} {o d : Station k} {x : Snapshot k.Carrier} {id : String}

theorem sent (h : InOrder o d id) (hne : o.site.name ≠ d.site.name)
    (hx : o.site.mail.head? = some (d.site.name, x)) :
    InOrder { o with site := o.site.mailed 1 } (d.receive x) id :=
  ((Station.inbound_sent hne hx id).append (.refl _)).trans h

/-- A letter of another station does not matter. -/
theorem receive (h : InOrder o d id) (hne : x.origin ≠ o.site.name) : InOrder o (d.receive x) id := by
  unfold InOrder at *
  rw [Station.inbound_receive d (o.site.name, id) hne]
  exact h

end InOrder

/-! ### Orderly stations -/

theorem Account.Chain.nil {α V : Type} [Rollup α] [AddCommMonoid V] {A : Account α V} {id : String} : A.Chain id [] :=
  ⟨fun _ h => absurd h List.not_mem_nil, fun _ h => absurd h List.not_mem_nil, List.Pairwise.nil⟩

/-- Stations of different names, each of them sound with whatever ring it has, and in order. -/
structure Orderly {k : RecordKind} {V : Type} [AddCommMonoid V] (A : Account k.Carrier V) (hash : PointHash)
    (good : k.Carrier → Prop) (count : Nat) (stations : Nat → Station k) : Prop where
  distinct : ∀ i < count, ∀ j < count, (stations i).site.name = (stations j).site.name → i = j
  sound : ∀ i < count, ∃ ring, (stations i).Sound A hash ring good
  order : ∀ o < count, ∀ d < count, ∀ id, InOrder (stations o) (stations d) id
  known : ∀ i < count, ∀ key, (stations i).inbound key ≠ [] → ∃ o < count, (stations o).site.name = key.1

namespace Orderly
variable {k : RecordKind} {V : Type} [AddCommMonoid V] {A : Account k.Carrier V} {hash : PointHash}
  {good : k.Carrier → Prop} {count : Nat} {stations : Nat → Station k}

/-- What has come in of a key is a chain. -/
theorem chain (h : Orderly A hash good count stations)
    (hchain : ∀ o < count, ∀ id, A.Chain id ((stations o).totals id)) {i : Nat} (hi : i < count) (key : OriginKey) :
    A.Chain key.2 ((stations i).inbound key) := by
  by_cases hnil : (stations i).inbound key = []
  · rw [hnil]
    exact .nil
  · obtain ⟨o, ho, hname⟩ := h.known i hi key hnil
    have horder := h.order o ho i hi key.2
    rw [InOrder, hname, List.append_assoc] at horder
    exact (hchain o ho key.2).sublist ((List.sublist_append_left _ _).trans horder)

theorem ready (h : Orderly A hash good count stations)
    (hchain : ∀ o < count, ∀ id, A.Chain id ((stations o).totals id)) {i : Nat} (hi : i < count) :
    Ready A (stations i).log.written (stations i).site.ledger.buffer := by
  have htrails : Trails (stations i).log.written (stations i).site.ledger.buffer (stations i).inbound :=
    fun key => List.sublist_append_left _ _
  exact htrails.ready fun key => h.chain hchain hi key

/-- One station makes progress. -/
theorem here (h : Orderly A hash good count stations) {i : Nat} {ring : HashRing} {t : Station k} (hi : i < count)
    (hp : Progress hash ring (stations i) t) (ht : ∃ ring, t.Sound A hash ring good) :
    Orderly A hash good count (Function.update stations i t) := by
  have hname : ∀ j, (Function.update stations i t j).site.name = (stations j).site.name := by
    intro j
    by_cases hj : j = i
    · rw [hj, Function.update_self, hp.name]
    · rw [Function.update_of_ne hj]
  have hne : ∀ j, j < count → j ≠ i → (stations j).site.name ≠ (stations i).site.name :=
    fun j hj hji heq => hji (h.distinct j hj i hi heq)
  refine ⟨fun a ha b hb => ?_, fun j hj => ?_, ?_, fun j hj key hnil => ?_⟩
  · rw [hname, hname]
    exact h.distinct a ha b hb
  · by_cases hji : j = i
    · rw [hji, Function.update_self]
      exact ht
    · rw [Function.update_of_ne hji]
      exact h.sound j hj
  · exact pairs_update (R := fun o d => ∀ id, InOrder o d id) h.order
      (fun d hd hdi id => hp.order_out (h.order i hi d hd id) (hne d hd hdi))
      (fun o ho hoi id => hp.order_in (h.order o ho i hi id) (hne o ho hoi))
      fun id => hp.order_home (h.order i hi i hi id)
  · simp only [hname]
    by_cases hji : j = i
    · rw [hji, Function.update_self] at hnil
      by_cases hkey : key.1 = (stations i).site.name
      · exact ⟨i, hi, hkey.symm⟩
      · refine h.known i hi key fun hold => hnil ?_
        have hsub := hp.foreign key hkey
        rw [hold] at hsub
        exact List.sublist_nil.1 hsub
    · rw [Function.update_of_ne hji] at hnil
      exact h.known j hj key hnil

/-- A letter arrives at another station, and what has come in changes only for its sender. -/
theorem sent (h : Orderly A hash good count stations) {i d : Nat} {x : Snapshot k.Carrier} (hi : i < count)
    (hd : d < count) (hne : (stations i).site.name ≠ (stations d).site.name)
    (horigin : x.origin = (stations i).site.name)
    (hx : (stations i).site.mail.head? = some ((stations d).site.name, x))
    (hs : ∃ ring, Station.Sound A hash ring good { stations i with site := (stations i).site.mailed 1 }) :
    Orderly A hash good count (Function.update (Function.update stations i
      { stations i with site := (stations i).site.mailed 1 }) d ((stations d).receive x)) := by
  have hid : i ≠ d := fun heq => hne (by rw [heq])
  have hprogress : Progress hash default (stations i) { stations i with site := (stations i).site.mailed 1 } :=
    Station.Sound.progress_mailed (stations i) 1
  have hleft := h.here hi hprogress hs
  have hname : ∀ j, (Function.update (Function.update stations i
      { stations i with site := (stations i).site.mailed 1 }) d ((stations d).receive x) j).site.name =
        (stations j).site.name := by
    intro j
    by_cases hj : j = d
    · rw [hj, Function.update_self, ((stations d).same_receive x).name]
    · rw [Function.update_of_ne hj]
      by_cases hji : j = i
      · rw [hji, Function.update_self, hprogress.name]
      · rw [Function.update_of_ne hji]
  refine ⟨fun a ha b hb => ?_, fun j hj => ?_, ?_, fun j hj key hnil => ?_⟩
  · rw [hname, hname]
    exact h.distinct a ha b hb
  · by_cases hjd : j = d
    · rw [hjd, Function.update_self]
      obtain ⟨ring, hsound⟩ := h.sound d hd
      exact ⟨ring, hsound.receive x⟩
    · rw [Function.update_of_ne hjd]
      exact hleft.sound j hj
  · refine pairs_sent (R := fun o d => ∀ id, InOrder o d id) hd hid hleft.order
      (fun id => (h.order i hi d hd id).sent hne hx) (fun _ hout => hout) ?_ ?_
    · exact fun o ho hoi hin id =>
        (hin id).receive (by rw [horigin]; exact fun heq => hoi (h.distinct o ho i hi heq.symm))
    · exact fun hhome id => (hhome id).receive (by rw [horigin]; exact hne)
  · simp only [hname]
    by_cases hkey : key.1 = (stations i).site.name
    · exact ⟨i, hi, hkey.symm⟩
    · by_cases hjd : j = d
      · rw [hjd, Function.update_self, Station.inbound_receive _ _ (by rw [horigin]; exact Ne.symm hkey)] at hnil
        exact h.known d hd key hnil
      · rw [Function.update_of_ne hjd] at hnil
        obtain ⟨o, ho, honame⟩ := hleft.known j hj key hnil
        refine ⟨o, ho, ?_⟩
        by_cases hoi : o = i
        · rw [hoi, Function.update_self] at honame
          rw [hoi]
          exact honame
        · rw [Function.update_of_ne hoi] at honame
          exact honame

/-- Every move keeps stations orderly. -/
theorem moved [Cumulative k.Carrier] {p : PipelineId} {m : ClusterMove k} {next : Nat → Station k}
    (h : Orderly A hash good count stations) (hmoved : Moved p hash count stations m next)
    (hm : m.node < count → m.Admissible good (stations m.node).log)
    (hchain : ∀ o < count, ∀ id, A.Chain id ((stations o).totals id)) : Orderly A hash good count next := by
  cases hmoved with
  | nowhere _ => exact h
  | here hnode =>
    obtain ⟨ring, hsound⟩ := h.sound m.node hnode
    exact h.here hnode (hsound.progress p (hm hnode)) ⟨ring, hsound.act p (hm hnode) (h.ready hchain hnode)⟩
  | @sent i d x hsend hi hd hne hx =>
    subst hsend
    obtain ⟨ring, hsound⟩ := h.sound i hi
    have horigin := (hsound.mail _ (List.mem_of_mem_head? hx)).2
    exact h.sent hi hd hne horigin hx ⟨ring, hsound.act p (m := .send i 1) trivial (h.ready hchain hi)⟩

end Orderly

/-! ### What a row counts -/

theorem Account.worth_mergeAll {α V : Type} [Rollup α] [AddCommMonoid V] [LawfulKey α] {A : Account α V} {id : String}
    {xs : List α} (hxs : ∀ x ∈ xs, A.Of id x) : A.worth (Rollup.mergeAll xs) = (xs.map A.read).sum := by
  by_cases hnil : xs = []
  · rw [hnil]
    rfl
  · obtain ⟨m, hm, _, hread⟩ := A.mergeAll_spec hnil hxs
    rw [hm]
    exact hread

def RecordKind.counted (k : RecordKind) (c : Nat) (xs : List k.Carrier) : Int :=
  xs.foldr (fun a n => (k.tally a c).toInt + n) 0

theorem RecordKind.counted_eq {k : RecordKind} [Counted k.Carrier] (htally : k.tally = Counted.tally) : k.counted = Counted.counted := by
  funext c xs
  rw [RecordKind.counted, htally, Counted.counted]

namespace Orderly
variable {k : RecordKind} {V : Type} [AddCommMonoid V] {A : Account k.Carrier V} {hash : PointHash}
  {good : k.Carrier → Prop} {count : Nat} {stations : Nat → Station k}

/-- What was written came from one of the stations. -/
theorem origin (h : Orderly A hash good count stations) {i : Nat} (hi : i < count) {o id : String}
    (hW : (stations i).log.written (o, id) ≠ none) : ∃ j < count, (stations j).site.name = o :=
  h.known i hi (o, id) (Station.inbound_of_written hW)

theorem covers (h : Orderly A hash good count stations) {i : Nat} (hi : i < count) (id : String) :
    (stations i).log.written.Covers id ((List.range count).map fun j => (stations j).site.name) where
  distinct := by
    refine List.Nodup.map_on (fun a ha b hb heq => ?_) List.nodup_range
    exact h.distinct a (List.mem_range.1 ha) b (List.mem_range.1 hb) heq
  all o hW := by
    obtain ⟨j, hj, hname⟩ := h.origin hi hW
    exact List.mem_map.2 ⟨j, List.mem_range.2 hj, hname⟩

/-- Of every node the snapshot last written is the total of the first records accepted there. -/
theorem parts (h : Orderly A hash good count stations) {i : Nat} (hi : i < count) (id : String) :
    ∃ part : Nat → List k.Carrier, ∀ j < count, part j <+: (stations j).log.under id ∧
      (stations i).log.written ((stations j).site.name, id) = Rollup.mergeAll (part j) ∧
      ((stations i).log.written ((stations j).site.name, id) = Rollup.mergeAll ((stations j).log.under id) →
        part j = (stations j).log.under id) := by
  have key : ∀ j, ∃ part, j < count → part <+: (stations j).log.under id ∧
      (stations i).log.written ((stations j).site.name, id) = Rollup.mergeAll part ∧
      ((stations i).log.written ((stations j).site.name, id) = Rollup.mergeAll ((stations j).log.under id) →
        part = (stations j).log.under id) := by
    intro j
    by_cases hnew : (stations i).log.written ((stations j).site.name, id) = Rollup.mergeAll ((stations j).log.under id)
    · exact ⟨_, fun _ => ⟨List.prefix_rfl, hnew, fun _ => rfl⟩⟩
    · cases hW : (stations i).log.written ((stations j).site.name, id) with
      | none => exact ⟨[], fun _ => ⟨List.nil_prefix, rfl, fun heq => absurd (hW.trans heq) hnew⟩⟩
      | some t =>
        by_cases hj : j < count
        · have hin : t ∈ (stations i).inbound ((stations j).site.name, id) := by
            rw [Station.inbound, hW]
            exact List.mem_append_left _ (List.mem_append_left _ (List.mem_singleton_self t))
          have hmem : t ∈ (stations j).totals id :=
            (h.order j hj i hi id).subset (List.mem_append_left _ (List.mem_append_left _ hin))
          obtain ⟨part, hpart, htotal⟩ := Rollup.mem_totals hmem
          exact ⟨part, fun _ => ⟨hpart, htotal.symm, fun heq => absurd (hW.trans heq) hnew⟩⟩
        · exact ⟨[], fun hj' => absurd hj' hj⟩
  choose part hpart using key
  exact ⟨part, hpart⟩

variable [Counted k.Carrier]

theorem calls_under {good : k.Carrier → Prop} (hgood : ∀ a, good a → Counted.IsCall a)
    (h : Orderly (Counted.account k.Carrier) hash good count stations) {o : Nat} (ho : o < count) (id : String) :
    ∀ c ∈ (stations o).log.under id, Counted.IsCall c ∧ Rollup.id c = id := by
  intro c hc
  obtain ⟨hmem, hid⟩ := List.mem_filter.1 hc
  obtain ⟨ring, hsound⟩ := h.sound o ho
  exact ⟨hgood c (hsound.accepted c hmem), of_decide_eq_true hid⟩

theorem totals_chain {good : k.Carrier → Prop} (hgood : ∀ a, good a → Counted.IsCall a)
    (h : Orderly (Counted.account k.Carrier) hash good count stations) :
    ∀ o < count, ∀ id, (Counted.account k.Carrier).Chain id ((stations o).totals id) := by
  intro o ho id
  have hcalls := h.calls_under hgood ho id
  exact (Rollup.totals_are_totals _).chain (fun c hc => Counted.sound_call (hcalls c hc).1 (hcalls c hc).2)
    fun _ _ hg => Counted.follows hg hcalls

/-- A row counts what was written of the nodes. -/
theorem tally_row (h : Orderly (Counted.account k.Carrier) hash Counted.IsCall count stations)
    (htally : k.tally = Counted.tally) {i : Nat} (hi : i < count) {id : String} {m : k.Carrier}
    (hrow : Row (Counted.account k.Carrier) (stations i).log.written id m) {part : Nat → List k.Carrier}
    (hpart : ∀ j < count, part j <+: (stations j).log.under id ∧
      (stations i).log.written ((stations j).site.name, id) = Rollup.mergeAll (part j)) (c : Nat) :
    (k.tally m c).toInt = min 9223372036854775807 (k.counted c ((List.range count).flatMap part)) := by
  have hcalls : ∀ j < count, ∀ c ∈ part j, Counted.IsCall c ∧ Rollup.id c = id :=
    fun j hj c hc => h.calls_under (fun _ hc => hc) hj id c ((hpart j hj).1.subset hc)
  have hread : (Counted.account k.Carrier).read m =
      (((List.range count).flatMap part).map (Counted.account k.Carrier).read).sum := by
    rw [hrow.balance _ (h.covers hi id), Account.total_eq, List.map_map, List.map_flatMap, List.flatMap_def,
      List.sum_flatten, List.map_map]
    congr 1
    refine List.map_congr_left fun j hj => ?_
    have hj := List.mem_range.1 hj
    simp only [Function.comp_apply, (hpart j hj).2]
    exact Account.worth_mergeAll fun c hc => Counted.sound_call (hcalls j hj c hc).1 (hcalls j hj c hc).2
  have hall : ∀ c ∈ (List.range count).flatMap part, Counted.IsCall c := by
    intro c hc
    obtain ⟨j, hj, hc⟩ := List.mem_flatMap.1 hc
    exact (hcalls j (List.mem_range.1 hj) c hc).1
  rw [htally, RecordKind.counted_eq htally, ← Counted.count_sum hall, ← hread]
  exact Clamped.toInt_of_ofCounter (hrow.of.2 c)

end Orderly

/-! ### The beginning -/

/-- A station that has just been set up is sound. -/
theorem Station.sound_create {k : RecordKind} {V : Type} [AddCommMonoid V] (A : Account k.Carrier V) (p : PipelineId)
    (hash : PointHash) (good : k.Carrier → Prop) {n : Node} (htable : n.store.table k.tag = Dict.empty) :
    Sound A hash (n.shared.router.current hash) good ⟨.create k p n.name n.options n.store n.shared, {}⟩ where
  ring := rfl
  entry _ hx := absurd hx List.not_mem_nil
  answered _ hx := absurd hx List.not_mem_nil
  routing _ hx := absurd hx List.not_mem_nil
  kept _ hx := absurd hx List.not_mem_nil
  mail _ hl := absurd hl List.not_mem_nil
  accepted _ ha := absurd ha List.not_mem_nil
  recalls := .create
  books := by
    simp only [Site.create, htable]
    exact Books.empty
  batch := Nat.le_max_right _ 1
  clock := Instant.inEra_epoch

theorem Station.arriving_create {k : RecordKind} {p : PipelineId} (m : Node) (d : Station k) (name id : String)
    (hin : d.inbound (m.name, id) = []) :
    d.inbound (m.name, id) ++ (Station.mk (.create k p m.name m.options m.store m.shared) {}).handed name id = [] := by
  rw [hin, handed]
  split <;> rfl

theorem InOrder.create {k : RecordKind} {p : PipelineId} (m : Node) {d : Station k} {id : String}
    (hin : d.inbound (m.name, id) = []) :
    InOrder ⟨.create k p m.name m.options m.store m.shared, {}⟩ d id := by
  have hnil := Station.arriving_create (p := p) m d d.site.name id hin
  unfold InOrder
  simp only [Site.create] at hnil ⊢
  rw [hnil]
  exact List.nil_sublist _

theorem Orderly.create {k : RecordKind} {V : Type} [AddCommMonoid V] (A : Account k.Carrier V) (p : PipelineId)
    (hash : PointHash) (good : k.Carrier → Prop) {count : Nat} {founder : Nat → Node}
    (hdistinct : ∀ i < count, ∀ j < count, (founder i).name = (founder j).name → i = j)
    (htable : ∀ i < count, (founder i).store.table k.tag = Dict.empty) :
    Orderly A hash good count fun i =>
      ⟨.create k p (founder i).name (founder i).options (founder i).store (founder i).shared, {}⟩ where
  distinct := hdistinct
  sound i hi := ⟨_, Station.sound_create A p hash good (htable i hi)⟩
  order o _ _ _ _ := .create (founder o) rfl
  known _ _ _ hnil := absurd rfl hnil

/-- Nodes of different names have just built their pipelines, and were like `P` before. -/
structure ClusterRun.Built {k : RecordKind} (p : PipelineId) (layout : Layout) (P : Node → Prop) (r : ClusterRun k) :
    Prop where
  nodes : ∀ n ∈ r.cluster.nodes, ∃ m : Node, P m ∧ m.pipelines = [] ∧ (m.build k p layout none).2 = n
  names : (r.cluster.nodes.map Node.name).Nodup
  logs : ∀ i, r.logs i = {}

namespace ClusterRun.Built
variable {k : RecordKind} {p : PipelineId} {layout : Layout} {P : Node → Prop} {r : ClusterRun k}

theorem founders (h : r.Built p layout P) : ∃ founder : Nat → Node, ∀ i < r.cluster.nodes.length, P (founder i) ∧
    r.cluster.nodes[i]? = some ((Node.mk (founder i).name (founder i).options (founder i).store (founder i).shared
      []).build k p layout none).2 := by
  have hfounder : ∀ i : Nat, ∃ m : Node, ∀ n, r.cluster.nodes[i]? = some n →
      P m ∧ m.pipelines = [] ∧ (m.build k p layout none).2 = n := by
    intro i
    cases hn : r.cluster.nodes[i]? with
    | none => exact ⟨.sole {} .fresh, fun n hn => by cases hn⟩
    | some n =>
      obtain ⟨m, hm⟩ := h.nodes n (List.mem_of_getElem? hn)
      exact ⟨m, fun n' hn' => by cases hn'; exact hm⟩
  choose founder hfounder using hfounder
  refine ⟨founder, fun i hi => ?_⟩
  obtain ⟨hP, hbare, hbuild⟩ := hfounder i _ (List.getElem?_eq_getElem hi)
  refine ⟨hP, ?_⟩
  rw [← hbare, List.getElem?_eq_getElem hi, ← hbuild]

/-- Nodes that are made from sites are so when they have just built their pipelines. -/
theorem composed (h : r.Built p layout P) {make : Site k → Node} (hname : ∀ s, (make s).name = s.name)
    (hbuild : ∀ m : Node, ((Node.mk m.name m.options m.store m.shared []).build k p layout none).2 =
      make (.create k p m.name m.options m.store m.shared)) :
    ∃ founder : Nat → Node, (∀ i < r.cluster.nodes.length, P (founder i)) ∧
      Composed make r r.cluster.hash r.cluster.nodes.length fun i =>
        ⟨.create k p (founder i).name (founder i).options (founder i).store (founder i).shared, {}⟩ := by
  obtain ⟨founder, hfounder⟩ := h.founders
  have hget : ∀ i < r.cluster.nodes.length, r.cluster.nodes[i]? =
      some (make (.create k p (founder i).name (founder i).options (founder i).store (founder i).shared)) := by
    intro i hi
    rw [(hfounder i hi).2, hbuild]
  have hnames : ∀ i < r.cluster.nodes.length, (r.cluster.nodes.map Node.name)[i]? = some (founder i).name := by
    intro i hi
    rw [List.getElem?_map, hget i hi, Option.map_some, hname]
    rfl
  refine ⟨founder, fun i hi => (hfounder i hi).1, rfl, ?_, fun i _ => h.logs i, fun i hi j hj heq => ?_⟩
  · apply List.ext_getElem?
    intro i
    by_cases hi : i < r.cluster.nodes.length
    · rw [hget i hi, List.getElem?_map, List.getElem?_range hi, Option.map_some]
    · rw [List.getElem?_eq_none (by omega), List.getElem?_eq_none (by rw [List.length_map, List.length_range]; omega)]
  · have heq : (founder i).name = (founder j).name := heq
    have hi' : i < (r.cluster.nodes.map Node.name).length := by rwa [List.length_map]
    exact (List.getElem?_inj hi' h.names).1 (by rw [hnames i hi, hnames j hj, heq])

/-- Nodes that have just built their pipelines are stations. -/
theorem stationed (h : r.Built p Collector.layout P) :
    ∃ founder : Nat → Node, (∀ i < r.cluster.nodes.length, P (founder i)) ∧
      Stationed p r r.cluster.hash r.cluster.nodes.length fun i =>
        ⟨.create k p (founder i).name (founder i).options (founder i).store (founder i).shared, {}⟩ := by
  obtain ⟨founder, hfounder, hcomposed⟩ := h.composed (fun _ => rfl) fun m => by
    rw [Site.build_node]
  exact ⟨founder, hfounder, hcomposed, fun i _ => Site.placed_create ..⟩

end ClusterRun.Built
end TraceRollup
