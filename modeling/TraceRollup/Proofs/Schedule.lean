import TraceRollup.Proofs.Shutdown

/-!
# The schedule of a lone node

The workers of a lone node take turns while there is something queued. All that they do are moves
of a run, and each turn leaves less to be done (`Site.load`), so the turns of `Cluster.settle` are
enough for all workers to finish (`Steady.settle`). When a node is shut down in this way, its
stages are closed as they should be (`ClusterRun.closes_shutDown`).
-/

namespace TraceRollup

/-! ### What is to be done -/

namespace Site
variable {k : RecordKind}

/-- How many records a worker has in hand. -/
def hand (s : Site k) : Nat → Nat
  | 0 => s.answered.length
  | 1 => s.kept.length
  | _ + 2 => 0

/-- How often a record at most passes on from one place to the next until it is buffered. -/
def load (s : Site k) : Nat :=
  3 * s.entry.items.length + 2 * (s.answered.length + s.routing.items.length) +
    (s.kept.length + s.arrivals.items.length)

/-- A worker can take a batch. -/
def CanBegin (p : PipelineId) (s : Site k) (j : Nat) : Prop :=
  ∃ w, (s.pipeline p).workers[j]? = some w ∧ w.canBegin = true

theorem length_send_le {α : Type} (q : StageQueue α) (x : α) : (q.send x).2.items.length ≤ q.items.length + 1 := by
  rw [StageQueue.items_send, List.length_append]
  split
  · exact Nat.le_refl _
  · exact Nat.le_add_right _ _

/-- A batch is not empty. -/
theorem length_batch {α : Type} {w : Worker α} (h : w.canBegin = true) :
    w.nextBatch.length + (w.queue.receiveMany Worker.batchLimit).2.items.length = w.queue.items.length ∧
      0 < w.nextBatch.length := by
  have hpos := List.length_pos_iff.2 (Worker.items_of_canBegin h)
  simp only [Worker.nextBatch, StageQueue.receiveMany, Worker.batchLimit, List.length_take, List.length_drop]
  omega

/-- A step of a worker leaves what the others have in hand, and no more to be done. -/
structure Works (j : Nat) (s t : Site k) : Prop where
  others : ∀ i, i ≠ j → t.hand i = s.hand i
  load : t.load ≤ s.load

theorem Works.refl (j : Nat) (s : Site k) : Works j s s := ⟨fun _ _ => rfl, Nat.le_refl _⟩

theorem works_entry (env : Conditions) (s : Site k) :
    Works 0 s (s.beginEntry env) ∧ (s.entryWorker.canBegin = true → (s.beginEntry env).load < s.load) := by
  unfold beginEntry
  by_cases hcan : s.entryWorker.canBegin = true
  · rw [if_pos hcan]
    have hidle : s.answered = [] := (Worker.idle_of_canBegin hcan).2
    obtain ⟨hlen, hpos⟩ := length_batch hcan
    have hanswers := Accumulator.length_acceptAll env.now (s.totals.evictIfDue env.now) s.entryWorker.nextBatch
    have hload : (s.takeEntry env).load < s.load := by
      simp only [load, takeEntry, Accumulator.acceptBatch, hidle, List.length_nil]
      simp only [entryWorker] at hlen hpos hanswers ⊢
      omega
    refine ⟨⟨fun i hi => ?_, Nat.le_of_lt hload⟩, fun _ => hload⟩
    rcases i with _ | _ | i
    · exact absurd rfl hi
    · rfl
    · rfl
  · rw [if_neg hcan]
    exact ⟨.refl _ _, fun h => absurd h hcan⟩

theorem works_storing (env : Conditions) (s : Site k) :
    Works 2 s (s.beginStoring env) ∧ (s.storingWorker.canBegin = true → (s.beginStoring env).load < s.load) := by
  unfold beginStoring
  by_cases hcan : s.storingWorker.canBegin = true
  · rw [if_pos hcan]
    obtain ⟨hlen, hpos⟩ := length_batch hcan
    have hload : (s.takeStoring env).load < s.load := by
      simp only [load, takeStoring]
      simp only [storingWorker] at hlen hpos
      omega
    refine ⟨⟨fun i _ => ?_, Nat.le_of_lt hload⟩, fun _ => hload⟩
    rcases i with _ | _ | i <;> rfl
  · rw [if_neg hcan]
    exact ⟨.refl _ _, fun h => absurd h hcan⟩

theorem works_routing (env : Conditions) (p : PipelineId) {s : Site k}
    (howner : (s.shared.router.current env.hash).GivesAllTo env.hash s.name) :
    Works 1 s (s.beginRouting env p) ∧ ((s.routingWorker p).canBegin = true → (s.beginRouting env p).load < s.load) := by
  unfold beginRouting
  by_cases hcan : (s.routingWorker p).canBegin = true
  · rw [if_pos hcan]
    have hidle : s.kept = [] := (Worker.idle_of_canBegin hcan).2
    have hbundles : (s.dispatcher p).bundles env.hash (s.shared.router.current env.hash) (s.routingWorker p).nextBatch = [] :=
      Dispatcher.bundles_of_givesAll howner _
    obtain ⟨hlen, hpos⟩ := length_batch hcan
    have hkept := List.length_filter_le
      (fun x => ((s.dispatcher p).foreignOwner? env.hash (s.shared.router.current env.hash) x).isNone)
      (s.routingWorker p).nextBatch
    have hload : (s.takeRouting env p).load < s.load := by
      simp only [load, takeRouting, hbundles, List.any_nil, Bool.false_eq_true, if_false, hidle, List.length_nil]
      simp only [routingWorker] at hlen hpos hkept ⊢
      omega
    refine ⟨⟨fun i hi => ?_, Nat.le_of_lt hload⟩, fun _ => hload⟩
    simp only [takeRouting, hbundles, List.any_nil, Bool.false_eq_true, if_false]
    rcases i with _ | _ | i
    · rfl
    · exact absurd rfl hi
    · rfl
  · rw [if_neg hcan]
    exact ⟨.refl _ _, fun h => absurd h hcan⟩

/-- A batch that is taken leaves less to be done. -/
theorem works_begun (env : Conditions) (p : PipelineId) {s : Site k}
    (howner : (s.shared.router.current env.hash).GivesAllTo env.hash s.name) (j : Nat) :
    Works j s (s.begun env p j) ∧ (s.CanBegin p j → (s.begun env p j).load < s.load) := by
  match j with
  | 0 =>
    obtain ⟨hworks, hless⟩ := s.works_entry env
    exact ⟨hworks, fun ⟨w, hw, hcan⟩ => hless (by cases hw; exact hcan)⟩
  | 1 =>
    obtain ⟨hworks, hless⟩ := works_routing env p howner
    exact ⟨hworks, fun ⟨w, hw, hcan⟩ => hless (by cases hw; exact hcan)⟩
  | 2 =>
    obtain ⟨hworks, hless⟩ := s.works_storing env
    exact ⟨hworks, fun ⟨w, hw, hcan⟩ => hless (by cases hw; exact hcan)⟩
  | _ + 3 => exact ⟨.refl _ _, fun ⟨w, hw, _⟩ => by cases hw⟩

theorem works_handedOn (p : PipelineId) (s : Site k) (j : Nat) :
    Works j s (s.handedOn p j) ∧ (s.handedOn p j).hand j = s.hand j - 1 := by
  rcases j with _ | _ | j
  · simp only [handedOn]
    cases hanswered : s.answered with
    | nil => exact ⟨.refl _ _, by simp [hand, hanswered]⟩
    | cons x rest =>
      have hsend := length_send_le s.routing x
      refine ⟨⟨fun i hi => ?_, ?_⟩, by simp [hand, handAnswered, hanswered]⟩
      · rcases i with _ | _ | i
        · exact absurd rfl hi
        · rfl
        · rfl
      · simp only [load, handAnswered, hanswered, List.length_cons]
        omega
  · simp only [handedOn]
    cases hkept : s.kept with
    | nil => exact ⟨.refl _ _, by simp [hand, hkept]⟩
    | cons x rest =>
      have hsend := length_send_le s.arrivals x
      refine ⟨⟨fun i hi => ?_, ?_⟩, by simp [hand, handKept, hkept]⟩
      · rcases i with _ | _ | i
        · rfl
        · exact absurd rfl hi
        · rfl
      · simp only [load, handKept, hkept, List.length_cons]
        omega
  · exact ⟨.refl _ _, rfl⟩

end Site

theorem Log.clock_noteBatch {k : RecordKind} (now : Instant) (w : Worker k.Carrier) (l : Log k) :
    (l.noteBatch now w).clock = l.clock := by
  unfold noteBatch
  split
  · split <;> rfl
  · rfl

/-! ### Moves at one time -/

/-- A lone node whose notes are not ahead of the clock. -/
structure Steady {k : RecordKind} {V : Type} [AddCommMonoid V] (A : Account k.Carrier V) (p : PipelineId)
    (hash : PointHash) (ring : HashRing) (good : k.Carrier → Prop) (r : ClusterRun k) (s : Station k) : Prop where
  alone : Alone A p hash ring good r s
  era : r.cluster.clock.InEra
  past : s.log.clock.nanos ≤ r.cluster.clock.nanos

/-- Moves of a run lead to a cluster, and leave the node in a state of which `Q` holds. -/
def Leads {k : RecordKind} {V : Type} [AddCommMonoid V] (A : Account k.Carrier V) (p : PipelineId) (hash : PointHash)
    (ring : HashRing) (good : k.Carrier → Prop) (r : ClusterRun k) (c : Cluster) (Q : Site k → Prop) : Prop :=
  ∃ last t, ClusterRun.Reaches p (ClusterRun.Timely p good) r last ∧ last.cluster = c ∧
    Steady A p hash ring good last t ∧ Q t.site

section
variable {k : RecordKind} {V : Type} [AddCommMonoid V] {A : Account k.Carrier V} {p : PipelineId} {hash : PointHash}
  {ring : HashRing} {good : k.Carrier → Prop} {r : ClusterRun k} {s : Station k} {c d : Cluster}
  {P Q : Site k → Prop}

namespace Leads

theorem refl (h : Steady A p hash ring good r s) (hQ : Q s.site) : Leads A p hash ring good r r.cluster Q :=
  ⟨r, s, .refl, rfl, h, hQ⟩

theorem andThen (h : Leads A p hash ring good r c P)
    (hnext : ∀ r s, r.cluster = c → Steady A p hash ring good r s → P s.site → Leads A p hash ring good r d Q) :
    Leads A p hash ring good r d Q := by
  obtain ⟨r', s, hreach, hcluster, hsteady, hP⟩ := h
  obtain ⟨last, t, hreach', hlast, ht, hQ⟩ := hnext r' s hcluster hsteady hP
  exact ⟨last, t, hreach.trans hreach', hlast, ht, hQ⟩

theorem mono (h : Leads A p hash ring good r c P) (hPQ : ∀ t, P t → Q t) : Leads A p hash ring good r c Q := by
  obtain ⟨last, t, hreach, hlast, ht, hP⟩ := h
  exact ⟨last, t, hreach, hlast, ht, hPQ _ hP⟩

end Leads

namespace Steady

theorem nodes (h : Steady A p hash ring good r s) : r.cluster.nodes = [s.site.node p] := h.alone.upheld.stationed.nodes

theorem owner (h : Steady A p hash ring good r s) : (s.site.shared.router.current hash).GivesAllTo hash s.site.name := by
  rw [h.alone.sound.ring]
  exact h.alone.owner

variable [Cumulative k.Carrier]
  (hchain : ∀ r s, Alone A p hash ring good r s → ∀ id, A.Chain id (s.totals id))

include hchain

theorem act (h : Steady A p hash ring good r s) {m : ClusterMove k} (hnode : m.node = 0) (hm : r.Timely p good m)
    (hclock : (r.step p m).cluster.clock = r.cluster.clock)
    (hpast : (s.act p hash m).log.clock.nanos ≤ r.cluster.clock.nanos) :
    Steady A p hash ring good (r.step p m) (s.act p hash m) := by
  obtain ⟨t, ht, _, hact⟩ := h.alone.step (hchain _ _ h.alone) hm
  rw [hact hnode] at ht
  exact ⟨ht, hclock ▸ h.era, hclock ▸ hpast⟩

theorem move (h : Steady A p hash ring good r s) {m : ClusterMove k} (hnode : m.node = 0) (hm : r.Timely p good m)
    (hclock : (r.step p m).cluster.clock = r.cluster.clock)
    (hpast : (s.act p hash m).log.clock.nanos ≤ r.cluster.clock.nanos) (hQ : Q (s.act p hash m).site) :
    Leads A p hash ring good r (r.step p m).cluster Q :=
  ⟨_, _, .step m .refl hm, rfl, h.act hchain hnode hm hclock hpast, hQ⟩

theorem begin (h : Steady A p hash ring good r s) (j : Nat) :
    Leads A p hash ring good r (r.cluster.begin ⟨0, 0, j⟩) fun t =>
      Site.Works j s.site t ∧ (s.site.CanBegin p j → t.load < s.site.load) := by
  have hworks := Site.works_begun
    (Cluster.conditions ⟨[], hash, r.cluster.attached, r.cluster.stalled, r.cluster.clock⟩) p h.owner j
  have hclock : r.cluster.clock.InEra ∧ (r.logs 0).clock.nanos ≤ r.cluster.clock.nanos :=
    ⟨h.era, h.alone.logs ▸ h.past⟩
  refine h.move hchain (m := .begin 0 j r.cluster.clock r.cluster.attached r.cluster.stalled) rfl ⟨hclock, trivial⟩
    rfl ?_ hworks
  simp only [Station.act]
  cases (s.site.pipeline p).workers[j]? with
  | none => exact Int.le_refl _
  | some w =>
    have hnoted := Log.clock_noteBatch r.cluster.clock w { s.log with clock := r.cluster.clock }
    exact Int.le_of_eq (congrArg Instant.nanos hnoted)

theorem handOn (h : Steady A p hash ring good r s) (j : Nat) :
    Leads A p hash ring good r (r.cluster.handOn ⟨0, 0, j⟩) fun t =>
      Site.Works j s.site t ∧ t.hand j = s.site.hand j - 1 :=
  h.move hchain (m := .handOn 0 j) rfl ⟨trivial, trivial⟩ rfl h.past (Site.works_handedOn p s.site j)

omit [Cumulative k.Carrier] hchain in
theorem workerSatisfies (h : Steady A p hash ring good r s) (f : {α : Type} → Worker α → Bool) (j : Nat) :
    r.cluster.workerSatisfies f ⟨0, 0, j⟩ = ((s.site.pipeline p).workers[j]?).any f := by
  simp only [Cluster.workerSatisfies, h.nodes, Site.node, List.getElem?_cons_zero]
  cases (s.site.pipeline p).workers[j]? <;> rfl

omit [Cumulative k.Carrier] hchain in
theorem countAt (h : Steady A p hash ring good r s) (f : {α : Type} → Worker α → Nat) (j : Nat) :
    r.cluster.countAt f ⟨0, 0, j⟩ = (((s.site.pipeline p).workers[j]?).map f).getD 0 := by
  simp only [Cluster.countAt, h.nodes]
  rfl

omit [Cumulative k.Carrier] hchain in
theorem countAt_mail (h : Steady A p hash ring good r s) (j : Nat) :
    r.cluster.countAt (fun w => w.mail.length) ⟨0, 0, j⟩ = 0 := by
  rw [h.countAt]
  match j with
  | 0 | 2 | _ + 3 => rfl
  | 1 =>
    show (s.site.mail.map _).length = 0
    rw [h.alone.still.mail]
    rfl

omit [Cumulative k.Carrier] hchain in
theorem countAt_ready (h : Steady A p hash ring good r s) (j : Nat) :
    r.cluster.countAt (fun w => w.ready.length) ⟨0, 0, j⟩ = s.site.hand j := by
  rw [h.countAt]
  match j with
  | 0 | 1 | 2 | _ + 3 => rfl

end Steady
end

/-! ### Turns -/

/-- The workers from one on have worked, and have nothing in hand. -/
structure Site.Worked {k : RecordKind} (j : Nat) (s t : Site k) : Prop where
  before : ∀ i < j, t.hand i = s.hand i
  idle : ∀ i, j ≤ i → t.hand i = 0
  load : t.load ≤ s.load

namespace Steady
variable {k : RecordKind} {V : Type} [AddCommMonoid V] {A : Account k.Carrier V} {p : PipelineId} {hash : PointHash}
  {ring : HashRing} {good : k.Carrier → Prop} {r : ClusterRun k} {s : Station k} [Cumulative k.Carrier]
  (hchain : ∀ r s, Alone A p hash ring good r s → ∀ id, A.Chain id (s.totals id))

include hchain

/-- A worker hands everything on, if need be after the next one has made room. -/
theorem handOns {turn : Cluster → Place → Cluster} {j n : Nat}
    (hturn : ∀ r s, Steady A p hash ring good r s → (∀ i, j + 1 ≤ i → s.site.hand i = 0) →
      Leads A p hash ring good r (turn r.cluster ⟨0, 0, j + 1⟩) (Site.Worked (j + 1) s.site))
    (h : Steady A p hash ring good r s) (hn : s.site.hand j = n) (hidle : ∀ i, j + 1 ≤ i → s.site.hand i = 0) :
    Leads A p hash ring good r ((fun c => c.handOnWaiting turn ⟨0, 0, j⟩)^[n] r.cluster) (Site.Worked j s.site) := by
  induction n generalizing r s with
  | zero =>
    refine .refl h ⟨fun _ _ => rfl, fun i hi => ?_, Nat.le_refl _⟩
    rcases Nat.eq_or_lt_of_le hi with rfl | hlt
    · exact hn
    · exact hidle i hlt
  | succ n ih =>
    have hroom : Leads A p hash ring good r (r.cluster.makeRoom turn ⟨0, 0, j + 1⟩) (Site.Worked (j + 1) s.site) := by
      unfold Cluster.makeRoom
      split
      · exact hturn r s h hidle
      · exact .refl h ⟨fun _ _ => rfl, hidle, Nat.le_refl _⟩
    rw [Function.iterate_succ_apply]
    refine (hroom.andThen fun r₁ s₁ hr₁ h₁ hworked => ?_)
    have hone : r.cluster.handOnWaiting turn ⟨0, 0, j⟩ = r₁.cluster.handOn ⟨0, 0, j⟩ := by
      rw [hr₁]
      rfl
    rw [hone]
    refine (h₁.handOn hchain j).andThen fun r₂ s₂ hr₂ h₂ ⟨hworks, hhand⟩ => ?_
    have hless : s₂.site.hand j = n := by
      rw [hhand, hworked.before j (Nat.lt_succ_self j), hn]
      rfl
    have hidle₂ : ∀ i, j + 1 ≤ i → s₂.site.hand i = 0 := fun i hi => by
      rw [hworks.others i (by omega)]
      exact hworked.idle i hi
    rw [← hr₂]
    refine (ih h₂ hless hidle₂).mono fun t ht => ⟨fun i hi => ?_, ht.idle, ?_⟩
    · rw [ht.before i hi, hworks.others i (by omega), hworked.before i (by omega)]
    · exact Nat.le_trans ht.load (Nat.le_trans hworks.load hworked.load)

theorem turn (depth : Nat) {j : Nat} (h : Steady A p hash ring good r s) (hidle : ∀ i, j ≤ i → s.site.hand i = 0) :
    Leads A p hash ring good r (r.cluster.turn depth ⟨0, 0, j⟩) fun t =>
      Site.Worked j s.site t ∧ (0 < depth → s.site.CanBegin p j → t.load < s.site.load) := by
  induction depth generalizing r s j with
  | zero => exact .refl h ⟨⟨fun _ _ => rfl, hidle, Nat.le_refl _⟩, fun hpos => absurd hpos (Nat.lt_irrefl 0)⟩
  | succ depth ih =>
    refine (h.begin hchain j).andThen fun r₁ s₁ hr₁ h₁ ⟨hworks, hless⟩ => ?_
    have hturn : r.cluster.turn (depth + 1) ⟨0, 0, j⟩ =
        (fun c => c.handOnWaiting (Cluster.turn depth) ⟨0, 0, j⟩)^[s₁.site.hand j] r₁.cluster := by
      have hmail := h₁.countAt_mail j
      have hready := h₁.countAt_ready j
      simp only [Cluster.turn]
      rw [← hr₁, hmail, List.range_zero, List.foldl_nil, hready, List.foldl_const, List.length_range]
    rw [hturn]
    have hidle₁ : ∀ i, j + 1 ≤ i → s₁.site.hand i = 0 := fun i hi => by
      rw [hworks.others i (by omega)]
      exact hidle i (by omega)
    refine (handOns hchain (fun r s h hidle => (ih h hidle).mono fun t ht => ht.1) h₁ rfl hidle₁).mono fun t ht => ?_
    refine ⟨⟨fun i hi => ?_, ht.idle, Nat.le_trans ht.load hworks.load⟩, fun _ hcan => ?_⟩
    · rw [ht.before i hi, hworks.others i (by omega)]
    · exact Nat.lt_of_le_of_lt ht.load (hless hcan)

omit [Cumulative k.Carrier] hchain in
theorem canBegin_iff (h : Steady A p hash ring good r s) (j : Nat) :
    r.cluster.workerSatisfies Worker.canBegin ⟨0, 0, j⟩ = true ↔ s.site.CanBegin p j := by
  rw [h.workerSatisfies, Option.any_eq_true]
  rfl

omit [Cumulative k.Carrier] hchain in
/-- When no worker can take a batch nothing is left to be done. -/
theorem load_eq_zero (h : Steady A p hash ring good r s) (hidle : ∀ i, s.site.hand i = 0)
    (hdone : ∀ j, ¬ s.site.CanBegin p j) : s.site.load = 0 := by
  have hanswered : s.site.answered = [] := List.length_eq_zero_iff.1 (hidle 0)
  have hkept : s.site.kept = [] := List.length_eq_zero_iff.1 (hidle 1)
  have hentry : s.site.entry.items = [] := by
    by_contra hne
    refine hdone 0 ⟨s.site.entryWorker, rfl, ?_⟩
    simp [Worker.canBegin, Worker.isIdle, Site.entryWorker, StageQueue.isEmpty, hanswered, hne]
  have hrouting : s.site.routing.items = [] := by
    by_contra hne
    refine hdone 1 ⟨s.site.routingWorker p, rfl, ?_⟩
    simp [Worker.canBegin, Worker.isIdle, Site.routingWorker, StageQueue.isEmpty, hkept, hne, h.alone.still.mail,
      h.alone.still.unstuck]
  have harrivals : s.site.arrivals.items = [] := by
    by_contra hne
    refine hdone 2 ⟨s.site.storingWorker, rfl, ?_⟩
    simp [Worker.canBegin, Worker.isIdle, Site.storingWorker, StageQueue.isEmpty, hne]
  simp [Site.load, hanswered, hkept, hentry, hrouting, harrivals]

theorem settleWithin {fuel : Nat} (h : Steady A p hash ring good r s) (hidle : ∀ i, s.site.hand i = 0)
    (hload : s.site.load ≤ fuel) :
    Leads A p hash ring good r (r.cluster.settleWithin fuel) fun t => (∀ i, t.hand i = 0) ∧ t.load = 0 := by
  induction fuel generalizing r s with
  | zero => exact .refl h ⟨hidle, Nat.le_zero.1 hload⟩
  | succ fuel ih =>
    have hplaces : r.cluster.places = [⟨0, 0, 0⟩, ⟨0, 0, 1⟩, ⟨0, 0, 2⟩] := by
      rw [Cluster.places, h.nodes]
      rfl
    unfold Cluster.settleWithin
    cases hfind : r.cluster.places.find? (r.cluster.workerSatisfies Worker.canBegin) with
    | none =>
      refine .refl h ⟨hidle, h.load_eq_zero hidle fun j hcan => ?_⟩
      rw [hplaces] at hfind
      have hnone := List.find?_eq_none.1 hfind
      match j with
      | 0 => exact hnone ⟨0, 0, 0⟩ (by simp) ((h.canBegin_iff 0).2 hcan)
      | 1 => exact hnone ⟨0, 0, 1⟩ (by simp) ((h.canBegin_iff 1).2 hcan)
      | 2 => exact hnone ⟨0, 0, 2⟩ (by simp) ((h.canBegin_iff 2).2 hcan)
      | _ + 3 =>
        obtain ⟨_, hw, _⟩ := hcan
        cases hw
    | some q =>
      have hmem := List.mem_of_find?_eq_some hfind
      rw [hplaces] at hmem
      obtain ⟨j, rfl⟩ : ∃ j, q = ⟨0, 0, j⟩ := by
        simp only [List.mem_cons, List.not_mem_nil, or_false] at hmem
        rcases hmem with rfl | rfl | rfl <;> exact ⟨_, rfl⟩
      have hcan := (h.canBegin_iff j).1 (List.find?_some hfind)
      refine (h.turn hchain (j := j) Cluster.maxDepth fun i _ => hidle i).andThen fun r₁ s₁ hr₁ h₁ ⟨hworked, hless⟩ => ?_
      have hless := hless (by decide) hcan
      show Leads A p hash ring good r₁ ((r.cluster.turn Cluster.maxDepth ⟨0, 0, j⟩).settleWithin fuel) _
      rw [← hr₁]
      refine ih h₁ (fun i => ?_) (by omega)
      by_cases hij : j ≤ i
      · exact hworked.idle i hij
      · rw [hworked.before i (by omega)]
        exact hidle i

/-- There are turns enough for all workers to finish. -/
theorem settle (h : Steady A p hash ring good r s) (hidle : ∀ i, s.site.hand i = 0) :
    Leads A p hash ring good r r.cluster.settle fun t => (∀ i, t.hand i = 0) ∧ t.load = 0 := by
  refine h.settleWithin hchain hidle ?_
  have hanswered : s.site.answered.length = 0 := hidle 0
  have hkept : s.site.kept.length = 0 := hidle 1
  have hsum : r.cluster.sumWorkers (fun w => w.queue.length) =
      s.site.entry.items.length + (s.site.routing.items.length + s.site.arrivals.items.length) := by
    rw [Cluster.sumWorkers, h.nodes]
    rfl
  rw [hsum, Site.load]
  omega

omit [Cumulative k.Carrier] hchain in
theorem drained (h : Steady A p hash ring good r s) (hidle : ∀ i, s.site.hand i = 0) (hload : s.site.load = 0)
    (kind : StageKind) : r.Drained p kind := by
  have hanswered : s.site.answered = [] := List.length_eq_zero_iff.1 (hidle 0)
  have hkept : s.site.kept = [] := List.length_eq_zero_iff.1 (hidle 1)
  rw [Site.load] at hload
  have hentry : s.site.entry.items = [] := List.length_eq_zero_iff.1 (by omega)
  have hrouting : s.site.routing.items = [] := List.length_eq_zero_iff.1 (by omega)
  have harrivals : s.site.arrivals.items = [] := List.length_eq_zero_iff.1 (by omega)
  simp [ClusterRun.Drained, h.nodes, Site.pipeline?_node, Site.pipeline, Worker.isIdle, StageQueue.isEmpty,
    Site.entryWorker, Site.routingWorker, Site.storingWorker, hanswered, hkept, hentry, hrouting, harrivals,
    h.alone.still.mail]

omit [Cumulative k.Carrier] hchain in
/-- No worker is given up. -/
theorem abandonStuck (h : Steady A p hash ring good r s) (kind : StageKind) :
    r.cluster.modifyNode 0 (Node.abandonStuck kind) = r.cluster := by
  have hnode : (s.site.node p).abandonStuck kind = s.site.node p := by
    simp [Node.abandonStuck, Node.mapPipelines, Site.node, Pipeline.abandonStuck, Site.pipeline, Site.entryWorker,
      Site.routingWorker, Site.storingWorker, h.alone.still.unstuck]
  have hnodes : r.cluster.nodes.modify 0 (Node.abandonStuck kind) = r.cluster.nodes := by
    rw [h.nodes]
    exact congrArg (· :: []) hnode
  rw [Cluster.modifyNode, hnodes]

/-- A stage is closed, and all workers finish. -/
theorem closeStages (h : Steady A p hash ring good r s) (hidle : ∀ i, s.site.hand i = 0) (kind : StageKind) :
    ∃ last t, ClusterRun.Reaches p (ClusterRun.Timely p good) (r.step p (.close 0 kind)) last ∧
      last.Drained p kind ∧ last.cluster = r.cluster.closeStages 0 kind ∧ Steady A p hash ring good last t ∧
      ∀ i, t.site.hand i = 0 := by
  have hclosed := h.act hchain (m := .close 0 kind) rfl ⟨trivial, trivial⟩ rfl h.past
  have hhand : ∀ i, (s.act p hash (.close 0 kind)).site.hand i = 0 := fun i => by
    rw [← hidle i]
    cases kind <;> match i with
      | 0 | 1 | _ + 2 => rfl
  obtain ⟨last, t, hreach, hcluster, ht, hdone, hload⟩ := hclosed.settle hchain hhand
  refine ⟨last, t, hreach, ht.drained hdone hload kind, ?_, ht, hdone⟩
  rw [← ht.abandonStuck kind, hcluster]
  rfl

/-- The stages are closed in order. -/
theorem closes (h : Steady A p hash ring good r s) (hidle : ∀ i, s.site.hand i = 0) (kinds : List StageKind) :
    ∃ last t, ClusterRun.Closes p (ClusterRun.Timely p good) kinds r last ∧
      last.cluster = kinds.foldl (Cluster.closeStages 0) r.cluster ∧ Steady A p hash ring good last t := by
  induction kinds generalizing r s with
  | nil => exact ⟨r, s, .nil r, rfl, h⟩
  | cons kind rest ih =>
    obtain ⟨r₁, s₁, hreach, hdrained, hcluster, h₁, hidle₁⟩ := h.closeStages hchain hidle kind
    obtain ⟨last, t, hcloses, hlast, ht⟩ := ih h₁ hidle₁
    exact ⟨last, t, .cons hreach hdrained hcloses, by rw [hlast, hcluster]; rfl, ht⟩

end Steady

/-! ### Shutting a node down -/

/-- No worker of a node has anything in hand. -/
def ClusterRun.Idle {k : RecordKind} (p : PipelineId) (r : ClusterRun k) : Prop :=
  ∀ n q, r.cluster.nodes[0]? = some n → n.pipeline? k p = some q → ∀ w ∈ q.workers, w.isIdle = true

theorem ClusterRun.Idle.hand {k : RecordKind} {V : Type} [AddCommMonoid V] {A : Account k.Carrier V} {p : PipelineId}
    {hash : PointHash} {ring : HashRing} {good : k.Carrier → Prop} {r : ClusterRun k} {s : Station k} (h : r.Idle p)
    (hs : Alone A p hash ring good r s) (i : Nat) : s.site.hand i = 0 := by
  have hworkers := h _ _ hs.getElem? (Site.pipeline?_node k p s.site)
  match i with
  | 0 =>
    have hentry := hworkers s.site.entryWorker (by simp [Site.pipeline])
    simp only [Worker.isIdle, Site.entryWorker, Bool.and_eq_true, List.isEmpty_iff] at hentry
    exact List.length_eq_zero_iff.2 hentry.2
  | 1 =>
    have hrouting := hworkers (s.site.routingWorker p) (by simp [Site.pipeline])
    simp only [Worker.isIdle, Site.routingWorker, Bool.and_eq_true, List.isEmpty_iff] at hrouting
    exact List.length_eq_zero_iff.2 hrouting.2
  | _ + 2 => rfl

/-- The flush of a lone node is one of its ledger. -/
theorem Steady.flush {k : RecordKind} {V : Type} [AddCommMonoid V] {A : Account k.Carrier V} {p : PipelineId}
    {hash : PointHash} {ring : HashRing} {good : k.Carrier → Prop} {r : ClusterRun k} {s : Station k}
    (h : Steady A p hash ring good r s) {report : FlushReport} {c : Cluster}
    (hflush : r.cluster.flush 0 = some (report, c)) :
    (r.step p (.flush 0 (r.cluster.clock.add (.ofMillis 1)))).cluster = c := by
  have hcluster : (r.read 0 (r.cluster.clock.add (.ofMillis 1))).cluster =
      { r.cluster with clock := r.cluster.clock.add (.ofMillis 1) } := rfl
  have hat : Cluster.flushAt { r.cluster with clock := r.cluster.clock.add (.ofMillis 1) } 0 0 =
      (s.site.ledger.flushCounted s.site.store (r.cluster.clock.add (.ofMillis 1)) s.site.shared.counters).map fun f =>
        (f.report, [], { r.cluster with
          clock := r.cluster.clock.add (.ofMillis 1)
          nodes := r.cluster.nodes.set 0 ((s.site.flushed f).node p) }) := by
    simp only [Cluster.flushAt, h.nodes, List.getElem?_cons_zero, Site.flush_node]
    cases s.site.ledger.flushCounted s.site.store (r.cluster.clock.add (.ofMillis 1)) s.site.shared.counters <;> rfl
  simp only [ClusterRun.step, hcluster, hat]
  have hlength : ((r.cluster.nodes[0]?).map fun n => n.pipelines.length).getD 0 = 1 := by
    rw [h.nodes]
    rfl
  have hone : r.cluster.flush 0 =
      Cluster.flushStep 0 ({}, { r.cluster with clock := r.cluster.clock.add (.ofMillis 1) }) 0 >>= fun f => pure f := by
    simp only [Cluster.flush, hlength, List.range_one, List.foldlM_cons, List.foldlM_nil]
  rw [hone, Cluster.flushStep, hat] at hflush
  cases hf : s.site.ledger.flushCounted s.site.store (r.cluster.clock.add (.ofMillis 1)) s.site.shared.counters with
  | none =>
    rw [hf] at hflush
    cases hflush
  | some f =>
    rw [hf] at hflush
    cases hflush
    rfl

/-- When a lone node that is at rest is shut down, its stages are closed one after another, each
worker finishes, and its ledger is flushed. -/
theorem ClusterRun.closes_shutDown (k : RecordKind) (hk : Rollup.mode k.Carrier = .additive) (p : PipelineId)
    (o : PipelineOptions) (application : Int32 → Int32) (start r : ClusterRun k) (hlone : start.Lone p o)
    (hrun : Reaches p (Timely p fun a => k.IsCall a ∧ k.OfApplication application a) start r) (hidle : r.Idle p)
    (hera : r.cluster.clock.InEra) (hpast : (r.logs 0).clock.nanos ≤ r.cluster.clock.nanos) :
    ∃ last, Closes p (Timely p fun a => k.IsCall a ∧ k.OfApplication application a) StageKind.closingOrder r last ∧
      ∀ report c, r.cluster.shutDown 0 = some (report, c) →
        (last.step p (.flush 0 (last.cluster.clock.add (.ofMillis 1)))).cluster = c := by
  have key : ∀ [Counted k.Carrier] [Cumulative k.Carrier], (∀ a, k.IsCall a → Counted.IsCall a) →
      ∃ last, Closes p (Timely p fun a => k.IsCall a ∧ k.OfApplication application a) StageKind.closingOrder r last ∧
        ∀ report c, r.cluster.shutDown 0 = some (report, c) →
          (last.step p (.flush 0 (last.cluster.clock.add (.ofMillis 1)))).cluster = c := by
    intro _ _ hcall
    obtain ⟨ring, s₀, h₀, _⟩ := hlone.alone (Counted.account k.Carrier)
      fun a => k.IsCall a ∧ k.OfApplication application a
    have hchain : ∀ r s, Alone (Counted.account k.Carrier) p start.cluster.hash ring
        (fun a => k.IsCall a ∧ k.OfApplication application a) r s →
          ∀ id, (Counted.account k.Carrier).Chain id (s.totals id) :=
      fun _ _ hs => hs.upheld.totals_chain (fun a ha => hcall a ha.1) 0 Nat.one_pos
    obtain ⟨s, hs, _⟩ := h₀.reaches (fun _ _ _ => trivial) (fun r s (_ : (fun _ => True) r) hs => hchain r s hs)
      hrun trivial
    have hsteady : Steady _ p _ ring _ r s := ⟨hs, hera, hs.logs ▸ hpast⟩
    obtain ⟨last, t, hcloses, hlast, ht⟩ := hsteady.closes hchain (hidle.hand hs) StageKind.closingOrder
    refine ⟨last, hcloses, fun report c hshut => ?_⟩
    have hflush : last.cluster.flush 0 = some (report, c) := hlast ▸ hshut
    exact ht.flush hflush
  cases k with
  | heartbeat => cases hk
  | alarm => cases hk
  | callSummary => exact key fun _ ha => ha
  | serviceStats => exact key fun _ ha => ha

end TraceRollup
