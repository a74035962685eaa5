import TraceRollup.Proofs.Moves
import TraceRollup.Proofs.SoundNodes

/-!
# Turns, flushes and shutdowns over records without negative counters

What is run in a cluster is made of steps of its nodes, so it keeps their records without negative
counters (`Cluster.Sound`). A round of flushes and a shutdown end unless twice the window is no
duration (`Cluster.Sound.flush_spec`, `Cluster.Sound.shutDown_spec`).
-/

namespace TraceRollup.Cluster

structure Sound (o : PipelineOptions) (count size : Nat) (c : Cluster) : Prop where
  length : c.nodes.length = size
  nodes : ∀ n ∈ c.nodes, n.Sound o count

variable {o : PipelineOptions} {count size : Nat} {c : Cluster}

/-! ### Steps -/

theorem Sound.set (h : c.Sound o count size) (k : Nat) {n : Node} (hn : n.Sound o count) :
    ({ c with nodes := c.nodes.set k n } : Cluster).Sound o count size := by
  refine ⟨(List.length_set ..).trans h.length, fun m hm => ?_⟩
  rcases List.mem_or_eq_of_mem_set hm with hm | rfl
  · exact h.nodes m hm
  · exact hn

theorem Sound.modifyNode (h : c.Sound o count size) (k : Nat) {f : Node → Node}
    (hf : ∀ n : Node, n.Sound o count → (f n).Sound o count) : (c.modifyNode k f).Sound o count size := by
  unfold Cluster.modifyNode
  rw [List.modify_eq_set_getElem?]
  cases hn : c.nodes[k]? with
  | none => exact h
  | some n => exact h.set k (hf n (h.nodes n (List.mem_of_getElem? hn)))

theorem Sound.submitNow (h : c.Sound o count size) (k : Nat) (kind : RecordKind) (id : PipelineId)
    {record : kind.Carrier} (hr : kind.Unsigned record) : (c.submitNow k kind id record).2.Sound o count size := by
  unfold Cluster.submitNow
  split
  · exact h
  · rename_i n hn
    exact h.set k ((h.nodes n (List.mem_of_getElem? hn)).step (.submit n kind id hr))

theorem Sound.deliverNow (h : c.Sound o count size) (k : Nat) {m : WireMessage} (hm : m.Unsigned) :
    (c.deliverNow k m).2.Sound o count size := by
  unfold Cluster.deliverNow
  split
  · exact h
  · rename_i n hn
    exact h.set k ((h.nodes n (List.mem_of_getElem? hn)).step (.deliver n hm))

theorem Sound.begin (h : c.Sound o count size) (p : Place) : (c.begin p).Sound o count size :=
  h.modifyNode p.node fun n hn => hn.step (.begin n c.conditions p.pipeline p.stage)

theorem Sound.handOn (h : c.Sound o count size) (p : Place) : (c.handOn p).Sound o count size :=
  h.modifyNode p.node fun n hn => hn.step (.handOn n p.pipeline p.stage)

theorem Sound.sendMail (h : c.Sound o count size) (p : Place) : (c.sendMail p).Sound o count size := by
  unfold Cluster.sendMail
  split
  · exact h
  · rename_i n hn
    obtain ⟨hmail, hafter⟩ := (h.nodes n (List.mem_of_getElem? hn)).takeMail p.pipeline p.stage
    have hset := h.set p.node hafter
    dsimp only
    split
    · exact hset
    · rename_i name m hm
      split
      · exact hset
      · exact hset.deliverNow _ (hmail _ hm)

theorem Sound.nextMail (h : c.Sound o count size) {p : Place} {m : String × WireMessage} (hm : c.nextMail? p = some m) :
    m.2.Unsigned := by
  obtain ⟨n, hn, hmail⟩ := Option.bind_eq_some_iff.1 hm
  exact ((h.nodes n (List.mem_of_getElem? hn)).takeMail p.pipeline p.stage).1 m hmail

theorem Sound.flushAt (h : c.Sound o count size) {k i : Nat} {r : FlushReport × List (PipelineId × Alarm) × Cluster}
    (hr : c.flushAt k i = some r) : r.2.2.Sound o count size := by
  unfold Cluster.flushAt at hr
  split at hr
  · cases hr
    exact h
  · rename_i n hn
    obtain ⟨f, hf, heq⟩ := Option.bind_eq_some_iff.1 hr
    cases heq
    exact h.set k ((h.nodes n (List.mem_of_getElem? hn)).flushAt hf)

theorem Sound.flushAt_eq_none_iff (h : c.Sound o count size) (k i : Nat) :
    c.flushAt k i = none ↔ k < size ∧ i < count ∧ o.window.double? = none := by
  unfold Cluster.flushAt
  cases hn : c.nodes[k]? with
  | none =>
    have hle := h.length ▸ List.getElem?_eq_none_iff.1 hn
    exact ⟨fun hnone => (by cases hnone), fun hlt => absurd hlt.1 (Nat.not_lt.2 hle)⟩
  | some n =>
    have hlt : k < size := h.length ▸ (List.getElem?_eq_some_iff.1 hn).1
    have hends := (h.nodes n (List.mem_of_getElem? hn)).flushAt_eq_none_iff c.clock i
    simp only [hlt, true_and, ← hends]
    cases n.flushAt c.clock i with
    | none => exact ⟨fun _ => rfl, fun _ => rfl⟩
    | some f => exact ⟨fun hnone => (by cases hnone), fun hnone => (by cases hnone)⟩

/-! ### Turns -/

theorem Sound.foldl {β : Type} {f : Cluster → β → Cluster} {xs : List β} (h : c.Sound o count size)
    (hf : ∀ c : Cluster, c.Sound o count size → ∀ x ∈ xs, (f c x).Sound o count size) :
    (xs.foldl f c).Sound o count size := List.foldlRecOn xs f h hf

theorem lasting_sound : Lasting (Sound o count size) where
  begin _ h := h.begin
  sendMail _ h := h.sendMail
  handOn _ h := h.handOn

/-! ### Senders from outside -/

theorem Sound.submit (h : c.Sound o count size) (k : Nat) (kind : RecordKind) (id : PipelineId)
    {record : kind.Carrier} (hr : kind.Unsigned record) : (c.submit k kind id record).2.Sound o count size := by
  unfold Cluster.submit
  dsimp only
  split
  · exact (lasting_sound.makeRoom h _).submitNow k kind id hr
  · exact h.submitNow k kind id hr

theorem Sound.submitAll (h : c.Sound o count size) (k : Nat) (kind : RecordKind) (id : PipelineId)
    {records : List kind.Carrier} (hr : ∀ r ∈ records, kind.Unsigned r) :
    (submitAll k kind id c records).2.Sound o count size := by
  induction records generalizing c with
  | nil => exact h
  | cons r rest ih =>
    exact ih (h.submit k kind id (hr r (List.mem_cons_self ..))) fun x hx => hr x (List.mem_cons_of_mem _ hx)

/-! ### Flushing and closing -/

theorem Sound.flushStep (h : c.Sound o count size) (k i : Nat) (report : FlushReport) :
    (∀ r, Cluster.flushStep k (report, c) i = some r → r.2.Sound o count size) ∧
      (Cluster.flushStep k (report, c) i = none ↔ k < size ∧ i < count ∧ o.window.double? = none) := by
  have hends := h.flushAt_eq_none_iff k i
  unfold Cluster.flushStep
  cases hf : c.flushAt k i with
  | none => exact ⟨fun _ hr => (by cases hr), fun _ => hends.1 hf, fun _ => rfl⟩
  | some f =>
    have hafter := h.flushAt hf
    refine ⟨fun r hr => ?_, fun hnone => (by cases hnone), fun hnone => ?_⟩
    · cases hr
      exact hafter.foldl fun c hc a _ => hc.submit k .alarm a.1 (RecordKind.unsigned_alarm a.2)
    · rw [hf] at hends
      exact absurd (hends.2 hnone) (Option.some_ne_none f)

theorem Sound.foldlM_flushStep (h : c.Sound o count size) (k : Nat) (is : List Nat) (report : FlushReport) :
    (∀ r, is.foldlM (Cluster.flushStep k) (report, c) = some r → r.2.Sound o count size) ∧
      (is.foldlM (Cluster.flushStep k) (report, c) = none ↔
        k < size ∧ (∃ i ∈ is, i < count) ∧ o.window.double? = none) := by
  induction is generalizing c report with
  | nil =>
    refine ⟨fun r hr => ?_, fun hnone => (by cases hnone), fun ⟨_, ⟨i, hi, _⟩, _⟩ => absurd hi List.not_mem_nil⟩
    cases hr
    exact h
  | cons i rest ih =>
    obtain ⟨hafter, hends⟩ := h.flushStep k i report
    rw [List.foldlM_cons]
    cases hstep : Cluster.flushStep k (report, c) i with
    | none =>
      obtain ⟨hk, hi, hdouble⟩ := hends.1 hstep
      exact ⟨fun r hr => (by cases hr), fun _ => ⟨hk, ⟨i, List.mem_cons_self .., hi⟩, hdouble⟩, fun _ => rfl⟩
    | some r =>
      obtain ⟨hlast, hrest⟩ := ih (hafter r hstep) r.1
      have hgoes : ¬ (k < size ∧ i < count ∧ o.window.double? = none) := by
        rw [← hends, hstep]
        exact Option.some_ne_none r
      refine ⟨hlast, hrest.trans ⟨?_, ?_⟩⟩
      · rintro ⟨hk, ⟨j, hj, hlt⟩, hdouble⟩
        exact ⟨hk, ⟨j, List.mem_cons_of_mem _ hj, hlt⟩, hdouble⟩
      · rintro ⟨hk, ⟨j, hj, hlt⟩, hdouble⟩
        rcases List.mem_cons.1 hj with rfl | hj
        · exact absurd ⟨hk, hlt, hdouble⟩ hgoes
        · exact ⟨hk, ⟨j, hj, hlt⟩, hdouble⟩

theorem Sound.flush_spec (h : c.Sound o count size) {k : Nat} :
    (∀ r, c.flush k = some r → r.2.Sound o count size) ∧
      (c.flush k = none ↔ k < size ∧ 0 < count ∧ o.window.double? = none) := by
  have hclock : ({ c with clock := c.clock.add (.ofMillis 1) } : Cluster).Sound o count size := ⟨h.length, h.nodes⟩
  obtain ⟨hafter, hends⟩ := hclock.foldlM_flushStep k
    (List.range (((c.nodes[k]?).map fun n => n.pipelines.length).getD 0)) {}
  refine ⟨hafter, hends.trans (and_congr_right fun hk => and_congr_left' ?_)⟩
  have hn := List.getElem?_eq_getElem (h.length.symm ▸ hk)
  rw [hn, Option.map_some, Option.getD_some, (h.nodes _ (List.mem_of_getElem? hn)).length]
  exact ⟨fun ⟨i, _, hi⟩ => Nat.lt_of_le_of_lt (Nat.zero_le i) hi, fun hpos => ⟨0, List.mem_range.2 hpos, hpos⟩⟩

theorem Sound.closeStages (h : c.Sound o count size) (k : Nat) (kind : StageKind) :
    (closeStages k c kind).Sound o count size :=
  (lasting_sound.settle (h.modifyNode k fun n hn => hn.step (.cancel n kind))).modifyNode k
    fun n hn => hn.step (.abandonStuck n kind)

theorem Sound.shutDown_spec (h : c.Sound o count size) {k : Nat} :
    (∀ r, c.shutDown k = some r → r.2.Sound o count size) ∧
      (c.shutDown k = none ↔ k < size ∧ 0 < count ∧ o.window.double? = none) :=
  (h.foldl fun _ hc kind _ => hc.closeStages k kind).flush_spec

end TraceRollup.Cluster
