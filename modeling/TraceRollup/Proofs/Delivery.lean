import Mathlib.Data.List.Nodup
import TraceRollup.Node

/-!
# Delivery

The numbers of the stages tell the queues of all pipelines of a node apart (`Node.Numbered.nodup_queues`),
so a message that comes from another node goes to the end of one queue, or to none because of the first
check that it fails (`Node.deliver_exact`).
-/

namespace TraceRollup

/-! ### Pipelines built one after another -/

/-- What a pipeline is built from. -/
structure Blueprint where
  kind : RecordKind
  id : PipelineId
  layout : Layout
  feed : Option AlarmFeed := none

/-- What is fixed when a pipeline is built. -/
def AnyPipeline.scheme (a : AnyPipeline) : RecordKind × PipelineId × List StageId :=
  (a.kind, a.id, a.pipeline.workers.map Worker.stage)

namespace Node

def buildAll (n : Node) (bs : List Blueprint) : Node := bs.foldl (fun n b => (n.build b.kind b.id b.layout b.feed).2) n

def scheme (n : Node) : List (RecordKind × PipelineId × List StageId) := n.pipelines.map AnyPipeline.scheme

/-- Every pipeline has a number of its own, from which its stages have theirs. -/
structure Numbered (n : Node) : Prop where
  ids : (n.scheme.map fun x => x.2.1).Nodup
  stages : ∀ x ∈ n.scheme, ∃ kinds : Layout, kinds.Nodup ∧ x.2.2 = kinds.map (StageId.of x.2.1)

end Node

theorem StageId.nodup_map_of (p : PipelineId) {kinds : Layout} (h : kinds.Nodup) : (kinds.map (StageId.of p)).Nodup :=
  h.map fun _ _ heq => (StageId.of_inj.1 heq).2

theorem checkStages_cons {p : PipelineId} {seen : List StageKind} {k : StageKind} {rest : Layout}
    (h : checkStages p seen (k :: rest) = .ok ()) :
    k ∉ seen ∧ .persist ∉ seen ∧ ¬ (k = .dispatch ∧ rest = []) ∧ checkStages p (seen ++ [k]) rest = .ok () := by
  unfold checkStages at h
  dsimp only at h
  split at h
  · cases h
  · rename_i hnew
    split at h
    · cases h
    · rename_i hpersist
      split at h
      · cases h
      · rename_i hdispatch
        exact ⟨hnew, hpersist, hdispatch, h⟩

theorem nodup_of_checkStages {p : PipelineId} {seen kinds : Layout} (h : checkStages p seen kinds = .ok ()) :
    kinds.Nodup ∧ ∀ k ∈ kinds, k ∉ seen := by
  induction kinds generalizing seen with
  | nil => exact ⟨List.nodup_nil, fun _ hk => absurd hk List.not_mem_nil⟩
  | cons k rest ih =>
    obtain ⟨hnew, -, -, hstages⟩ := checkStages_cons h
    obtain ⟨hrest, hseen⟩ := ih hstages
    refine ⟨List.nodup_cons.2 ⟨fun hk => hseen k hk (by simp), hrest⟩, fun j hj => ?_⟩
    rcases List.mem_cons.1 hj with rfl | hj
    · exact hnew
    · exact fun hin => hseen j hj (List.mem_append_left _ hin)

theorem nodup_of_checkLayout {p : PipelineId} {kinds : Layout} (h : checkLayout p kinds = .ok ()) : kinds.Nodup := by
  unfold checkLayout at h
  split at h
  · cases h
  · exact (nodup_of_checkStages h).1

namespace Node
variable {n start : Node}

theorem Numbered.build (h : n.Numbered) (kind : RecordKind) (id : PipelineId) (kinds : Layout) (feed : Option AlarmFeed) :
    (n.build kind id kinds feed).2.Numbered := by
  unfold Node.build
  split
  · exact h
  · rename_i hlayout
    split
    · exact h
    · rename_i hfree
      have hnew : id ∉ n.pipelines.map AnyPipeline.id := by
        intro hmem
        obtain ⟨a, ha, hid⟩ := List.mem_map.1 hmem
        refine hfree (List.findIdx?_isSome.trans (List.any_eq_true.2 ⟨a, ha, decide_eq_true hid⟩))
      have hscheme : ({ n with pipelines := n.pipelines ++ [⟨kind, Pipeline.create n.options n.name id kinds, feed⟩] } :
          Node).scheme = n.scheme ++ [(kind, id, kinds.map (StageId.of id))] := by
        simp only [scheme, List.map_append, List.map_singleton, AnyPipeline.scheme, AnyPipeline.id, Pipeline.create,
          Pipeline.stages_createWorkers]
      refine ⟨?_, fun x hx => ?_⟩
      · rw [hscheme, List.map_append, List.map_singleton, ← List.concat_eq_append, List.nodup_concat]
        refine ⟨?_, h.ids⟩
        rwa [scheme, List.map_map]
      · rw [hscheme] at hx
        rcases List.mem_append.1 hx with hx | hx
        · exact h.stages x hx
        · rw [List.mem_singleton.1 hx]
          exact ⟨kinds, nodup_of_checkLayout hlayout, rfl⟩

theorem numbered_buildAll (hstart : start.pipelines = []) (bs : List Blueprint) : (start.buildAll bs).Numbered := by
  refine List.foldlRecOn (motive := Numbered) bs _ ⟨?_, ?_⟩ fun n hn b _ => hn.build b.kind b.id b.layout b.feed
  · rw [scheme, hstart]
    exact List.nodup_nil
  · rw [scheme, hstart]
    exact fun _ hx => absurd hx List.not_mem_nil

theorem Numbered.of_scheme (h : start.Numbered) (hn : n.scheme = start.scheme) : n.Numbered :=
  ⟨hn ▸ h.ids, hn ▸ h.stages⟩

end Node

/-! ### Queues of all pipelines -/

structure AnyQueue where
  kind : RecordKind
  queue : StageQueue (Snapshot kind.Carrier)

namespace AnyQueue

def stage (q : AnyQueue) : StageId := q.queue.stage

/-- A queue but for its count of the items that found no room. -/
def held (q : AnyQueue) : AnyQueue := ⟨q.kind, { q.queue with dropped := 0 }⟩

end AnyQueue

def AnyPipeline.queues (a : AnyPipeline) : List AnyQueue := a.pipeline.workers.map fun w => ⟨a.kind, w.queue⟩

namespace Node
variable {n : Node}

def queues (n : Node) : List AnyQueue := n.pipelines.flatMap AnyPipeline.queues

theorem stages_queues (n : Node) : n.queues.map AnyQueue.stage = n.scheme.flatMap fun x => x.2.2 := by
  rw [queues, List.map_flatMap, scheme, List.flatMap_map]
  refine congrArg (n.pipelines.flatMap ·) (funext fun a => ?_)
  rw [AnyPipeline.queues, List.map_map]
  rfl

theorem Numbered.nodup_queues (h : n.Numbered) : (n.queues.map AnyQueue.stage).Nodup := by
  rw [stages_queues, List.nodup_flatMap]
  constructor
  · intro x hx
    obtain ⟨kinds, hkinds, hstages⟩ := h.stages x hx
    rw [hstages]
    exact StageId.nodup_map_of _ hkinds
  · refine (List.pairwise_map.1 h.ids).imp_of_mem fun {x y} hx hy hne s hsx hsy => hne ?_
    obtain ⟨_, -, hxstages⟩ := h.stages x hx
    obtain ⟨_, -, hystages⟩ := h.stages y hy
    simp only [hxstages] at hsx
    simp only [hystages] at hsy
    obtain ⟨j, -, rfl⟩ := List.mem_map.1 hsx
    obtain ⟨k, -, heq⟩ := List.mem_map.1 hsy
    exact (StageId.of_inj.1 heq).1.symm

end Node
/-! ### Taken or refused -/

structure WireMessage.For (m : WireMessage) (n : Node) (a : AnyPipeline) (w : Worker a.kind.Carrier) : Prop where
  registered : a ∈ n.pipelines
  pipeline : a.id = m.pipeline
  tag : m.tag = a.kind.tag
  worker : w ∈ a.pipeline.workers
  stage : w.stage = m.stage

/-- A message that is for a stage, holds a record of its kind and finds room. -/
structure Node.Takes (n : Node) (m : WireMessage) (a : AnyPipeline) (w : Worker a.kind.Carrier)
    (record : a.kind.Carrier) : Prop where
  addressed : m.For n a w
  payload : Rollup.decode? m.payload = some record
  isOpen : w.queue.refusesAll = false
  room : w.queue.length < w.queue.capacity

/-- The first of the checks, in order, that a message fails. -/
inductive Node.Refuses (n : Node) (m : WireMessage) : Refusal → Prop
  | unknownPipeline (hnone : ∀ a ∈ n.pipelines, a.id ≠ m.pipeline) : Refuses n m (.unknownPipeline m.pipeline)
  | wrongTag {a : AnyPipeline} (ha : a ∈ n.pipelines) (hid : a.id = m.pipeline) (htag : m.tag ≠ a.kind.tag) :
      Refuses n m (.wrongTag m.pipeline a.kind.tag m.tag)
  | unknownStage {a : AnyPipeline} (ha : a ∈ n.pipelines) (hid : a.id = m.pipeline) (htag : m.tag = a.kind.tag)
      (hnone : ∀ w ∈ a.pipeline.workers, w.stage ≠ m.stage) : Refuses n m (.unknownStage m.pipeline m.stage)
  | undecodable {a : AnyPipeline} {w : Worker a.kind.Carrier} (h : m.For n a w)
      (hpayload : (Rollup.decode? m.payload : Option a.kind.Carrier) = none) : Refuses n m (.undecodable a.kind.tag)
  | closed {a : AnyPipeline} {w : Worker a.kind.Carrier} {record : a.kind.Carrier} (h : m.For n a w)
      (hpayload : Rollup.decode? m.payload = some record) (hclosed : w.queue.refusesAll = true) : Refuses n m .closed
  | saturated {a : AnyPipeline} {w : Worker a.kind.Carrier} {record : a.kind.Carrier} (h : m.For n a w)
      (hpayload : Rollup.decode? m.payload = some record) (hopen : w.queue.refusesAll = false)
      (hfull : w.queue.capacity ≤ w.queue.length) : Refuses n m (.saturated m.stage)

theorem Node.takes_or_refuses (n : Node) (m : WireMessage) :
    (∃ a w record, n.Takes m a w record) ∨ ∃ e, n.Refuses m e := by
  by_cases hpipeline : ∃ a ∈ n.pipelines, a.id = m.pipeline
  · obtain ⟨a, ha, hid⟩ := hpipeline
    by_cases htag : m.tag = a.kind.tag
    · by_cases hstage : ∃ w ∈ a.pipeline.workers, w.stage = m.stage
      · obtain ⟨w, hw, hstage⟩ := hstage
        have hfor : m.For n a w := ⟨ha, hid, htag, hw, hstage⟩
        cases hpayload : (Rollup.decode? m.payload : Option a.kind.Carrier) with
        | none => exact Or.inr ⟨_, .undecodable hfor hpayload⟩
        | some record =>
          cases hopen : w.queue.refusesAll with
          | true => exact Or.inr ⟨_, .closed hfor hpayload hopen⟩
          | false =>
            by_cases hroom : w.queue.length < w.queue.capacity
            · exact Or.inl ⟨a, w, record, hfor, hpayload, hopen, hroom⟩
            · exact Or.inr ⟨_, .saturated hfor hpayload hopen (Nat.le_of_not_lt hroom)⟩
      · exact Or.inr ⟨_, .unknownStage ha hid htag fun w hw heq => hstage ⟨w, hw, heq⟩⟩
    · exact Or.inr ⟨_, .wrongTag ha hid htag⟩
  · exact Or.inr ⟨_, .unknownPipeline fun a ha heq => hpipeline ⟨a, ha, heq⟩⟩

/-! ### Delivering -/

/-- The first item under a key is the only one, if the keys are different. -/
theorem exists_split_findIdx? {β κ : Type} [DecidableEq κ] {key : β → κ} {l : List β} (h : (l.map key).Nodup) {b : β}
    (hb : b ∈ l) : ∃ front back, l = front ++ b :: back ∧
      l.findIdx? (fun c => decide (key c = key b)) = some front.length ∧ l[front.length]? = some b ∧
      ∀ c, l.set front.length c = front ++ c :: back := by
  obtain ⟨front, back, rfl⟩ := List.append_of_mem hb
  refine ⟨front, back, rfl, ?_, ?_, fun c => ?_⟩
  · rw [List.map_append, List.nodup_append] at h
    have hfront : front.findIdx? (fun c => decide (key c = key b)) = none := by
      refine List.findIdx?_eq_none_iff.2 fun c hc => decide_eq_false fun heq => ?_
      exact h.2.2 (key c) (List.mem_map_of_mem hc) (key b) (List.mem_cons_self ..) heq
    rw [List.findIdx?_append, hfront, List.findIdx?_cons, if_pos (decide_eq_true rfl)]
    simp
  · rw [List.getElem?_append_right (Nat.le_refl _), Nat.sub_self, List.getElem?_cons_zero]
  · rw [List.set_append_right _ _ (Nat.le_refl _), Nat.sub_self, List.set_cons_zero]

namespace Pipeline
variable {α : Type} [Rollup α] {p : Pipeline α} {m : WireMessage} {w : Worker α} {record : α}

theorem deliver_wrongTag (htag : m.tag ≠ Rollup.tag α) :
    p.deliver m = (.error (.wrongTag p.id (Rollup.tag α) m.tag), p) := by
  rw [deliver, if_pos htag]

theorem deliver_unknownStage (htag : m.tag = Rollup.tag α) (hnone : ∀ w ∈ p.workers, w.stage ≠ m.stage) :
    p.deliver m = (.error (.unknownStage p.id m.stage), p) := by
  have hposition : p.position? m.stage = none :=
    List.findIdx?_eq_none_iff.2 fun w hw => decide_eq_false (hnone w hw)
  rw [deliver, if_neg (not_not.2 htag), hposition]

theorem deliver_undecodable (htag : m.tag = Rollup.tag α) (hw : w ∈ p.workers) (hstage : w.stage = m.stage)
    (hpayload : (Rollup.decode? m.payload : Option α) = none) :
    p.deliver m = (.error (.undecodable (Rollup.tag α)), p) := by
  have hposition : (p.position? m.stage).isSome = true :=
    List.findIdx?_isSome.trans (List.any_eq_true.2 ⟨w, hw, decide_eq_true hstage⟩)
  obtain ⟨i, hi⟩ := Option.isSome_iff_exists.1 hposition
  have hsnapshot : (m.snapshot : Except Refusal (Snapshot α)) = .error (.undecodable (Rollup.tag α)) := by
    rw [WireMessage.snapshot, hpayload]
  rw [deliver, if_neg (not_not.2 htag), hi, hsnapshot]

theorem deliver_at (hstages : (p.workers.map Worker.stage).Nodup) (htag : m.tag = Rollup.tag α) (hw : w ∈ p.workers)
    (hstage : w.stage = m.stage) (hpayload : Rollup.decode? m.payload = some record) :
    ∃ front back, p.workers = front ++ w :: back ∧ p.deliver m = ((w.queue.send ⟨m.origin, record⟩).1,
      { p with workers := front ++ { w with queue := (w.queue.send ⟨m.origin, record⟩).2 } :: back }) := by
  obtain ⟨front, back, hsplit, hposition, hget, hset⟩ := exists_split_findIdx? hstages hw
  rw [hstage] at hposition
  have hsnapshot : m.snapshot = .ok ⟨m.origin, record⟩ := by
    rw [WireMessage.snapshot, hpayload]
  refine ⟨front, back, hsplit, ?_⟩
  rw [deliver, if_neg (not_not.2 htag), position?, hposition, hsnapshot]
  simp only [sendAt, hget, hset]

end Pipeline

namespace Node
variable {n : Node} {m : WireMessage} {a : AnyPipeline}

theorem deliver_unknownPipeline (hnone : ∀ a ∈ n.pipelines, a.id ≠ m.pipeline) :
    n.deliver m = (.error (.unknownPipeline m.pipeline), n) := by
  have hposition : n.position? m.pipeline = none :=
    List.findIdx?_eq_none_iff.2 fun a ha => decide_eq_false (hnone a ha)
  rw [deliver, hposition]

theorem deliver_registered (hids : (n.pipelines.map AnyPipeline.id).Nodup) (ha : a ∈ n.pipelines)
    (hid : a.id = m.pipeline) :
    ∃ front back, n.pipelines = front ++ a :: back ∧ (n.deliver m).1 = (a.pipeline.deliver m).1 ∧
      (n.deliver m).2.pipelines = front ++ { a with pipeline := (a.pipeline.deliver m).2 } :: back := by
  obtain ⟨front, back, hsplit, hposition, hget, hset⟩ := exists_split_findIdx? hids ha
  rw [hid] at hposition
  refine ⟨front, back, hsplit, ?_⟩
  rw [deliver, position?, hposition]
  simp only [hget, hset, true_and]

theorem Numbered.ids_pipelines (h : n.Numbered) : (n.pipelines.map AnyPipeline.id).Nodup := by
  have hids := h.ids
  rwa [scheme, List.map_map] at hids

theorem Numbered.stages_workers (h : n.Numbered) (ha : a ∈ n.pipelines) :
    (a.pipeline.workers.map Worker.stage).Nodup := by
  obtain ⟨kinds, hkinds, hstages⟩ := h.stages a.scheme (List.mem_map_of_mem ha)
  have hnodup : a.scheme.2.2.Nodup := hstages ▸ StageId.nodup_map_of _ hkinds
  exact hnodup

theorem Numbered.deliver_unmoved (h : n.Numbered) (ha : a ∈ n.pipelines) (hid : a.id = m.pipeline) {e : Refusal}
    (he : a.pipeline.deliver m = (.error e, a.pipeline)) :
    (n.deliver m).1 = .error e ∧ (n.deliver m).2.queues = n.queues := by
  obtain ⟨front, back, hsplit, hanswer, hafter⟩ := deliver_registered h.ids_pipelines ha hid
  rw [he] at hanswer hafter
  exact ⟨hanswer, by rw [queues, queues, hafter, hsplit]⟩

/-- A message with a record changes at most the queue that it is for, as sending the record there does. -/
theorem Numbered.deliver_for (h : n.Numbered) {w : Worker a.kind.Carrier} {record : a.kind.Carrier} (hfor : m.For n a w)
    (hpayload : Rollup.decode? m.payload = some record) :
    ∃ before after, n.queues = before ++ ⟨a.kind, w.queue⟩ :: after ∧
      (n.deliver m).1 = (w.queue.send ⟨m.origin, record⟩).1 ∧
      (n.deliver m).2.queues = before ++ ⟨a.kind, (w.queue.send ⟨m.origin, record⟩).2⟩ :: after := by
  obtain ⟨front, back, hsplit, hanswer, hafter⟩ := deliver_registered h.ids_pipelines hfor.registered hfor.pipeline
  obtain ⟨ahead, behind, hworkers, hdeliver⟩ :=
    Pipeline.deliver_at (h.stages_workers hfor.registered) hfor.tag hfor.worker hfor.stage hpayload
  rw [hdeliver] at hanswer hafter
  refine ⟨front.flatMap AnyPipeline.queues ++ ahead.map fun w => ⟨a.kind, w.queue⟩,
    (behind.map fun w => ⟨a.kind, w.queue⟩) ++ back.flatMap AnyPipeline.queues, ?_, hanswer, ?_⟩
  · rw [queues, hsplit, List.flatMap_append, List.flatMap_cons, AnyPipeline.queues, hworkers]
    simp
  · rw [queues, hafter, List.flatMap_append, List.flatMap_cons, AnyPipeline.queues]
    simp

theorem Numbered.deliver_taken (h : n.Numbered) {w : Worker a.kind.Carrier} {record : a.kind.Carrier}
    (ht : n.Takes m a w record) :
    (n.deliver m).1 = .ok () ∧ ∃ before after, n.queues = before ++ ⟨a.kind, w.queue⟩ :: after ∧
      (n.deliver m).2.queues =
        before ++ ⟨a.kind, { w.queue with items := w.queue.items ++ [⟨m.origin, record⟩] }⟩ :: after := by
  obtain ⟨before, after, hbefore, hanswer, hafter⟩ := h.deliver_for ht.addressed ht.payload
  have hsend : w.queue.send ⟨m.origin, record⟩ =
      (.ok (), { w.queue with items := w.queue.items ++ [⟨m.origin, record⟩] }) := by
    have hfull : w.queue.isFull = false := decide_eq_false (Nat.not_le.2 ht.room)
    rw [StageQueue.send, ht.isOpen, hfull]
    rfl
  rw [hsend] at hanswer hafter
  exact ⟨hanswer, before, after, hbefore, hafter⟩

/-- A message that is refused is in no queue. At most a full queue counts it. -/
theorem Numbered.deliver_refused (h : n.Numbered) {e : Refusal} (he : n.Refuses m e) :
    (n.deliver m).1 = .error e ∧ (n.deliver m).2.queues.map AnyQueue.held = n.queues.map AnyQueue.held ∧
      (e ≠ .saturated m.stage → (n.deliver m).2.queues = n.queues) := by
  have hunmoved : (n.deliver m).1 = .error e ∧ (n.deliver m).2.queues = n.queues →
      (n.deliver m).1 = .error e ∧ (n.deliver m).2.queues.map AnyQueue.held = n.queues.map AnyQueue.held ∧
        (e ≠ .saturated m.stage → (n.deliver m).2.queues = n.queues) :=
    fun ⟨hanswer, hsame⟩ => ⟨hanswer, congrArg (List.map AnyQueue.held) hsame, fun _ => hsame⟩
  cases he with
  | unknownPipeline hnone =>
    rw [deliver_unknownPipeline hnone] at hunmoved ⊢
    exact hunmoved ⟨rfl, rfl⟩
  | @wrongTag a ha hid htag =>
    refine hunmoved (h.deliver_unmoved ha hid ?_)
    rw [Pipeline.deliver_wrongTag htag, ← hid]
    rfl
  | @unknownStage a ha hid htag hnone =>
    refine hunmoved (h.deliver_unmoved ha hid ?_)
    rw [Pipeline.deliver_unknownStage htag hnone, ← hid]
    rfl
  | undecodable hfor hpayload =>
    exact hunmoved (h.deliver_unmoved hfor.registered hfor.pipeline
      (Pipeline.deliver_undecodable hfor.tag hfor.worker hfor.stage hpayload))
  | @closed a w record hfor hpayload hclosed =>
    obtain ⟨before, after, hbefore, hanswer, hafter⟩ := h.deliver_for hfor hpayload
    have hsend : w.queue.send ⟨m.origin, record⟩ = (.error .closed, w.queue) := by
      rw [StageQueue.send, if_pos hclosed]
    rw [hsend] at hanswer hafter
    exact hunmoved ⟨hanswer, hafter.trans hbefore.symm⟩
  | @saturated a w record hfor hpayload hopen hfull =>
    obtain ⟨before, after, hbefore, hanswer, hafter⟩ := h.deliver_for hfor hpayload
    have hsend : w.queue.send ⟨m.origin, record⟩ =
        (.error (.saturated m.stage), { w.queue with dropped := w.queue.dropped + 1 }) := by
      have hisFull : w.queue.isFull = true := decide_eq_true hfull
      rw [StageQueue.send, hopen, hisFull, ← hfor.stage]
      rfl
    rw [hsend] at hanswer hafter
    refine ⟨hanswer, ?_, fun hne => absurd rfl hne⟩
    rw [hbefore, hafter, List.map_append, List.map_append, List.map_cons, List.map_cons]
    rfl

/-- Among pipelines built in any way, whatever their queues hold, a message is taken if and only if it is
for a stage of a pipeline, holds a record of its kind and finds room. Then the record is put at the end of
that queue, which no other stage shares, and nothing else changes in any queue. Otherwise the first check
that it fails is the answer, and it is put in no queue. -/
theorem deliver_exact {start : Node} (hstart : start.pipelines = []) (bs : List Blueprint)
    (hn : n.scheme = (start.buildAll bs).scheme) (m : WireMessage) :
    (n.queues.map AnyQueue.stage).Nodup ∧
    ((n.deliver m).1 = .ok () ↔ ∃ a w record, n.Takes m a w record) ∧
    (∀ a w record, n.Takes m a w record → ∃ before after, n.queues = before ++ ⟨a.kind, w.queue⟩ :: after ∧
      (n.deliver m).2.queues =
        before ++ ⟨a.kind, { w.queue with items := w.queue.items ++ [⟨m.origin, record⟩] }⟩ :: after) ∧
    (∀ e, (n.deliver m).1 = .error e ↔ n.Refuses m e) ∧
    ∀ e, (n.deliver m).1 = .error e →
      (n.deliver m).2.queues.map AnyQueue.held = n.queues.map AnyQueue.held ∧
        (e ≠ .saturated m.stage → (n.deliver m).2.queues = n.queues) := by
  have h : n.Numbered := (numbered_buildAll hstart bs).of_scheme hn
  have hrefused : ∀ e, (n.deliver m).1 = .error e ↔ n.Refuses m e := by
    refine fun e => ⟨fun hanswer => ?_, fun he => (h.deliver_refused he).1⟩
    rcases n.takes_or_refuses m with ⟨a, w, record, ht⟩ | ⟨f, hf⟩
    · cases hanswer.symm.trans (h.deliver_taken ht).1
    · exact Except.error.inj (hanswer.symm.trans (h.deliver_refused hf).1) ▸ hf
  refine ⟨h.nodup_queues, ⟨fun hok => ?_, fun ⟨a, w, record, ht⟩ => (h.deliver_taken ht).1⟩,
    fun a w record ht => (h.deliver_taken ht).2, hrefused, fun e he => (h.deliver_refused ((hrefused e).1 he)).2⟩
  rcases n.takes_or_refuses m with ht | ⟨e, he⟩
  · exact ht
  · cases hok.symm.trans (h.deliver_refused he).1

/-- Two pipelines that were built, and two that could not be. -/
def furnished : Node :=
  (sole {} .fresh).buildAll [⟨.serviceStats, ⟨2⟩, [.aggregate, .dispatch, .persist], none⟩,
    ⟨.heartbeat, ⟨2⟩, [.persist], none⟩, ⟨.heartbeat, ⟨3⟩, [.dispatch], none⟩,
    ⟨.heartbeat, ⟨3⟩, [.aggregate, .persist], none⟩]

/-- A heartbeat for a stage of the third pipeline. -/
def beatFor (stage : StageId) : WireMessage := .ofSnapshot ⟨3⟩ stage ⟨"peer", Heartbeat.mk 1 1 ⟨1⟩ 5⟩

/-- With one heartbeat queued a second one is taken, and one that names a stage of another pipeline is not. -/
theorem deliver_exact_furnished :
    let n := (furnished.deliver (beatFor ⟨33⟩)).2
    (sole {} .fresh).pipelines = [] ∧ n.scheme = furnished.scheme ∧
      (∃ a w record, n.Takes (beatFor ⟨33⟩) a w record) ∧
      n.Refuses (beatFor ⟨23⟩) (.unknownStage ⟨3⟩ ⟨23⟩) ∧ (n.deliver (beatFor ⟨23⟩)).2.queues = n.queues := by
  intro n
  have hstart : (sole {} .fresh).pipelines = [] := rfl
  have hscheme : n.scheme = furnished.scheme := by decide +kernel
  have hanswer : (n.deliver (beatFor ⟨23⟩)).1 = .error (.unknownStage ⟨3⟩ ⟨23⟩) := rfl
  obtain ⟨-, htaken, -, -, -⟩ := deliver_exact hstart _ hscheme (beatFor ⟨33⟩)
  obtain ⟨-, -, -, hrefused, hleft⟩ := deliver_exact hstart _ hscheme (beatFor ⟨23⟩)
  exact ⟨hstart, hscheme, htaken.1 rfl, (hrefused _).1 hanswer, (hleft _ hanswer).2 (by simp)⟩

end Node
end TraceRollup
