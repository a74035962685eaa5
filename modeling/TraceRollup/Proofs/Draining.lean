import TraceRollup.Proofs.AlarmDelivery
import TraceRollup.Proofs.Delivery
import TraceRollup.Proofs.Moves
import TraceRollup.Proofs.SoundNodes

/-!
# Draining the stages of a node

When a node is shut down its stages are closed kind by kind, each kind once the workers of the
one before have nothing left. A stage is drained before the one behind it is closed, except where
a layout has a stage that dispatches in front of one that aggregates: whatever that one hands on
is refused (`Node.refused_of_closes`). The shutdown that the schedule of a cluster takes is one of
these (`Cluster.closes_closeStages`).
-/

namespace TraceRollup

/-! ### Layouts -/

/-- A stage hands on to one of another kind, and none does that stores. -/
theorem ne_of_checkStages {p : PipelineId} {seen : List StageKind} {kinds : Layout}
    (h : checkStages p seen kinds = .ok ()) {j : Nat} {source target : StageKind} (hsource : kinds[j]? = some source)
    (htarget : kinds[j + 1]? = some target) : source ≠ target ∧ source ≠ .persist := by
  induction kinds generalizing seen j with
  | nil => cases hsource
  | cons k rest ih =>
    obtain ⟨-, -, -, hrest⟩ := checkStages_cons h
    cases j with
    | succ j => exact ih hrest hsource htarget
    | zero =>
      cases hsource
      cases rest with
      | nil => cases htarget
      | cons next after =>
        cases htarget
        obtain ⟨hnew, hpersist, -⟩ := checkStages_cons hrest
        exact ⟨fun heq => hnew (by simp [heq]), fun heq => hpersist (by simp [heq])⟩

theorem ne_of_checkLayout {p : PipelineId} {kinds : Layout} (h : checkLayout p kinds = .ok ()) {j : Nat}
    {source target : StageKind} (hsource : kinds[j]? = some source) (htarget : kinds[j + 1]? = some target) :
    source ≠ target ∧ source ≠ .persist := by
  unfold checkLayout at h
  split at h
  · cases h
  · exact ne_of_checkStages h hsource htarget

/-- Of two kinds in a row, when the first is not drained, the second is closed only out of order. -/
theorem StageKind.mem_closed_iff {before after : List StageKind} {kind source target : StageKind}
    (h : closingOrder = before ++ kind :: after) (hfront : source ∉ before) (hne : source ≠ target)
    (hstored : source ≠ .persist) : target ∈ before ++ [kind] ↔ source = .dispatch ∧ target = .aggregate := by
  -- `kind` is being closed, and those before it are drained
  have hcase : (before = [] ∧ kind = .aggregate) ∨ (before = [.aggregate] ∧ kind = .dispatch) ∨
      (before = [.aggregate, .dispatch] ∧ kind = .persist) := by
    rcases before with _ | ⟨first, _ | ⟨second, _ | ⟨third, rest⟩⟩⟩ <;> simp [closingOrder] at h <;> simp [h]
  rcases hcase with ⟨rfl, rfl⟩ | ⟨rfl, rfl⟩ | ⟨rfl, rfl⟩ <;> cases source <;> cases target <;>
    simp at hfront hne hstored ⊢

/-! ### Lists side by side -/

section
variable {α β : Type} {R : α → β → Prop} {l : List α} {m : List β}

theorem forall₂_set (h : List.Forall₂ R l m) {i : Nat} {b c : β} (hb : m[i]? = some b)
    (hc : ∀ a, R a b → R a c) : List.Forall₂ R l (m.set i c) := by
  induction h generalizing i with
  | nil => exact .nil
  | cons hab hrest ih =>
    cases i with
    | zero =>
      cases hb
      exact .cons (hc _ hab) hrest
    | succ i => exact .cons hab (ih hb)

theorem forall₂_imp_of_mem (h : List.Forall₂ R l m) {S : α → β → Prop} (hS : ∀ a, ∀ b ∈ m, R a b → S a b) :
    List.Forall₂ S l m := by
  have hmem : List.Forall₂ (fun b a => b ∈ m ∧ R a b) m l := (List.forall₂_and_left _ _).2 ⟨fun _ hb => hb, h.flip⟩
  exact (hmem.imp fun _ _ hba => hS _ _ hba.1 hba.2).flip

theorem exists_of_forall₂ (h : List.Forall₂ R l m) {i : Nat} {b : β} (hb : m[i]? = some b) :
    ∃ a, l[i]? = some a ∧ R a b := by
  induction h generalizing i with
  | nil => cases hb
  | cons hab _ ih =>
    cases i with
    | zero =>
      cases hb
      exact ⟨_, rfl, hab⟩
    | succ i => exact ih hb

end

/-! ### Workers -/

/-- The worker has nothing to do, and gets nothing more. -/
structure Worker.Done {α : Type} (w : Worker α) : Prop where
  closed : w.queue.refusesAll = true
  items : w.queue.items = []
  mail : w.mail = []
  ready : w.ready = []

/-- A worker of a kind, when the stages of some kinds are closed and those of some are drained. -/
structure Worker.Stands {α : Type} (drained closed : List StageKind) (k : StageKind) (w : Worker α) : Prop where
  kind : w.state.kind = k
  door : w.queue.refusesAll = decide (k ∈ closed)
  done : k ∈ drained → w.Done

namespace Worker
variable {α : Type} {drained closed : List StageKind} {k : StageKind} {w : Worker α}

theorem Stands.of_same (h : w.Stands drained closed k) {v : Worker α} (hkind : v.state.kind = w.state.kind)
    (hdoor : v.queue.refusesAll = w.queue.refusesAll) (hdone : w.Done → v.Done) : v.Stands drained closed k :=
  ⟨hkind.trans h.kind, hdoor.trans h.door, fun hk => hdone (h.done hk)⟩

theorem Stands.send (h : w.Stands drained closed k) (s : Snapshot α) :
    ({ w with queue := (w.queue.send s).2 } : Worker α).Stands drained closed k := by
  refine h.of_same rfl (w.queue.refusesAll_send s) fun hdone => ?_
  rw [StageQueue.send_of_refusesAll hdone.closed]
  exact ⟨hdone.closed, hdone.items, hdone.mail, hdone.ready⟩

theorem Stands.takeMail (h : w.Stands drained closed k) :
    ({ w with mail := w.mail.tail } : Worker α).Stands drained closed k := by
  refine h.of_same rfl rfl fun hdone => ⟨hdone.closed, hdone.items, ?_, hdone.ready⟩
  rw [hdone.mail]
  rfl

theorem Stands.handOn (h : w.Stands drained closed k) {s : Snapshot α} {rest : List (Snapshot α)}
    (hready : w.ready = s :: rest) : ({ w with ready := rest } : Worker α).Stands drained closed k := by
  refine h.of_same rfl rfl fun hdone => ?_
  rw [hdone.ready] at hready
  cases hready

theorem Stands.withLedger (h : w.Stands drained closed k) (l : Ledger α) :
    (match w.state with
      | .persist _ => { w with state := .persist l }
      | _ => w : Worker α).Stands drained closed k := by
  split
  · rename_i old hold
    exact h.of_same (hold ▸ rfl) rfl fun hdone => ⟨hdone.closed, hdone.items, hdone.mail, hdone.ready⟩
  · exact h

theorem Stands.begin [Rollup α] (h : w.Stands drained closed k) (env : Conditions) (isLast : Bool) (sh : Shared) :
    (w.begin env isLast sh).1.Stands drained closed k := by
  by_cases hbegin : w.canBegin = true
  · -- who takes a batch has something to do
    have hnot : ¬ w.Done := fun hdone => Worker.items_of_canBegin hbegin hdone.items
    cases hout : (w.state.process env w.nextBatch (w.countBatch sh)).1 with
    | none =>
      rw [begin_of_stuck hbegin hout]
      exact h.of_same rfl rfl fun hdone => absurd hdone hnot
    | some out =>
      rw [begin_of_output hbegin out hout]
      exact h.of_same (StageState.kind_process hout) rfl fun hdone => absurd hdone hnot
  · rw [begin_of_not hbegin]
    exact h

theorem Stands.cancel (h : w.Stands drained closed k) (j : StageKind) :
    (if w.state.kind = j then { w with queue := w.queue.cancel } else w : Worker α).Stands drained (closed ++ [j])
      k := by
  have hkind := h.kind
  split
  · rename_i heq
    have hclosed : w.queue.cancel.refusesAll = true := rfl
    refine ⟨hkind, ?_, fun hk => ⟨hclosed, (h.done hk).items, (h.done hk).mail, (h.done hk).ready⟩⟩
    rw [hclosed, ← hkind, heq]
    simp
  · rename_i hne
    refine ⟨hkind, ?_, h.done⟩
    rw [h.door, ← hkind]
    simp [hne]

theorem Stands.drain (h : w.Stands drained closed k) {j : StageKind} (hj : j ∈ closed)
    (hidle : w.state.kind = j → w.isIdle = true ∧ w.queue.isEmpty = true) :
    w.Stands (drained ++ [j]) closed k := by
  refine ⟨h.kind, h.door, fun hmem => ?_⟩
  rcases List.mem_append.1 hmem with hmem | hmem
  · exact h.done hmem
  · rw [List.mem_singleton] at hmem
    obtain ⟨hidle, hempty⟩ := hidle (h.kind.trans hmem)
    simp only [isIdle, Bool.and_eq_true, List.isEmpty_iff] at hidle
    exact ⟨h.door.trans (decide_eq_true (hmem ▸ hj)), List.isEmpty_iff.1 hempty, hidle.1, hidle.2⟩

end Worker

/-! ### Pipelines -/

/-- Its workers are of the kinds of a layout. -/
def Pipeline.Stands {α : Type} (drained closed : List StageKind) (kinds : Layout) (p : Pipeline α) : Prop :=
  List.Forall₂ (Worker.Stands drained closed) kinds p.workers

namespace Pipeline
variable {α : Type} {drained closed : List StageKind} {kinds : Layout} {p : Pipeline α}

theorem Stands.cancel (h : p.Stands drained closed kinds) (j : StageKind) :
    (p.cancel j).Stands drained (closed ++ [j]) kinds :=
  List.forall₂_map_right_iff.2 (h.imp fun _ _ hstands => hstands.cancel j)

theorem Stands.withLedger (h : p.Stands drained closed kinds) (l : Ledger α) :
    (p.withLedger l).Stands drained closed kinds :=
  List.forall₂_map_right_iff.2 (h.imp fun _ _ hstands => hstands.withLedger l)

theorem Stands.drain (h : p.Stands drained closed kinds) {j : StageKind} (hj : j ∈ closed)
    (hidle : ∀ w ∈ p.workers, w.state.kind = j → w.isIdle = true ∧ w.queue.isEmpty = true) :
    p.Stands (drained ++ [j]) closed kinds :=
  forall₂_imp_of_mem h fun _ w hw hstands => hstands.drain hj (hidle w hw)

theorem Stands.sendAt (h : p.Stands drained closed kinds) (i : Nat) (s : Snapshot α) :
    (p.sendAt i s).2.Stands drained closed kinds := by
  unfold Pipeline.sendAt
  split
  · exact h
  · rename_i w hw
    exact forall₂_set h hw fun _ hstands => hstands.send s

theorem Stands.takeMail (h : p.Stands drained closed kinds) (i : Nat) :
    (p.takeMail i).2.Stands drained closed kinds := by
  unfold Pipeline.takeMail
  split
  · exact h
  · rename_i w hw
    exact forall₂_set h hw fun _ hstands => hstands.takeMail

variable [Rollup α]

theorem Stands.begin (h : p.Stands drained closed kinds) (env : Conditions) (i : Nat) (sh : Shared) :
    (p.begin env i sh).1.Stands drained closed kinds := by
  unfold Pipeline.begin
  split
  · exact h
  · rename_i w hw
    exact forall₂_set h hw fun _ hstands => hstands.begin env _ sh

theorem Stands.handOn (h : p.Stands drained closed kinds) (i : Nat) (sh : Shared) :
    (p.handOn i sh).1.Stands drained closed kinds := by
  unfold Pipeline.handOn
  split
  · rename_i w next hw hnext
    split
    · exact h
    · rename_i s rest hready
      have hgiven := forall₂_set h hw fun _ hstands => hstands.handOn hready
      refine forall₂_set hgiven ?_ fun _ hstands => hstands.send s
      rw [List.getElem?_set_ne (Nat.succ_ne_self i).symm]
      exact hnext
  · exact h

theorem Stands.moves (h : p.Stands drained closed kinds) {q : Pipeline α} (hq : p.Moves q) :
    q.Stands drained closed kinds := by
  cases hq with
  | rest => exact h
  | send i s => exact h.sendAt i s
  | begin env i sh => exact h.begin env i sh
  | takeMail i => exact h.takeMail i
  | handOn i sh => exact h.handOn i sh
  | flush l => exact h.withLedger l

end Pipeline

/-! ### Nodes -/

/-- A worker handed a record to the stage behind it, and this was the answer. -/
structure Handing where
  pipeline : Nat
  stage : Nat
  answer : Except Refusal Unit
  deriving DecidableEq

/-- Told by the kinds of both stages: the one in front is not drained, and the one behind refuses
what comes if it is closed. -/
def Handing.Meets (drained closed : List StageKind) (layouts : List Layout) (x : Handing) : Prop :=
  ∃ kinds source target, layouts[x.pipeline]? = some kinds ∧ kinds[x.stage]? = some source ∧
    kinds[x.stage + 1]? = some target ∧ source ∉ drained ∧ (x.answer = .error .closed ↔ target ∈ closed)

namespace Node

def layouts (n : Node) : List Layout := n.pipelines.map fun a => a.pipeline.kinds

def handed? (n : Node) (i j : Nat) : Option Handing := (n.handing? i j).map fun h => ⟨i, j, h.2⟩

/-- What goes on at a node between two of its closings, with the records that are handed on. -/
inductive Works (n : Node) : List Handing → Node → Prop
  | refl : Works n [] n
  | submit {log : List Handing} {m : Node} (h : Works n log m) (kind : RecordKind) (id : PipelineId)
    (record : kind.Carrier) : Works n log (m.submit kind id record).2
  | deliver {log : List Handing} {m : Node} (h : Works n log m) (message : WireMessage) :
    Works n log (m.deliver message).2
  | begin {log : List Handing} {m : Node} (h : Works n log m) (env : Conditions) (i j : Nat) :
    Works n log (m.begin env i j)
  | takeMail {log : List Handing} {m : Node} (h : Works n log m) (i j : Nat) : Works n log (m.takeMail i j).2
  | handOn {log : List Handing} {m : Node} (h : Works n log m) (i j : Nat) :
    Works n (log ++ (m.handed? i j).toList) (m.handOn i j)
  | flush {log : List Handing} {m : Node} (h : Works n log m) {now : Instant} {i : Nat} {f : Flushed}
    (hf : m.flushAt now i = some f) : Works n log f.node
  | elsewhere {log : List Handing} {m : Node} (h : Works n log m) (store : Store) (shared : Shared) :
    Works n log { m with store, shared }

theorem Works.trans {n m last : Node} {log after : List Handing} (h : n.Works log m) (h' : m.Works after last) :
    n.Works (log ++ after) last := by
  induction h' with
  | refl => rwa [List.append_nil]
  | submit _ kind id record ih => exact ih.submit kind id record
  | deliver _ message ih => exact ih.deliver message
  | begin _ env i j ih => exact ih.begin env i j
  | takeMail _ i j ih => exact ih.takeMail i j
  | handOn _ i j ih =>
    rw [← List.append_assoc]
    exact ih.handOn i j
  | flush _ hf ih => exact ih.flush hf
  | elsewhere _ store shared ih => exact ih.elsewhere store shared

/-- The workers of a kind have finished. -/
def Drained (n : Node) (kind : StageKind) : Prop :=
  (n.pipelines.all fun a => a.pipeline.workers.all fun w =>
    decide (w.state.kind ≠ kind) || (!w.stuck && w.isIdle && w.queue.isEmpty)) = true

instance (n : Node) (kind : StageKind) : Decidable (n.Drained kind) := inferInstanceAs (Decidable (_ = true))

theorem Drained.worker {n : Node} {kind : StageKind} (h : n.Drained kind) {a : AnyPipeline} (ha : a ∈ n.pipelines)
    {w : Worker a.kind.Carrier} (hw : w ∈ a.pipeline.workers) (hkind : w.state.kind = kind) :
    w.stuck = false ∧ w.isIdle = true ∧ w.queue.isEmpty = true := by
  have hdone := List.all_eq_true.1 (List.all_eq_true.1 h a ha) w hw
  simpa [hkind, and_assoc] using hdone

theorem Drained.abandonStuck {n : Node} {kind : StageKind} (h : n.Drained kind) : n.abandonStuck kind = n := by
  -- none of them is stuck, so none is given up
  have hsame : ∀ a ∈ n.pipelines, ({ a with pipeline := a.pipeline.abandonStuck kind } : AnyPipeline) = a := by
    intro a ha
    have hpipeline : a.pipeline.abandonStuck kind = a.pipeline := by
      refine congrArg (Pipeline.mk a.pipeline.id) ((List.map_congr_left fun w hw => if_neg ?_).trans (List.map_id _))
      rintro ⟨hkind, hstuck⟩
      rw [(h.worker ha hw hkind).1] at hstuck
      cases hstuck
    rw [hpipeline]
  rw [Node.abandonStuck, mapPipelines, List.map_congr_left hsame, List.map_id']

/-- The stages of some kinds are closed one kind after another, and no worker is given up. -/
inductive Closes : List StageKind → Node → List Handing → Node → Prop
  | nil (n : Node) : Closes [] n [] n
  | cons {kind : StageKind} {rest : List StageKind} {n m last : Node} {log after : List Handing}
    (hworks : (n.cancel kind).Works log m) (hdrained : m.Drained kind) (hrest : Closes rest m after last) :
    Closes (kind :: rest) n (log ++ after) last

def Stands (drained closed : List StageKind) (layouts : List Layout) (n : Node) : Prop :=
  List.Forall₂ (fun kinds a => a.pipeline.Stands drained closed kinds) layouts n.pipelines

variable {drained closed : List StageKind} {layouts : List Layout} {n m : Node}

theorem Stands.cancel (h : n.Stands drained closed layouts) (kind : StageKind) :
    (n.cancel kind).Stands drained (closed ++ [kind]) layouts :=
  List.forall₂_map_right_iff.2 (h.imp fun _ _ hstands => hstands.cancel kind)

theorem Stands.drain (h : n.Stands drained closed layouts) {kind : StageKind} (hkind : kind ∈ closed)
    (hdrained : n.Drained kind) : n.Stands (drained ++ [kind]) closed layouts :=
  forall₂_imp_of_mem h fun _ _ ha hstands =>
    hstands.drain hkind fun _ hw heq => (hdrained.worker ha hw heq).2

theorem Stands.moved (h : n.Stands drained closed layouts) (hm : n.Moved m) : m.Stands drained closed layouts := by
  cases hm with
  | elsewhere store shared => exact h
  | pipeline ha hp store shared => exact forall₂_set h ha fun _ hstands => hstands.moves hp

theorem Stands.handed (h : n.Stands drained closed layouts) {i j : Nat} {x : Handing} (hx : n.handed? i j = some x) :
    x.Meets drained closed layouts := by
  obtain ⟨e, he, rfl⟩ := Option.map_eq_some_iff.1 hx
  simp only [handing?, Option.bind_eq_bind, Option.bind_eq_some_iff, Option.pure_def, Option.some.injEq] at he
  obtain ⟨a, ha, w, hw, next, hnext, s, hs, rfl⟩ := he
  obtain ⟨kinds, hkinds, hworkers⟩ := exists_of_forall₂ h ha
  obtain ⟨source, hsource, hfront⟩ := exists_of_forall₂ hworkers hw
  obtain ⟨target, htarget, hbehind⟩ := exists_of_forall₂ hworkers hnext
  refine ⟨kinds, source, target, hkinds, hsource, htarget, fun hdrained => ?_, ?_⟩
  · rw [(hfront.done hdrained).ready] at hs
    cases hs
  · have hdoor := hbehind.door
    by_cases hclosed : target ∈ closed
    · rw [decide_eq_true hclosed] at hdoor
      simp [StageQueue.send_of_refusesAll hdoor, hclosed]
    · rw [decide_eq_false hclosed] at hdoor
      rcases StageQueue.send_of_open hdoor s with hanswer | hanswer <;> simp [hanswer, hclosed]

theorem Works.stands {log : List Handing} (h : n.Works log m) (hn : n.Stands drained closed layouts) :
    m.Stands drained closed layouts ∧ ∀ x ∈ log, x.Meets drained closed layouts := by
  induction h with
  | refl => exact ⟨hn, fun _ hx => absurd hx List.not_mem_nil⟩
  | submit _ kind id record ih => exact ⟨ih.1.moved (moved_submit _ kind id record), ih.2⟩
  | deliver _ message ih => exact ⟨ih.1.moved (moved_deliver _ message), ih.2⟩
  | begin _ env i j ih => exact ⟨ih.1.moved (moved_begin _ env i j), ih.2⟩
  | takeMail _ i j ih => exact ⟨ih.1.moved (moved_takeMail _ i j), ih.2⟩
  | handOn _ i j ih =>
    refine ⟨ih.1.moved (moved_handOn _ i j), fun x hx => ?_⟩
    rcases List.mem_append.1 hx with hx | hx
    · exact ih.2 x hx
    · exact ih.1.handed (Option.mem_toList.1 hx)
  | flush _ hf ih => exact ⟨ih.1.moved (moved_flushAt _ hf), ih.2⟩
  | elsewhere _ store shared ih => exact ih

/-- Each record is handed on while one kind is being closed, and the kinds before it are drained. -/
theorem Closes.stands {kinds : List StageKind} {log : List Handing} {last : Node} (h : Closes kinds n log last)
    (hn : n.Stands drained drained layouts) :
    last.Stands (drained ++ kinds) (drained ++ kinds) layouts ∧ ∀ x ∈ log, ∃ before kind after,
      kinds = before ++ kind :: after ∧ x.Meets (drained ++ before) (drained ++ before ++ [kind]) layouts := by
  induction h generalizing drained with
  | nil n => exact ⟨by rwa [List.append_nil], fun _ hx => absurd hx List.not_mem_nil⟩
  | @cons kind rest n m last log after hworks hdrained hrest ih =>
    -- the further kind is closed first and drained last
    obtain ⟨hm, hlog⟩ := hworks.stands (hn.cancel kind)
    obtain ⟨hlast, hafter⟩ := ih (hm.drain (by simp) hdrained)
    rw [List.append_assoc, List.singleton_append] at hlast
    refine ⟨hlast, fun x hx => ?_⟩
    rcases List.mem_append.1 hx with hx | hx
    · exact ⟨[], kind, rest, rfl, by simpa using hlog x hx⟩
    · obtain ⟨before, k, behind, rfl, hmeets⟩ := hafter x hx
      exact ⟨kind :: before, k, behind, rfl, by simpa using hmeets⟩

theorem stands_of_open (h : ∀ a ∈ n.pipelines, ∀ w ∈ a.pipeline.workers, w.queue.refusesAll = false) :
    n.Stands [] [] n.layouts :=
  List.forall₂_map_left_iff.2 <| List.forall₂_same.2 fun _ ha =>
    List.forall₂_map_left_iff.2 <| List.forall₂_same.2 fun _ hw =>
      ⟨rfl, (h _ ha _ hw).trans rfl, fun hk => absurd hk List.not_mem_nil⟩

/-- A node is shut down in any way in which all workers finish. What they hand on meanwhile is
refused as closed exactly where a stage dispatches to one that aggregates. -/
theorem refused_of_closes (n last : Node) (log : List Handing)
    (haccepted : ∀ a ∈ n.pipelines, checkLayout a.id a.pipeline.kinds = .ok ())
    (hopen : ∀ a ∈ n.pipelines, ∀ w ∈ a.pipeline.workers, w.queue.refusesAll = false)
    (hcloses : Closes StageKind.closingOrder n log last) :
    (∀ x ∈ log, x.answer = .error .closed ↔ ∃ kinds, n.layouts[x.pipeline]? = some kinds ∧
      kinds[x.stage]? = some .dispatch ∧ kinds[x.stage + 1]? = some .aggregate) ∧
    ∀ a ∈ last.pipelines, ∀ w ∈ a.pipeline.workers, w.Done := by
  obtain ⟨hlast, hlog⟩ := hcloses.stands (stands_of_open hopen)
  refine ⟨fun x hx => ?_, fun _ ha _ hw => ?_⟩
  · obtain ⟨before, kind, after, horder, kinds, source, target, hkinds, hsource, htarget, hfront, hanswer⟩ := hlog x hx
    obtain ⟨a, ha, rfl⟩ := List.mem_map.1 (List.mem_of_getElem? hkinds)
    obtain ⟨hne, hstored⟩ := ne_of_checkLayout (haccepted a ha) hsource htarget
    rw [List.nil_append] at hfront hanswer
    rw [hanswer, StageKind.mem_closed_iff horder hfront hne hstored]
    simp [hkinds, hsource, htarget]
  · obtain ⟨i, hi⟩ := List.mem_iff_getElem?.1 ha
    obtain ⟨kinds, -, hworkers⟩ := exists_of_forall₂ hlast hi
    obtain ⟨j, hj⟩ := List.mem_iff_getElem?.1 hw
    obtain ⟨kind, -, hstands⟩ := exists_of_forall₂ hworkers hj
    exact hstands.done (by cases kind <;> decide)

def otherCall : ServiceStats := { ServiceStats.oneCall with service := 2 }

/-- A node with two layouts, and with a call queued in each pipeline. -/
def twofold : Node :=
  let built := ((ClusterRun.hermit.build .serviceStats ⟨2⟩ Collector.layout none).2.build .serviceStats ⟨3⟩
    [.dispatch, .aggregate, .persist] none).2
  ((built.submit .serviceStats ⟨2⟩ .oneCall).2.submit .serviceStats ⟨3⟩ otherCall).2

def twofoldTotalled : Node :=
  ((((twofold.cancel .aggregate).begin (solitude (fun _ => 0) .epoch) 0 0).handOn 0 0).begin
    (solitude (fun _ => 0) .epoch) 1 0).handOn 1 0

def twofoldRouted : Node :=
  ((twofoldTotalled.cancel .dispatch).begin (solitude (fun _ => 0) .epoch) 0 1).handOn 0 1

def twofoldBuffered : Node := (twofoldRouted.cancel .persist).begin (solitude (fun _ => 0) .epoch) 0 2

theorem closes_twofold : twofold.Closes StageKind.closingOrder [⟨0, 0, .ok ()⟩, ⟨1, 0, .error .closed⟩, ⟨0, 1, .ok ()⟩]
    twofoldBuffered := by
  have hfirst : (twofold.cancel .aggregate).Works _ twofoldTotalled :=
    .handOn (.begin (.handOn (.begin .refl _ 0 0) 0 0) _ 1 0) 1 0
  have hsecond : (twofoldTotalled.cancel .dispatch).Works _ twofoldRouted := .handOn (.begin .refl _ 0 1) 0 1
  have hthird : (twofoldRouted.cancel .persist).Works _ twofoldBuffered := .begin .refl _ 0 2
  have hcloses := Closes.cons hfirst (by decide +kernel) (.cons hsecond (by decide +kernel)
    (.cons hthird (by decide +kernel) (.nil _)))
  convert hcloses using 1
  · rfl
  · decide +kernel

theorem accepted_twofold : ∀ a ∈ twofold.pipelines, checkLayout a.id a.pipeline.kinds = .ok () := by decide +kernel

theorem open_twofold : ∀ a ∈ twofold.pipelines, ∀ w ∈ a.pipeline.workers, w.queue.refusesAll = false := by
  decide +kernel

/-- The call that was divided first is refused, and the other one is not. -/
theorem refused_of_closes_twofold : (∀ a ∈ twofold.pipelines, checkLayout a.id a.pipeline.kinds = .ok ()) ∧
    (∀ a ∈ twofold.pipelines, ∀ w ∈ a.pipeline.workers, w.queue.refusesAll = false) ∧
    twofold.Closes StageKind.closingOrder [⟨0, 0, .ok ()⟩, ⟨1, 0, .error .closed⟩, ⟨0, 1, .ok ()⟩] twofoldBuffered ∧
    (∃ kinds, twofold.layouts[1]? = some kinds ∧ kinds[0]? = some .dispatch ∧ kinds[1]? = some .aggregate) ∧
    ∀ a ∈ twofoldBuffered.pipelines, ∀ w ∈ a.pipeline.workers, w.Done := by
  obtain ⟨hrefused, hdone⟩ := refused_of_closes twofold twofoldBuffered _ accepted_twofold open_twofold closes_twofold
  have hkinds := (hrefused ⟨1, 0, .error .closed⟩ (by simp)).1 rfl
  exact ⟨accepted_twofold, open_twofold, closes_twofold, hkinds, hdone⟩

end Node

/-! ### The schedule of a cluster -/

namespace Cluster

/-- What goes on in a cluster goes on at each of its nodes, if at all. -/
def WorksTo (k : Nat) (c d : Cluster) : Prop :=
  ∀ n, c.nodes[k]? = some n → ∃ log m, d.nodes[k]? = some m ∧ n.Works log m

variable {k : Nat} {c d e : Cluster}

theorem WorksTo.refl (k : Nat) (c : Cluster) : WorksTo k c c := fun n hn => ⟨[], n, hn, .refl⟩

theorem WorksTo.trans (h : WorksTo k c d) (h' : WorksTo k d e) : WorksTo k c e := by
  intro n hn
  obtain ⟨log, m, hm, hworks⟩ := h n hn
  obtain ⟨after, last, hlast, hworks'⟩ := h' m hm
  exact ⟨log ++ after, last, hlast, hworks.trans hworks'⟩

/-- One node has done something. -/
theorem worksTo_set (k : Nat) {i : Nat} {n m : Node} {log : List Handing} (hn : c.nodes[i]? = some n)
    (hworks : n.Works log m) : WorksTo k c { c with nodes := c.nodes.set i m } := by
  intro l hl
  by_cases hk : i = k
  · subst hk
    rw [hn] at hl
    cases hl
    obtain ⟨hlt, -⟩ := List.getElem?_eq_some_iff.1 hn
    exact ⟨log, m, List.getElem?_set_self hlt, hworks⟩
  · exact ⟨[], l, (List.getElem?_set_ne hk).trans hl, .refl⟩

theorem worksTo_modifyNode (k i : Nat) {f : Node → Node} (hf : ∀ n : Node, ∃ log, n.Works log (f n)) :
    WorksTo k c (c.modifyNode i f) := by
  intro l hl
  by_cases hk : i = k
  · subst hk
    obtain ⟨log, hworks⟩ := hf l
    exact ⟨log, f l, by rw [modifyNode, List.getElem?_modify_eq, hl]; rfl, hworks⟩
  · exact ⟨[], l, (List.getElem?_modify_ne f c.nodes hk).trans hl, .refl⟩

theorem worksTo_begin (k : Nat) (c : Cluster) (p : Place) : WorksTo k c (c.begin p) :=
  worksTo_modifyNode k p.node fun _ => ⟨_, .begin .refl c.conditions p.pipeline p.stage⟩

theorem worksTo_handOn (k : Nat) (c : Cluster) (p : Place) : WorksTo k c (c.handOn p) :=
  worksTo_modifyNode k p.node fun _ => ⟨_, .handOn .refl p.pipeline p.stage⟩

theorem worksTo_deliverNow (k : Nat) (c : Cluster) (i : Nat) (message : WireMessage) :
    WorksTo k c (c.deliverNow i message).2 := by
  unfold deliverNow
  split
  · exact .refl k c
  · rename_i n hn
    exact worksTo_set k hn (.deliver .refl message)

theorem worksTo_sendMail (k : Nat) (c : Cluster) (p : Place) : WorksTo k c (c.sendMail p) := by
  unfold sendMail
  split
  · exact .refl k c
  · rename_i n hn
    have hsent := worksTo_set k hn (.takeMail .refl p.pipeline p.stage)
    dsimp only
    split
    · exact hsent
    · split
      · exact hsent
      · exact hsent.trans (worksTo_deliverNow k _ _ _)

theorem lasting_worksTo (k : Nat) (c : Cluster) : Lasting (WorksTo k c) where
  begin d h p := h.trans (worksTo_begin k d p)
  sendMail d h p := h.trans (worksTo_sendMail k d p)
  handOn d h p := h.trans (worksTo_handOn k d p)

/-- The workers of a node finish whenever stages are closed, so that none is given up. -/
def InTime (k : Nat) : List StageKind → Cluster → Prop
  | [], _ => True
  | kind :: rest, c =>
    (∀ n ∈ (c.modifyNode k (Node.cancel kind)).settle.nodes[k]?, n.Drained kind) ∧ InTime k rest (c.closeStages k kind)

instance decidableInTime (k : Nat) : (kinds : List StageKind) → (c : Cluster) → Decidable (InTime k kinds c)
  | [], _ => .isTrue trivial
  | kind :: rest, c =>
    have := decidableInTime k rest (c.closeStages k kind)
    inferInstanceAs (Decidable (_ ∧ _))

/-- When a node is shut down by the schedule and all workers finish, its stages are closed as they
should be. -/
theorem closes_closeStages {kinds : List StageKind} (h : InTime k kinds c) {n : Node} (hn : c.nodes[k]? = some n) :
    ∃ log last, (kinds.foldl (closeStages k) c).nodes[k]? = some last ∧ n.Closes kinds log last := by
  induction kinds generalizing c n with
  | nil => exact ⟨[], n, hn, .nil n⟩
  | cons kind rest ih =>
    obtain ⟨hdrained, hrest⟩ := h
    have hcancelled : (c.modifyNode k (Node.cancel kind)).nodes[k]? = some (n.cancel kind) := by
      rw [modifyNode, List.getElem?_modify_eq, hn]
      rfl
    obtain ⟨log, m, hm, hworks⟩ := (lasting_worksTo k _).settle (.refl k _) _ hcancelled
    have hfinished := hdrained m hm
    have hclosed : (c.closeStages k kind).nodes[k]? = some m := by
      rw [closeStages, modifyNode, List.getElem?_modify_eq, hm]
      exact congrArg some hfinished.abandonStuck
    obtain ⟨after, last, hlast, hcloses⟩ := ih hrest hclosed
    exact ⟨log ++ after, last, hlast, .cons hworks hfinished hcloses⟩

def twofold : Cluster := { nodes := [Node.twofold], hash := fun _ => 0, attached := [], clock := .epoch }

/-- All workers finish in time, and yet one of the calls has no row. -/
theorem lost_twofold : (∀ a ∈ Node.twofold.pipelines, checkLayout a.id a.pipeline.kinds = .ok ()) ∧
    (∀ a ∈ Node.twofold.pipelines, ∀ w ∈ a.pipeline.workers, w.queue.refusesAll = false) ∧
    (∃ log last, Node.twofold.Closes StageKind.closingOrder log last ∧ ∃ x ∈ log, x.answer = .error .closed) ∧
    InTime 0 StageKind.closingOrder twofold ∧
    ∃ report c n, twofold.shutDown 0 = some (report, c) ∧ report = ⟨1, 0⟩ ∧ c.nodes[0]? = some n ∧
      (n.store.table RecordKind.serviceStats.tag).get? Node.otherCall.id = none ∧
      n.counters.get (.dropped RecordKind.serviceStats.tag (StageId.of ⟨3⟩ .aggregate).number.toNat "closed") = 1 := by
  have hshut : ((twofold.shutDown 0).any fun r => decide (r.1 = ⟨1, 0⟩) && r.2.nodes[0]?.any fun n =>
      decide ((n.store.table RecordKind.serviceStats.tag).get? Node.otherCall.id = none) && decide (n.counters.get
        (.dropped RecordKind.serviceStats.tag (StageId.of ⟨3⟩ .aggregate).number.toNat "closed") = 1)) = true := by
    decide +kernel
  obtain ⟨⟨report, c⟩, hreport, hafter⟩ := (Option.any_eq_true _ _).1 hshut
  simp only [Bool.and_eq_true, decide_eq_true_eq, Option.any_eq_true] at hafter
  obtain ⟨hrows, n, hn, hrow, hdropped⟩ := hafter
  have hrefused : ⟨1, 0, .error .closed⟩ ∈ ([⟨0, 0, .ok ()⟩, ⟨1, 0, .error .closed⟩, ⟨0, 1, .ok ()⟩] : List Handing) := by
    simp
  exact ⟨Node.accepted_twofold, Node.open_twofold, ⟨_, _, Node.closes_twofold, _, hrefused, rfl⟩, by decide +kernel,
    report, c, n, hreport, hrows, hn, hrow, hdropped⟩

end Cluster
end TraceRollup
