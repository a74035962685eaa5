import TraceRollup.Proofs.Moves
import TraceRollup.Proofs.OwnerShares

/-!
# Mail for other nodes

A worker never sends a message to the node that it is on: its dispatcher keeps what that node owns
(`Worker.Outward.begin`). This holds of every node, however it came to be as it is
(`Node.Reached.outward`).
-/

namespace TraceRollup

/-! ### Workers -/

/-- Nothing that the worker sends is for the node that it is on. -/
structure Worker.Outward {α : Type} (here : String) (w : Worker α) : Prop where
  mail : ∀ x ∈ w.mail, x.1 ≠ here
  routing : ∀ d, w.state = .dispatch d → d.here = here

namespace Worker
variable {α : Type} {here : String} {w : Worker α}

/-- Mail and stage decide; queues and records in hand do not matter. -/
theorem Outward.of_eq (h : w.Outward here) {v : Worker α} (hmail : v.mail = w.mail) (hstate : v.state = w.state) :
    v.Outward here := ⟨hmail ▸ h.mail, hstate ▸ h.routing⟩

theorem Outward.tail (h : w.Outward here) : ({ w with mail := w.mail.tail } : Worker α).Outward here :=
  ⟨fun x hx => h.mail x (List.mem_of_mem_tail hx), h.routing⟩

theorem node_of_mem_mailOf {parcels : List Parcel} {x : String × WireMessage} (hx : x ∈ mailOf parcels) :
    ∃ p ∈ parcels, p.node = x.1 := by
  obtain ⟨p, hp, hmail⟩ := List.mem_flatMap.1 hx
  obtain ⟨m, -, rfl⟩ := List.mem_map.1 hmail
  exact ⟨p, hp, rfl⟩

variable [Rollup α]

theorem outward_process {state : StageState α} (hstate : ∀ d, state = .dispatch d → d.here = here) {env : Conditions}
    {batch : List (Snapshot α)} {sh : Shared} {out : StageOutput α} (hout : (state.process env batch sh).1 = some out) :
    (∀ p ∈ out.parcels, p.node ≠ here) ∧ ∀ d, out.state = .dispatch d → d.here = here := by
  cases state with
  | aggregate totals =>
    cases hout
    exact ⟨fun _ hp => absurd hp List.not_mem_nil, fun _ hd => by cases hd⟩
  | persist ledger =>
    cases hout
    exact ⟨fun _ hp => absurd hp List.not_mem_nil, fun _ hd => by cases hd⟩
  | dispatch d =>
    simp only [StageState.process] at hout
    split at hout
    · cases hout
    · rename_i r hroute
      cases hout
      refine ⟨fun p hp => ?_, fun e he => hstate e he⟩
      unfold Dispatcher.route at hroute
      dsimp only at hroute
      split at hroute
      · cases hroute
      · cases hroute
        rw [List.partition_eq_filter_filter] at hp
        rw [← hstate d rfl]
        exact (Dispatcher.mem_parcels_split_iff.1 (List.mem_filter.1 hp).1).1

theorem Outward.begin (h : w.Outward here) (env : Conditions) (isLast : Bool) (sh : Shared) :
    (w.begin env isLast sh).1.Outward here := by
  unfold Worker.begin
  split
  · dsimp only
    split
    · exact h.of_eq rfl rfl
    · rename_i out _ hprocess
      obtain ⟨hparcels, hstate⟩ := outward_process h.routing (congrArg Prod.fst hprocess)
      refine ⟨fun x hx => ?_, hstate⟩
      obtain ⟨p, hp, hnode⟩ := node_of_mem_mailOf hx
      exact hnode ▸ hparcels p hp
  · exact h

end Worker

/-! ### Pipelines -/

def Pipeline.Outward {α : Type} (here : String) (p : Pipeline α) : Prop := ∀ w ∈ p.workers, w.Outward here

namespace Pipeline
variable {α : Type} {here : String} {p : Pipeline α}

theorem Outward.set (h : p.Outward here) {w : Worker α} (hw : w.Outward here) (i : Nat) :
    ({ p with workers := p.workers.set i w } : Pipeline α).Outward here := by
  intro v hv
  rcases List.mem_or_eq_of_mem_set hv with hv | rfl
  · exact h v hv
  · exact hw

theorem Outward.map (h : p.Outward here) {f : Worker α → Worker α} (hf : ∀ w : Worker α, w.Outward here → (f w).Outward here) :
    ({ p with workers := p.workers.map f } : Pipeline α).Outward here := by
  intro v hv
  obtain ⟨w, hw, rfl⟩ := List.mem_map.1 hv
  exact hf w (h w hw)

theorem outward_create (o : PipelineOptions) (here : String) (id : PipelineId) (kinds : Layout) :
    (create o here id kinds : Pipeline α).Outward here := by
  unfold create Outward
  induction kinds with
  | nil => exact fun _ hw => absurd hw List.not_mem_nil
  | cons k rest ih =>
    intro w hw
    rcases List.mem_cons.1 hw with rfl | hw
    · refine ⟨fun _ hx => absurd hx List.not_mem_nil, fun d hd => ?_⟩
      cases k with
      | aggregate | persist => cases hd
      | dispatch =>
        cases hd
        rfl
    · exact ih w hw

theorem Outward.sendAt (h : p.Outward here) (i : Nat) (s : Snapshot α) : (p.sendAt i s).2.Outward here := by
  unfold Pipeline.sendAt
  split
  · exact h
  · rename_i w hw
    have hsent : ({ w with queue := (w.queue.send s).2 } : Worker α).Outward here :=
      (h w (List.mem_of_getElem? hw)).of_eq rfl rfl
    exact h.set hsent i

theorem Outward.takeMail (h : p.Outward here) (i : Nat) :
    (∀ x, (p.takeMail i).1 = some x → x.1 ≠ here) ∧ (p.takeMail i).2.Outward here := by
  unfold Pipeline.takeMail
  split
  · exact ⟨fun _ hx => (by cases hx), h⟩
  · rename_i w hw
    have hworker := h w (List.mem_of_getElem? hw)
    exact ⟨fun x hx => hworker.mail x (List.mem_of_head? hx), h.set hworker.tail i⟩

theorem Outward.cancel (h : p.Outward here) (kind : StageKind) : (p.cancel kind).Outward here := by
  refine h.map fun w hw => ?_
  split
  · exact hw.of_eq rfl rfl
  · exact hw

theorem Outward.abandonStuck (h : p.Outward here) (kind : StageKind) : (p.abandonStuck kind).Outward here := by
  refine h.map fun w hw => ?_
  split
  · exact hw.of_eq rfl rfl
  · exact hw

theorem Outward.withLedger (h : p.Outward here) (l : Ledger α) : (p.withLedger l).Outward here := by
  refine h.map fun w hw => ?_
  split
  · exact ⟨hw.mail, fun _ hd => by cases hd⟩
  · exact hw

variable [Rollup α]

theorem Outward.begin (h : p.Outward here) (env : Conditions) (i : Nat) (sh : Shared) :
    (p.begin env i sh).1.Outward here := by
  unfold Pipeline.begin
  split
  · exact h
  · rename_i w hw
    exact h.set ((h w (List.mem_of_getElem? hw)).begin env _ sh) i

theorem Outward.handOn (h : p.Outward here) (i : Nat) (sh : Shared) : (p.handOn i sh).1.Outward here := by
  unfold Pipeline.handOn
  split
  · rename_i w next hw hnext
    split
    · exact h
    · rename_i s rest _
      have hgiven : ({ w with ready := rest } : Worker α).Outward here :=
        (h w (List.mem_of_getElem? hw)).of_eq rfl rfl
      have hsent : ({ next with queue := (next.queue.send s).2 } : Worker α).Outward here :=
        (h next (List.mem_of_getElem? hnext)).of_eq rfl rfl
      exact (h.set hgiven i).set hsent (i + 1)
  · exact h

theorem Outward.moves (h : p.Outward here) {q : Pipeline α} (hq : p.Moves q) : q.Outward here := by
  cases hq with
  | rest => exact h
  | send i s => exact h.sendAt i s
  | begin env i sh => exact h.begin env i sh
  | takeMail i => exact (h.takeMail i).2
  | handOn i sh => exact h.handOn i sh
  | flush l => exact h.withLedger l

end Pipeline

/-! ### Nodes -/

namespace Node

def Outward (n : Node) : Prop := ∀ a ∈ n.pipelines, a.pipeline.Outward n.name

variable {n : Node}

theorem Outward.set (h : n.Outward) {b : AnyPipeline} (hb : b.pipeline.Outward n.name) (i : Nat) (store : Store)
    (shared : Shared) : ({ n with pipelines := n.pipelines.set i b, store, shared } : Node).Outward := by
  intro a ha
  rcases List.mem_or_eq_of_mem_set ha with ha | rfl
  · exact h a ha
  · exact hb

theorem Outward.mapPipelines (h : n.Outward) {f : {α : Type} → Pipeline α → Pipeline α}
    (hf : ∀ {α : Type} (p : Pipeline α), p.Outward n.name → (f p).Outward n.name) : (n.mapPipelines f).Outward := by
  intro a ha
  obtain ⟨b, hb, rfl⟩ := List.mem_map.1 ha
  exact hf b.pipeline (h b hb)

/-- The states that a node gets to, from one without pipelines. Whatever else befalls it changes at
most its store and what its workers share. -/
inductive Reached : Node → Prop
  | start {n : Node} (h : n.pipelines = []) : Reached n
  | build {n : Node} (h : Reached n) (kind : RecordKind) (id : PipelineId) (kinds : Layout) (feed : Option AlarmFeed) :
      Reached (n.build kind id kinds feed).2
  | submit {n : Node} (h : Reached n) (kind : RecordKind) (id : PipelineId) (record : kind.Carrier) :
      Reached (n.submit kind id record).2
  | deliver {n : Node} (h : Reached n) (m : WireMessage) : Reached (n.deliver m).2
  | begin {n : Node} (h : Reached n) (env : Conditions) (i j : Nat) : Reached (n.begin env i j)
  | takeMail {n : Node} (h : Reached n) (i j : Nat) : Reached (n.takeMail i j).2
  | handOn {n : Node} (h : Reached n) (i j : Nat) : Reached (n.handOn i j)
  | flush {n : Node} (h : Reached n) {now : Instant} {i : Nat} {f : Flushed} (hf : n.flushAt now i = some f) :
      Reached f.node
  | cancel {n : Node} (h : Reached n) (kind : StageKind) : Reached (n.cancel kind)
  | abandonStuck {n : Node} (h : Reached n) (kind : StageKind) : Reached (n.abandonStuck kind)
  | elsewhere {n : Node} (h : Reached n) (store : Store) (shared : Shared) : Reached { n with store, shared }

theorem Outward.build (h : n.Outward) (kind : RecordKind) (id : PipelineId) (kinds : Layout) (feed : Option AlarmFeed) :
    (n.build kind id kinds feed).2.Outward := by
  unfold Node.build
  split
  · exact h
  · split
    · exact h
    · intro a ha
      rcases List.mem_append.1 ha with ha | ha
      · exact h a ha
      · rw [List.mem_singleton.1 ha]
        exact Pipeline.outward_create n.options n.name id kinds

theorem Outward.moved (h : n.Outward) {m : Node} (hm : n.Moved m) : m.Outward := by
  cases hm with
  | elsewhere store shared => exact h
  | @pipeline i a p ha hp store shared =>
    have hmoved : ({ a with pipeline := p } : AnyPipeline).pipeline.Outward n.name :=
      (h a (List.mem_of_getElem? ha)).moves hp
    exact h.set hmoved i store shared

theorem Outward.takeMail (h : n.Outward) (i j : Nat) : ∀ x, (n.takeMail i j).1 = some x → x.1 ≠ n.name := by
  unfold Node.takeMail
  split
  · exact fun _ hx => (by cases hx)
  · rename_i a ha
    exact ((h a (List.mem_of_getElem? ha)).takeMail j).1

/-- However a node came to be as it is, no worker has mail for it. -/
theorem Reached.outward (h : n.Reached) : n.Outward := by
  induction h with
  | start h => exact fun a ha => absurd (h ▸ ha) List.not_mem_nil
  | build _ kind id kinds feed ih => exact ih.build kind id kinds feed
  | submit _ kind id record ih => exact ih.moved (Node.moved_submit _ kind id record)
  | deliver _ m ih => exact ih.moved (Node.moved_deliver _ m)
  | begin _ env i j ih => exact ih.moved (Node.moved_begin _ env i j)
  | takeMail _ i j ih => exact ih.moved (Node.moved_takeMail _ i j)
  | handOn _ i j ih => exact ih.moved (Node.moved_handOn _ i j)
  | flush _ hf ih => exact ih.moved (Node.moved_flushAt _ hf)
  | cancel _ kind ih => exact ih.mapPipelines fun p hp => hp.cancel kind
  | abandonStuck _ kind ih => exact ih.mapPipelines fun p hp => hp.abandonStuck kind
  | elsewhere _ store shared ih => exact ih

end Node
end TraceRollup
