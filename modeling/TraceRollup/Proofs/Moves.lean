import TraceRollup.Cluster.Schedule

/-!
# What moves at a node

Whatever is submitted, delivered, worked on, handed on or flushed at a node, at most one of its
pipelines moves, and that by one small step of one worker (`Node.Moved`). What these steps keep
holds after all that can happen. In the same way, what the three steps of a worker's turn keep
lasts until nothing queued in a cluster can move (`Cluster.Lasting`).
-/

namespace TraceRollup

/-! ### One pipeline -/

/-- A small step of a pipeline, or none. -/
inductive Pipeline.Moves {α : Type} [Rollup α] (p : Pipeline α) : Pipeline α → Prop
  | rest : Moves p p
  | send (i : Nat) (s : Snapshot α) : Moves p (p.sendAt i s).2
  | begin (env : Conditions) (i : Nat) (sh : Shared) : Moves p (p.begin env i sh).1
  | takeMail (i : Nat) : Moves p (p.takeMail i).2
  | handOn (i : Nat) (sh : Shared) : Moves p (p.handOn i sh).1
  | flush (l : Ledger α) : Moves p (p.withLedger l)

namespace Pipeline
variable {α : Type} [Rollup α] (p : Pipeline α)

theorem moves_submit (here : String) (record : α) (sh : Shared) : p.Moves (p.submit here record sh).2.1 := by
  unfold submit
  dsimp only
  split
  · exact .rest
  · exact .send 0 _

theorem moves_deliver (message : WireMessage) : p.Moves (p.deliver message).2 := by
  unfold deliver
  split
  · exact .rest
  · split
    · exact .rest
    · split
      · exact .rest
      · exact .send _ _

variable {p}

theorem Moves.id {q : Pipeline α} (h : p.Moves q) : q.id = p.id := by
  cases h with
  | rest => rfl
  | send i s =>
    unfold Pipeline.sendAt
    split <;> rfl
  | begin env i sh =>
    unfold Pipeline.begin
    split <;> rfl
  | takeMail i =>
    unfold Pipeline.takeMail
    split <;> rfl
  | handOn i sh =>
    unfold Pipeline.handOn
    split
    · split <;> rfl
    · rfl
  | flush l => rfl

end Pipeline

/-! ### One node -/

/-- At most one pipeline has moved. The store and what the workers share may be others. -/
inductive Node.Moved (n : Node) : Node → Prop
  | elsewhere (store : Store) (shared : Shared) : Moved n { n with store, shared }
  | pipeline {i : Nat} {a : AnyPipeline} {p : Pipeline a.kind.Carrier} (ha : n.pipelines[i]? = some a)
      (hp : a.pipeline.Moves p) (store : Store) (shared : Shared) :
      Moved n { n with pipelines := n.pipelines.set i { a with pipeline := p }, store, shared }

namespace Node
variable (n : Node)

theorem Moved.refl : n.Moved n := .elsewhere n.store n.shared

theorem Moved.name {n m : Node} (h : n.Moved m) : m.name = n.name := by
  cases h <;> rfl

theorem moved_submit (kind : RecordKind) (id : PipelineId) (record : kind.Carrier) :
    n.Moved (n.submit kind id record).2 := by
  unfold submit
  split
  · exact .refl n
  · split
    · exact .refl n
    · rename_i a ha
      split
      · exact .pipeline ha (a.pipeline.moves_submit n.name _ n.shared) n.store _
      · exact .refl n

theorem moved_deliver (message : WireMessage) : n.Moved (n.deliver message).2 := by
  unfold deliver
  split
  · exact .refl n
  · split
    · exact .refl n
    · rename_i a ha
      exact .pipeline ha (a.pipeline.moves_deliver message) n.store _

theorem moved_begin (env : Conditions) (i j : Nat) : n.Moved (n.begin env i j) := by
  unfold begin
  split
  · exact .refl n
  · rename_i a ha
    exact .pipeline ha (.begin env j n.shared) n.store _

theorem moved_takeMail (i j : Nat) : n.Moved (n.takeMail i j).2 := by
  unfold takeMail
  split
  · exact .refl n
  · rename_i a ha
    exact .pipeline ha (.takeMail j) n.store n.shared

theorem moved_handOn (i j : Nat) : n.Moved (n.handOn i j) := by
  unfold handOn
  split
  · exact .refl n
  · rename_i a ha
    exact .pipeline ha (.handOn j n.shared) n.store _

theorem moved_flushAt {now : Instant} {i : Nat} {f : Flushed} (hf : n.flushAt now i = some f) : n.Moved f.node := by
  unfold flushAt at hf
  split at hf
  · cases hf
    exact .refl n
  · rename_i a ha
    split at hf
    · cases hf
      exact .refl n
    · obtain ⟨g, -, hrest⟩ := Option.bind_eq_some_iff.1 hf
      obtain ⟨alarms, -, hnode⟩ := Option.bind_eq_some_iff.1 hrest
      cases hnode
      exact .pipeline ha (.flush g.ledger) g.store _

end Node

/-! ### Turns -/

namespace Cluster

/-- Kept by each of the things that a worker does in its turn. -/
structure Lasting (P : Cluster → Prop) : Prop where
  begin : ∀ c, P c → ∀ p, P (c.begin p)
  sendMail : ∀ c, P c → ∀ p, P (c.sendMail p)
  handOn : ∀ c, P c → ∀ p, P (c.handOn p)

namespace Lasting
variable {P : Cluster → Prop} {c : Cluster}

theorem makeRoom_of {turn : Cluster → Place → Cluster} (hturn : ∀ c, P c → ∀ p, P (turn c p)) (h : P c) (p : Place) :
    P (c.makeRoom turn p) := by
  unfold Cluster.makeRoom
  split
  · exact hturn c h p
  · exact h

variable (hP : Lasting P)

include hP

theorem turn (depth : Nat) (h : P c) (p : Place) : P (c.turn depth p) := by
  -- a worker whose mail or record finds a full queue gives a turn, one level less deep, to the worker behind it
  induction depth generalizing c p with
  | zero => exact h
  | succ depth ih =>
    have hroom : ∀ c, P c → ∀ q, P (c.makeRoom (Cluster.turn depth) q) := fun c hc =>
      makeRoom_of (fun _ hd => ih hd) hc
    have hmail : P ((List.range ((c.begin p).countAt (fun w => w.mail.length) p)).foldl
        (fun c _ => c.sendMailWaiting (Cluster.turn depth) p) (c.begin p)) := by
      refine List.foldlRecOn _ _ (hP.begin c h p) fun c hc _ _ => ?_
      unfold sendMailWaiting
      split
      · exact hP.sendMail _ (hroom c hc _) p
      · exact hP.sendMail c hc p
    exact List.foldlRecOn _ _ hmail fun c hc _ _ => hP.handOn _ (hroom c hc _) p

theorem makeRoom (h : P c) (p : Place) : P (c.makeRoom (Cluster.turn maxDepth) p) :=
  makeRoom_of (fun _ hc => hP.turn maxDepth hc) h p

theorem settleWithin (fuel : Nat) (h : P c) : P (c.settleWithin fuel) := by
  induction fuel generalizing c with
  | zero => exact h
  | succ fuel ih =>
    unfold Cluster.settleWithin
    split
    · exact h
    · exact ih (hP.turn maxDepth h _)

theorem settle (h : P c) : P c.settle := hP.settleWithin _ h

end Lasting
end Cluster
end TraceRollup
