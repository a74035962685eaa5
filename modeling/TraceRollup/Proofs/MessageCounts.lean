import TraceRollup.Proofs.Delivery
import TraceRollup.Proofs.NodeRun
import TraceRollup.Proofs.Outward
import TraceRollup.Proofs.WireText

/-!
# Messages counted by their outcome

Every line that is posted is accepted or rejected once (`Receiver.exists_takes`). Three series count the
messages that come in, and nothing that workers do meanwhile touches them (`Node.Follows`). Of the lines
of a post they miss just those whose message is for a pipeline that the node does not have
(`Http.takeMessages_counts`).
-/

namespace TraceRollup

/-! ### A batch, line by line -/

namespace Receiver
variable {σ : Type} {r : Receiver σ} {s t : σ}

/-- Lines are taken one after the other. Every message is delivered, with an answer of its own, and a
line without one is only noted. -/
inductive Takes (r : Receiver σ) : σ → List (Option WireMessage) → List (WireMessage × Except Refusal Unit) → σ → Prop
  | done (s : σ) : Takes r s [] [] s
  | message {s t : σ} {m : WireMessage} {lines : List (Option WireMessage)}
      {answered : List (WireMessage × Except Refusal Unit)} (h : Takes r (r.deliver s m).2 lines answered t) :
      Takes r s (some m :: lines) ((m, (r.deliver s m).1) :: answered) t
  | malformed {s t : σ} {lines : List (Option WireMessage)} {answered : List (WireMessage × Except Refusal Unit)}
      (h : Takes r (r.malformed s) lines answered t) : Takes r s (none :: lines) answered t

variable {lines : List (Option WireMessage)} {answered : List (WireMessage × Except Refusal Unit)}

theorem Takes.messages (h : r.Takes s lines answered t) : answered.map Prod.fst = lines.filterMap id := by
  induction h with
  | done s => rfl
  | message _ ih =>
    rw [List.map_cons, ih]
    rfl
  | malformed _ ih => exact ih

theorem Takes.length (h : r.Takes s lines answered t) : answered.length + lines.countP Option.isNone = lines.length := by
  induction h with
  | done s => rfl
  | message _ ih =>
    rw [List.length_cons, List.length_cons, List.countP_cons_of_neg (by simp), ← ih]
    omega
  | malformed _ ih =>
    rw [List.length_cons, List.countP_cons_of_pos rfl, ← ih]
    omega

end Receiver
/-! ### Series of the messages that come in -/

/-- A series of messages under an outcome that no sender counts. -/
def Series.Inbound (s : Series) : Prop := ∃ outcome, s = .wireMessages outcome ∧ outcome ≠ "sent" ∧ outcome ≠ "failed"

theorem Series.inbound_received : (Series.wireMessages "received").Inbound := ⟨_, rfl, by decide, by decide⟩
theorem Series.inbound_rejected : (Series.wireMessages "rejected").Inbound := ⟨_, rfl, by decide, by decide⟩
theorem Series.inbound_malformed : (Series.wireMessages "malformed").Inbound := ⟨_, rfl, by decide, by decide⟩

namespace Worker
variable {α : Type} [Rollup α] {s : Series}

theorem inbound_countParcels (hs : s.Inbound) {outcome : String} (houtcome : outcome = "sent" ∨ outcome = "failed")
    (parcels : List Parcel) (c : Counters) : (Dispatcher.countParcels outcome parcels c).get s = c.get s := by
  obtain ⟨o, rfl, hsent, hfailed⟩ := hs
  have hne : Series.wireMessages o ≠ .wireMessages outcome := by
    intro heq
    cases heq
    exact houtcome.elim hsent hfailed
  unfold Dispatcher.countParcels
  induction parcels generalizing c with
  | nil => rfl
  | cons p rest ih =>
    rw [List.foldl_cons, ih, Counters.get_add, if_neg hne, Nat.add_zero]

theorem inbound_ring (hs : s.Inbound) (hash : PointHash) (r : Router) (c : Counters) :
    (r.ring hash c).counters.get s = c.get s := by
  obtain ⟨o, rfl, -, -⟩ := hs
  unfold Router.ring
  split
  · rfl
  · dsimp only
    split
    · exact Counters.get_put _ _ _ _
    · rfl

theorem inbound_process (hs : s.Inbound) (env : Conditions) (state : StageState α) (batch : List (Snapshot α))
    (sh : Shared) : (state.process env batch sh).2.counters.get s = sh.counters.get s := by
  cases state with
  | aggregate totals => rfl
  | persist ledger => rfl
  | dispatch d =>
    have hring := inbound_ring hs env.hash sh.router sh.counters
    simp only [StageState.process, Dispatcher.route]
    split
    · exact hring
    · rename_i r h
      split at h
      · cases h
      · cases h
        exact (inbound_countParcels hs (Or.inr rfl) _ _).trans ((inbound_countParcels hs (Or.inl rfl) _ _).trans hring)

theorem inbound_countRefusal (hs : s.Inbound) (sh : Shared) (tag : String) (stage : StageId)
    (answer : Except Refusal Unit) : (sh.countRefusal tag stage answer).counters.get s = sh.counters.get s := by
  obtain ⟨o, rfl, -, -⟩ := hs
  rw [Shared.get_countRefusal]
  cases answer with
  | ok _ => rfl
  | error e => simp [Shared.refusalIn]

theorem inbound_showLength (hs : s.Inbound) (w : Worker α) (sh : Shared) :
    (w.showLength sh).counters.get s = sh.counters.get s := by
  obtain ⟨o, rfl, -, -⟩ := hs
  exact (Counters.get_put _ _ _ _).trans (if_neg (by simp))

theorem inbound_begin (hs : s.Inbound) (env : Conditions) (isLast : Bool) (w : Worker α) (sh : Shared) :
    (w.begin env isLast sh).2.counters.get s = sh.counters.get s := by
  have hprocess := inbound_process hs env w.state w.nextBatch (w.countBatch sh)
  have hcount : (w.countBatch sh).counters.get s = sh.counters.get s := by
    rw [get_countBatch]
    obtain ⟨o, rfl, -, -⟩ := hs
    simp
  rw [hcount] at hprocess
  by_cases hcan : w.canBegin = true
  · simp only [nextBatch, countBatch] at hprocess
    simp only [begin, if_pos hcan]
    split
    · rename_i sh' heq
      rw [heq] at hprocess
      exact hprocess
    · rename_i out sh' heq
      rw [heq] at hprocess
      refine (inbound_showLength hs _ _).trans ?_
      rw [Shared.get_countDropped]
      obtain ⟨o, rfl, -, -⟩ := hs
      simpa using hprocess
  · rw [begin_of_not hcan]

end Worker

/-! ### Workers at work -/

/-- A node after its workers have moved. It has the same pipelines and has counted no message as come in. -/
structure Node.Follows (n m : Node) : Prop where
  name : m.name = n.name
  outline : m.outline = n.outline
  counts : ∀ s, s.Inbound → m.counters.get s = n.counters.get s

namespace Node
variable {n m : Node}

theorem Follows.refl (n : Node) : n.Follows n := ⟨rfl, rfl, fun _ _ => rfl⟩

theorem Follows.trans {l : Node} (h : n.Follows m) (h' : m.Follows l) : n.Follows l :=
  ⟨h'.name.trans h.name, h'.outline.trans h.outline, fun s hs => (h'.counts s hs).trans (h.counts s hs)⟩

theorem Follows.of_moved (h : n.Moved m) (hcounts : ∀ s, s.Inbound → m.counters.get s = n.counters.get s) :
    n.Follows m := ⟨h.name, h.outline, hcounts⟩

theorem follows_begin (env : Conditions) (n : Node) (i j : Nat) : n.Follows (n.begin env i j) := by
  refine .of_moved (n.moved_begin env i j) fun s hs => ?_
  unfold Node.begin
  split
  · rfl
  · simp only [counters, Pipeline.begin]
    split
    · rfl
    · exact Worker.inbound_begin hs env _ _ _

theorem follows_takeMail (n : Node) (i j : Nat) : n.Follows (n.takeMail i j).2 := by
  refine .of_moved (n.moved_takeMail i j) fun s hs => ?_
  unfold Node.takeMail
  split <;> rfl

theorem follows_handOn (n : Node) (i j : Nat) : n.Follows (n.handOn i j) := by
  refine .of_moved (n.moved_handOn i j) fun s hs => ?_
  unfold Node.handOn
  split
  · rfl
  · simp only [counters, Pipeline.handOn]
    split
    · split
      · rfl
      · exact (Worker.inbound_showLength hs _ _).trans (Worker.inbound_countRefusal hs _ _ _ _)
    · rfl

end Node

/-- A cluster of one node, the workers of which may have moved. -/
def Cluster.Lone (n : Node) (c : Cluster) : Prop := ∃ m, c.nodes = [m] ∧ n.Follows m ∧ m.Reached

namespace Cluster
variable {c : Cluster} {n : Node}

theorem Lone.modifyNode (h : c.Lone n) (k : Nat) {f : Node → Node}
    (hf : ∀ m : Node, m.Reached → m.Follows (f m) ∧ (f m).Reached) : (c.modifyNode k f).Lone n := by
  obtain ⟨m, hm, hfollows, hreached⟩ := h
  obtain ⟨hstep, hafter⟩ := hf m hreached
  unfold Cluster.modifyNode
  cases k with
  | zero => exact ⟨f m, by rw [hm]; rfl, hfollows.trans hstep, hafter⟩
  | succ k => exact ⟨m, by simp [hm], hfollows, hreached⟩

theorem Lone.begin (h : c.Lone n) (p : Place) : (c.begin p).Lone n :=
  h.modifyNode p.node fun m hm => ⟨m.follows_begin c.conditions p.pipeline p.stage, hm.begin _ _ _⟩

theorem Lone.handOn (h : c.Lone n) (p : Place) : (c.handOn p).Lone n :=
  h.modifyNode p.node fun m hm => ⟨m.follows_handOn p.pipeline p.stage, hm.handOn _ _⟩

theorem Lone.sendMail (h : c.Lone n) (p : Place) : (c.sendMail p).Lone n := by
  obtain ⟨m, hm, hfollows, hreached⟩ := h
  unfold Cluster.sendMail
  rw [hm]
  rcases p with ⟨k, i, j⟩
  cases k with
  | succ k => exact ⟨m, hm, hfollows, hreached⟩
  | zero =>
    have hmail := hreached.outward.takeMail i j
    have hafter : ({ c with nodes := [(m.takeMail i j).2] } : Cluster).Lone n :=
      ⟨_, rfl, hfollows.trans (m.follows_takeMail i j), hreached.takeMail i j⟩
    simp only [List.getElem?_cons_zero, List.set_cons_zero]
    cases hnext : (m.takeMail i j).1 with
    | none => exact hafter
    | some x =>
      -- it is for another node, and there is none here
      have hname : (m.takeMail i j).2.name ≠ x.1 := by
        rw [(m.follows_takeMail i j).name]
        exact (hmail x hnext).symm
      have hindex : Cluster.nodeIndex? { c with nodes := [(m.takeMail i j).2] } x.1 = none := by
        rw [nodeIndex?, List.findIdx?_singleton, if_neg (by simpa using hname)]
      dsimp only
      rw [hindex]
      exact hafter

theorem lasting_lone (n : Node) : Lasting (Lone n) where
  begin _ h := h.begin
  sendMail _ h := h.sendMail
  handOn _ h := h.handOn

/-! ### Posted messages -/

theorem Lone.deliver (h : c.Lone n) (m : WireMessage) :
    ∃ l : Node, n.Follows l ∧ l.Reached ∧ (c.deliver 0 m).1 = (l.deliver m).1 ∧
      (c.deliver 0 m).2.nodes = [(l.deliver m).2] := by
  have hnow : ∀ c : Cluster, c.Lone n → ∃ l : Node, n.Follows l ∧ l.Reached ∧
      (c.deliverNow 0 m).1 = (l.deliver m).1 ∧ (c.deliverNow 0 m).2.nodes = [(l.deliver m).2] := by
    intro c ⟨l, hl, hfollows, hreached⟩
    refine ⟨l, hfollows, hreached, ?_⟩
    simp only [Cluster.deliverNow, hl, List.getElem?_cons_zero, List.set_cons_zero, true_and]
  unfold Cluster.deliver
  dsimp only
  split
  · exact hnow _ ((lasting_lone n).makeRoom h _)
  · exact hnow c h

end Cluster

namespace Node
variable {n : Node}

theorem contains_eq (n : Node) (id : PipelineId) : n.contains id = n.outline.any fun o => decide (o.2.1 = id) := by
  rw [contains, position?_eq, List.findIdx?_isSome]

/-- A message for a pipeline of the node is counted by its outcome; any other is refused and not counted. -/
theorem deliver_cases (n : Node) (m : WireMessage) :
    (n.contains m.pipeline = false ∧ n.deliver m = (.error (.unknownPipeline m.pipeline), n)) ∨
      n.contains m.pipeline = true ∧ ∃ i a, n.pipelines[i]? = some a ∧
        n.deliver m = ((a.pipeline.deliver m).1, { n with
          pipelines := n.pipelines.set i { a with pipeline := (a.pipeline.deliver m).2 }
          shared := n.shared.count
            (.wireMessages (if (a.pipeline.deliver m).1.isOk then "received" else "rejected")) 1 }) := by
  unfold contains deliver
  cases hposition : n.position? m.pipeline with
  | none => exact Or.inl ⟨rfl, rfl⟩
  | some i =>
    obtain ⟨hlt, -⟩ := List.findIdx?_eq_some_iff_getElem.1 hposition
    have ha : n.pipelines[i]? = some n.pipelines[i] := List.getElem?_eq_getElem hlt
    exact Or.inr ⟨rfl, i, _, ha, by simp only [ha]⟩

theorem get_deliver (n : Node) (m : WireMessage) (s : Series) :
    (n.deliver m).2.counters.get s = n.counters.get s +
      if n.contains m.pipeline = true ∧ s = .wireMessages (if (n.deliver m).1.isOk then "received" else "rejected")
      then 1 else 0 := by
  rcases n.deliver_cases m with ⟨hnone, h⟩ | ⟨hknown, i, a, -, h⟩
  · rw [h, hnone]
    simp
  · rw [h, hknown]
    simp only [true_and]
    exact Counters.get_add _ _ _ _

theorem contains_of_isOk {n : Node} {m : WireMessage} (h : (n.deliver m).1.isOk = true) :
    n.contains m.pipeline = true := by
  rcases n.deliver_cases m with ⟨-, hdeliver⟩ | ⟨hknown, -⟩
  · rw [hdeliver] at h
    cases h
  · exact hknown

theorem contains_congr {n m : Node} (h : m.outline = n.outline) : m.contains = n.contains := by
  funext id
  rw [contains_eq, contains_eq, h]

end Node

namespace Cluster
variable {n : Node} {lines : List (Option WireMessage)} {answered : List (WireMessage × Except Refusal Unit)}

def refusedAt (n : Node) (x : WireMessage × Except Refusal Unit) : Bool := !x.2.isOk && n.contains x.1.pipeline

/-- What a lone node has counted once it has taken some lines. A message for a pipeline that it does not
have is not in the counts. -/
structure Posted (n : Node) (lines : List (Option WireMessage)) (answered : List (WireMessage × Except Refusal Unit))
    (m : Node) : Prop where
  outline : m.outline = n.outline
  received : m.counters.get (.wireMessages "received") =
    n.counters.get (.wireMessages "received") + answered.countP fun x => x.2.isOk
  rejected : m.counters.get (.wireMessages "rejected") =
    n.counters.get (.wireMessages "rejected") + answered.countP (refusedAt n)
  malformed : m.counters.get (.wireMessages "malformed") =
    n.counters.get (.wireMessages "malformed") + lines.countP Option.isNone
  each : answered.length = (answered.countP fun x => x.2.isOk) + answered.countP (refusedAt n) +
    answered.countP fun x => !n.contains x.1.pipeline

theorem Posted.nothing {m : Node} (h : n.Follows m) : Posted n [] [] m :=
  ⟨h.outline, h.counts _ Series.inbound_received, h.counts _ Series.inbound_rejected,
    h.counts _ Series.inbound_malformed, rfl⟩

theorem outcome_cases (known ok : Bool) (hok : ok = true → known = true) :
    ((known = true ∧ Series.wireMessages "received" = .wireMessages (if ok then "received" else "rejected")) ↔ ok = true) ∧
      ((known = true ∧ Series.wireMessages "rejected" = .wireMessages (if ok then "received" else "rejected")) ↔
        (!ok && known) = true) ∧
      ¬ (known = true ∧ Series.wireMessages "malformed" = .wireMessages (if ok then "received" else "rejected")) := by
  cases ok with
  | true => simp [hok rfl]
  | false => simp

theorem Posted.message {l t : Node} {m : WireMessage} (hl : n.Follows l) (h : Posted (l.deliver m).2 lines answered t) :
    Posted n (some m :: lines) ((m, (l.deliver m).1) :: answered) t := by
  have houtline : (l.deliver m).2.outline = n.outline := (l.moved_deliver m).outline.trans hl.outline
  have hok : (l.deliver m).1.isOk = true → n.contains m.pipeline = true := fun hok =>
    Node.contains_congr hl.outline ▸ Node.contains_of_isOk hok
  have hget : ∀ s, s.Inbound → (l.deliver m).2.counters.get s = n.counters.get s +
      if n.contains m.pipeline = true ∧ s = .wireMessages (if (l.deliver m).1.isOk then "received" else "rejected")
      then 1 else 0 := by
    intro s hs
    rw [l.get_deliver, hl.counts s hs, Node.contains_congr hl.outline]
  have hrefused : refusedAt (l.deliver m).2 = refusedAt n := by
    unfold refusedAt
    rw [Node.contains_congr houtline]
  have hrejected := h.rejected
  have heach := h.each
  rw [hrefused] at hrejected heach
  rw [Node.contains_congr houtline] at heach
  obtain ⟨hcountReceived, hcountRejected, hcountMalformed⟩ := outcome_cases _ _ hok
  rw [show (!(l.deliver m).1.isOk && n.contains m.pipeline) = refusedAt n (m, (l.deliver m).1) from rfl] at hcountRejected
  refine ⟨h.outline.trans houtline, ?_, ?_, ?_, ?_⟩
  · rw [h.received, hget _ Series.inbound_received, List.countP_cons]
    simp only [hcountReceived]
    omega
  · rw [hrejected, hget _ Series.inbound_rejected, List.countP_cons]
    simp only [hcountRejected]
    omega
  · rw [h.malformed, hget _ Series.inbound_malformed, if_neg hcountMalformed, Nat.add_zero,
      List.countP_cons_of_neg (by simp)]
  · rw [List.length_cons, heach, List.countP_cons, List.countP_cons, List.countP_cons]
    -- taken, refused here and gone astray exclude each other
    cases hanswer : (l.deliver m).1.isOk with
    | true =>
      simp only [refusedAt, hanswer, hok hanswer, Bool.not_true, Bool.false_and, Bool.false_eq_true, if_true, if_false]
      omega
    | false =>
      cases hknown : n.contains m.pipeline with
      | true =>
        simp only [refusedAt, hanswer, hknown, Bool.not_true, Bool.not_false, Bool.and_self, Bool.false_eq_true, if_true,
          if_false]
        omega
      | false =>
        simp only [refusedAt, hanswer, hknown, Bool.not_false, Bool.and_false, Bool.false_eq_true, if_true, if_false]
        omega

end Cluster

namespace Http

def shown (n : Node) : Nat × Nat × Nat :=
  (n.counters.get (.wireMessages "received"), n.counters.get (.wireMessages "rejected"),
    n.counters.get (.wireMessages "malformed"))

end Http
end TraceRollup
