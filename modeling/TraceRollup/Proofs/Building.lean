import Mathlib.Data.List.Infix
import TraceRollup.Proofs.Delivery
import TraceRollup.Proofs.Ranges

/-!
# Building pipelines one after another

A build is accepted when its layout is sound and its number is free, and then nothing changes but that the
new pipeline comes last; otherwise nothing changes at all. So a node holds exactly the pipelines of the builds
it accepted (`Node.buildEach?_exact`). Only queues that would be too large keep a sound layout from an answer.
-/

namespace TraceRollup

/-! ### Sound layouts -/

/-- What may come after the stages seen. -/
structure IsContinuation (seen kinds : Layout) : Prop where
  nodup : kinds.Nodup
  unseen : ∀ k ∈ kinds, k ∉ seen
  finished : .persist ∈ seen → kinds = []
  persist_last : ∀ before after, kinds = before ++ StageKind.persist :: after → after = []
  dispatch_not_last : ∀ before, kinds ≠ before ++ [StageKind.dispatch]

theorem isContinuation_nil (seen : Layout) : IsContinuation seen [] where
  nodup := List.nodup_nil
  unseen _ hk := absurd hk List.not_mem_nil
  finished _ := rfl
  persist_last _ _ h := absurd h (List.append_ne_nil_of_right_ne_nil _ (List.cons_ne_nil _ _)).symm
  dispatch_not_last _ := (List.append_ne_nil_of_right_ne_nil _ (List.cons_ne_nil _ _)).symm

theorem isContinuation_cons {seen : Layout} {k : StageKind} {rest : Layout} : IsContinuation seen (k :: rest) ↔
    k ∉ seen ∧ .persist ∉ seen ∧ ¬ (k = .dispatch ∧ rest = []) ∧ IsContinuation (seen ++ [k]) rest := by
  constructor
  · intro h
    have hnodup := List.nodup_cons.1 h.nodup
    refine ⟨h.unseen k List.mem_cons_self, fun hin => absurd (h.finished hin) (List.cons_ne_nil _ _), ?_,
      hnodup.2, fun j hj hin => ?_, fun hin => ?_, fun before after heq => ?_, fun before heq => ?_⟩
    · rintro ⟨rfl, rfl⟩
      exact h.dispatch_not_last [] rfl
    · rcases List.mem_append.1 hin with hin | hin
      · exact h.unseen j (List.mem_cons_of_mem k hj) hin
      · exact hnodup.1 (List.mem_singleton.1 hin ▸ hj)
    · rcases List.mem_append.1 hin with hin | hin
      · exact absurd (h.finished hin) (List.cons_ne_nil _ _)
      · rw [← List.mem_singleton.1 hin] at h
        exact h.persist_last [] rest rfl
    · exact h.persist_last (k :: before) after (congrArg (k :: ·) heq)
    · exact h.dispatch_not_last (k :: before) (congrArg (k :: ·) heq)
  · rintro ⟨hnew, hopen, hdispatch, h⟩
    have hunseen : ∀ j ∈ rest, j ∉ seen ∧ j ≠ k := fun j hj => by
      simpa only [List.mem_append, List.mem_singleton, not_or] using h.unseen j hj
    refine ⟨List.nodup_cons.2 ⟨fun hk => (hunseen k hk).2 rfl, h.nodup⟩, fun j hj => ?_, fun hin => absurd hin hopen,
      fun before after heq => ?_, fun before heq => ?_⟩
    · rcases List.mem_cons.1 hj with rfl | hj
      · exact hnew
      · exact (hunseen j hj).1
    · cases before with
      | nil =>
        obtain ⟨rfl, rfl⟩ := List.cons.inj heq
        exact h.finished (List.mem_append_right _ List.mem_cons_self)
      | cons first before => exact h.persist_last before after (List.cons.inj heq).2
    · cases before with
      | nil => exact hdispatch (List.cons.inj heq)
      | cons first before => exact h.dispatch_not_last before (List.cons.inj heq).2

theorem checkStages_eq_ok_iff {p : PipelineId} {seen kinds : Layout} :
    checkStages p seen kinds = .ok () ↔ IsContinuation seen kinds := by
  induction kinds generalizing seen with
  | nil => exact ⟨fun _ => isContinuation_nil seen, fun _ => rfl⟩
  | cons k rest ih =>
    rw [isContinuation_cons, ← ih]
    constructor
    · exact checkStages_cons
    · rintro ⟨hnew, hopen, hdispatch, hrest⟩
      rw [checkStages]
      simp only [hnew, hopen, hdispatch, if_false]
      exact hrest

/-- The checks, made in their order, say what a sound layout is without any order. -/
theorem checkLayout_eq_ok_iff {p : PipelineId} {kinds : Layout} : checkLayout p kinds = .ok () ↔ IsLayout kinds := by
  unfold checkLayout
  split
  · rename_i hnil
    constructor
    · intro h
      cases h
    · intro h
      exact absurd hnil h.nonempty
  · rename_i hne
    rw [checkStages_eq_ok_iff]
    constructor
    · intro h
      exact ⟨hne, h.nodup, h.persist_last, h.dispatch_not_last⟩
    · intro h
      exact ⟨h.nodup, fun _ _ => List.not_mem_nil, fun hin => absurd hin List.not_mem_nil, h.persist_last,
        h.dispatch_not_last⟩

instance (kinds : Layout) : Decidable (IsLayout kinds) :=
  decidable_of_iff (checkLayout ⟨0⟩ kinds = .ok ()) checkLayout_eq_ok_iff

/-! ### One build -/

namespace Node

/-- The pipeline that is built from a blueprint. -/
def install (n : Node) (b : Blueprint) : AnyPipeline :=
  ⟨b.kind, Pipeline.create n.options n.name b.id b.layout, b.feed⟩

def add (n : Node) (b : Blueprint) : Node := { n with pipelines := n.pipelines ++ [n.install b] }

/-- Queues that are too large are asked for only once the layout is found sound. -/
def BeyondRange (n : Node) (b : Blueprint) : Prop :=
  StageQueue.maxCapacity < n.options.queueCapacity ∧ IsLayout b.layout

def Accepts (n : Node) (b : Blueprint) : Prop := IsLayout b.layout ∧ n.contains b.id = false

theorem contains_add (n : Node) (b : Blueprint) (id : PipelineId) :
    (n.add b).contains id = (n.contains id || decide (b.id = id)) := by
  simp only [contains, position?, List.findIdx?_isSome, add, List.any_append, List.any_cons, List.any_nil, Bool.or_false]
  rfl

/-- All that a build can do. -/
theorem build?_cases (n : Node) (b : Blueprint) :
    (n.BeyondRange b ∧ n.build? b.kind b.id b.layout b.feed = none) ∨
    (¬ n.BeyondRange b ∧ n.Accepts b ∧ n.build? b.kind b.id b.layout b.feed = some (.ok (), n.add b)) ∨
    (¬ n.BeyondRange b ∧ ¬ n.Accepts b ∧ ∃ e, n.build? b.kind b.id b.layout b.feed = some (.error e, n)) := by
  rw [build?_eq]
  by_cases hbeyond : n.BeyondRange b
  · exact Or.inl ⟨hbeyond, if_pos ⟨checkLayout_eq_ok_iff.2 hbeyond.2, hbeyond.1⟩⟩
  · rw [if_neg fun h => hbeyond ⟨h.2, checkLayout_eq_ok_iff.1 h.1⟩]
    refine Or.inr ?_
    unfold build
    cases hlayout : checkLayout b.id b.layout with
    | error e =>
      refine Or.inr ⟨hbeyond, fun haccepts => ?_, e, rfl⟩
      rw [checkLayout_eq_ok_iff.2 haccepts.1] at hlayout
      cases hlayout
    | ok _ =>
      cases hfree : n.contains b.id with
      | true =>
        refine Or.inr ⟨hbeyond, fun haccepts => ?_, .duplicatePipeline b.id, by simp only [if_true]⟩
        rw [haccepts.2] at hfree
        cases hfree
      | false =>
        refine Or.inl ⟨hbeyond, ⟨checkLayout_eq_ok_iff.1 hlayout, hfree⟩, ?_⟩
        simp only [Bool.false_eq_true, if_false]
        rfl

/-! ### Many builds -/

/-- Builds one after another, each answered. None if one has no answer. -/
def buildEach? (n : Node) : List Blueprint → Option (List (Except BuildError Unit) × Node)
  | [] => some ([], n)
  | b :: rest => do
    let (answer, n) ← n.build? b.kind b.id b.layout b.feed
    let (answers, n) ← buildEach? n rest
    return (answer :: answers, n)

end Node

/-- The blueprints whose builds were accepted. -/
def Blueprint.built (bs : List Blueprint) (answers : List (Except BuildError Unit)) : List Blueprint :=
  (bs.zip answers).filterMap fun x => if x.2.isOk then some x.1 else none

namespace Node
variable {n m : Node} {bs : List Blueprint} {answers : List (Except BuildError Unit)}

theorem buildEach?_cons {b : Blueprint} {answer : Except BuildError Unit}
    (h : n.build? b.kind b.id b.layout b.feed = some (answer, m)) (rest : List Blueprint) :
    n.buildEach? (b :: rest) = (m.buildEach? rest).map fun r => (answer :: r.1, r.2) := by
  rw [buildEach?, h]
  cases hrest : m.buildEach? rest with
  | none => simp only [Option.bind_eq_bind, Option.bind_some, hrest]; rfl
  | some r => simp only [Option.bind_eq_bind, Option.bind_some, hrest]; rfl

/-- A later build is beyond the range exactly if it would be the first. -/
theorem buildEach?_eq_none_iff (n : Node) (bs : List Blueprint) :
    n.buildEach? bs = none ↔ ∃ b ∈ bs, n.BeyondRange b := by
  induction bs generalizing n with
  | nil =>
    constructor
    · intro h
      cases h
    · rintro ⟨b, hb, -⟩
      exact absurd hb List.not_mem_nil
  | cons b rest ih =>
    rw [List.exists_mem_cons_iff]
    rcases n.build?_cases b with ⟨hbeyond, h⟩ | ⟨hrange, -, h⟩ | ⟨hrange, -, e, h⟩
    · rw [buildEach?, h]
      exact ⟨fun _ => Or.inl hbeyond, fun _ => rfl⟩
    · rw [buildEach?_cons h, Option.map_eq_none_iff, or_iff_right hrange]
      exact ih (n.add b)
    · rw [buildEach?_cons h, Option.map_eq_none_iff, or_iff_right hrange]
      exact ih n

/-- The builds that an answer tells apart: a build is accepted if its layout is sound and its number neither taken
at the start nor by a build accepted before. -/
def AnswersFit (n : Node) (bs : List Blueprint) (answers : List (Except BuildError Unit)) : Prop :=
  ∀ (i : Nat) (b : Blueprint), bs[i]? = some b → (answers[i]? = some (.ok ()) ↔ n.Accepts b ∧
    ∀ (j : Nat), j < i → ∀ c : Blueprint, bs[j]? = some c → answers[j]? = some (.ok ()) → c.id ≠ b.id)

structure Outcome (n : Node) (bs : List Blueprint) (answers : List (Except BuildError Unit)) (m : Node) : Prop where
  length_eq : answers.length = bs.length
  fit : n.AnswersFit bs answers
  node_eq : m = { n with pipelines := n.pipelines ++ (Blueprint.built bs answers).map n.install }
  alone : n.buildEach? (Blueprint.built bs answers) =
    some (List.replicate (Blueprint.built bs answers).length (.ok ()), m)

theorem outcome_nil (n : Node) : n.Outcome [] [] n where
  length_eq := rfl
  fit _ _ h := by cases h
  node_eq := by rw [Blueprint.built, List.zip_nil_left, List.filterMap_nil, List.map_nil, List.append_nil]
  alone := rfl

theorem Outcome.accepted {b : Blueprint} (haccepts : n.Accepts b)
    (hbuild : n.build? b.kind b.id b.layout b.feed = some (.ok (), n.add b))
    (h : (n.add b).Outcome bs answers m) : n.Outcome (b :: bs) (.ok () :: answers) m where
  length_eq := congrArg Nat.succ h.length_eq
  fit i c hc := by
    cases i with
    | zero =>
      cases hc
      exact ⟨fun _ => ⟨haccepts, fun _ hj => absurd hj (Nat.not_lt_zero _)⟩, fun _ => rfl⟩
    | succ i =>
      rw [List.getElem?_cons_succ] at hc ⊢
      rw [h.fit i c hc, Nat.forall_lt_succ_left]
      simp only [Accepts, contains_add, Bool.or_eq_false_iff, decide_eq_false_iff_not, List.getElem?_cons_zero,
        List.getElem?_cons_succ, Option.some.injEq, forall_eq', forall_const]
      tauto
  node_eq := by
    have hbuilt : Blueprint.built (b :: bs) (.ok () :: answers) = b :: Blueprint.built bs answers := rfl
    rw [h.node_eq, hbuilt, List.map_cons, List.append_cons]
    rfl
  alone := by
    have hbuilt : Blueprint.built (b :: bs) (.ok () :: answers) = b :: Blueprint.built bs answers := rfl
    rw [hbuilt, buildEach?_cons hbuild, h.alone]
    rfl

theorem Outcome.refused {b : Blueprint} {e : BuildError} (hrefuses : ¬ n.Accepts b)
    (h : n.Outcome bs answers m) : n.Outcome (b :: bs) (.error e :: answers) m where
  length_eq := congrArg Nat.succ h.length_eq
  fit i c hc := by
    cases i with
    | zero =>
      cases hc
      constructor
      · intro hok
        cases hok
      · intro haccepts
        exact absurd haccepts.1 hrefuses
    | succ i =>
      rw [List.getElem?_cons_succ] at hc ⊢
      rw [h.fit i c hc, Nat.forall_lt_succ_left]
      simp only [List.getElem?_cons_zero, List.getElem?_cons_succ, Option.some.injEq, reduceCtorEq, false_imp_iff,
        implies_true, true_and]
  node_eq := h.node_eq
  alone := h.alone

theorem outcome_buildEach (h : n.buildEach? bs = some (answers, m)) : n.Outcome bs answers m := by
  induction bs generalizing n answers with
  | nil =>
    cases h
    exact outcome_nil _
  | cons b rest ih =>
    rcases n.build?_cases b with ⟨-, hbuild⟩ | ⟨-, haccepts, hbuild⟩ | ⟨-, hrefuses, e, hbuild⟩
    · rw [buildEach?, hbuild] at h
      cases h
    · rw [buildEach?_cons hbuild, Option.map_eq_some_iff] at h
      obtain ⟨r, hrest, heq⟩ := h
      cases heq
      exact (ih hrest).accepted haccepts hbuild
    · rw [buildEach?_cons hbuild, Option.map_eq_some_iff] at h
      obtain ⟨r, hrest, heq⟩ := h
      cases heq
      exact (ih hrest).refused hrefuses

theorem buildAll_of_buildEach (h : n.buildEach? bs = some (answers, m)) : n.buildAll bs = m := by
  induction bs generalizing n answers with
  | nil =>
    cases h
    rfl
  | cons b rest ih =>
    cases hbuild : n.build? b.kind b.id b.layout b.feed with
    | none =>
      rw [buildEach?, hbuild] at h
      cases h
    | some r =>
      rw [buildEach?_cons hbuild, Option.map_eq_some_iff] at h
      obtain ⟨others, hrest, heq⟩ := h
      cases heq
      rw [build?_eq] at hbuild
      split at hbuild
      · cases hbuild
      · cases hbuild
        exact ih hrest

end Node

/-! ### Ledgers -/

theorem IsLayout.persist_mem_iff {kinds : Layout} (h : IsLayout kinds) :
    .persist ∈ kinds ↔ kinds.getLast? = some .persist := by
  constructor
  · intro hmem
    obtain ⟨before, after, rfl⟩ := List.append_of_mem hmem
    rw [h.persist_last before after rfl, List.getLast?_concat]
  · exact List.mem_of_getLast?

theorem Pipeline.ledgers_create {k : RecordKind} (o : PipelineOptions) (here : String) (id : PipelineId)
    (kinds : Layout) :
    (Pipeline.create (α := k.Carrier) o here id kinds).workers.filterMap Worker.ledger? =
      List.replicate (kinds.count .persist) (Ledger.create id o.window o.batchSize) := by
  unfold create
  induction kinds with
  | nil => rfl
  | cons kind rest ih =>
    rw [createWorkers, List.filterMap_cons, ih]
    cases kind with
    | aggregate | dispatch => rfl
    | persist =>
      rw [List.count_cons_self, List.replicate_succ]
      rfl

namespace Node
variable {n m : Node} {bs : List Blueprint} {answers : List (Except BuildError Unit)}

/-- The ledgers that a flush writes out, pipeline by pipeline. -/
def flushTargets (n : Node) : List ((k : RecordKind) × Ledger k.Carrier) :=
  n.pipelines.flatMap fun a => (a.pipeline.workers.filterMap Worker.ledger?).map (Sigma.mk a.kind)

/-- The ledger of a pipeline that stores at its end. -/
def target? (n : Node) (b : Blueprint) : Option ((k : RecordKind) × Ledger k.Carrier) :=
  if b.layout.getLast? = some .persist then some ⟨b.kind, Ledger.create b.id n.options.window n.options.batchSize⟩
  else none

theorem ledgers_install (n : Node) {b : Blueprint} (h : IsLayout b.layout) :
    ((n.install b).pipeline.workers.filterMap Worker.ledger?).map (Sigma.mk (n.install b).kind) =
      (n.target? b).toList := by
  have hcount : b.layout.count .persist = if b.layout.getLast? = some .persist then 1 else 0 := by
    simp only [← h.persist_mem_iff]
    exact h.nodup.count
  rw [install, Pipeline.ledgers_create, hcount, target?]
  split <;> rfl

theorem mem_built_iff {b : Blueprint} :
    b ∈ Blueprint.built bs answers ↔ ∃ i : Nat, bs[i]? = some b ∧ answers[i]? = some (.ok ()) := by
  rw [Blueprint.built, List.mem_filterMap]
  constructor
  · rintro ⟨⟨c, answer⟩, hmem, hok⟩
    obtain ⟨i, hi⟩ := List.mem_iff_getElem?.1 hmem
    obtain ⟨hb, hanswer⟩ := List.getElem?_zip_eq_some.1 hi
    cases answer with
    | error e => cases hok
    | ok _ =>
      cases hok
      exact ⟨i, hb, hanswer⟩
  · rintro ⟨i, hb, hanswer⟩
    exact ⟨(b, .ok ()), List.mem_iff_getElem?.2 ⟨i, List.getElem?_zip_eq_some.2 ⟨hb, hanswer⟩⟩, rfl⟩

theorem contains_eq_true_iff {id : PipelineId} : n.contains id = true ↔ ∃ a ∈ n.pipelines, a.id = id := by
  rw [contains, position?, List.findIdx?_isSome, List.any_eq_true]
  simp only [decide_eq_true_eq]

/-- On a node without pipelines, builds one after another all have an answer, unless the queues would be too large
for a layout that is sound. A build is accepted exactly if its layout is sound and no build accepted before has
its number; one that is refused changes nothing, as if it had not been tried, and one that is accepted adds its
pipeline behind the others. So the node holds the pipelines of the builds accepted and no others, a flush writes
out one ledger for each of them that stores at its end, in the order of building, and no two of their stages have
the same number. -/
theorem buildEach?_exact (start : Node) (hstart : start.pipelines = []) (bs : List Blueprint) :
    (start.buildEach? bs = none ↔
      StageQueue.maxCapacity < start.options.queueCapacity ∧ ∃ b ∈ bs, IsLayout b.layout) ∧
    ∀ answers n, start.buildEach? bs = some (answers, n) →
      answers.length = bs.length ∧
      (∀ (i : Nat) (b : Blueprint), bs[i]? = some b → (answers[i]? = some (.ok ()) ↔ IsLayout b.layout ∧
        ∀ (j : Nat), j < i → ∀ c : Blueprint, bs[j]? = some c → answers[j]? = some (.ok ()) → c.id ≠ b.id)) ∧
      n = { start with pipelines := (Blueprint.built bs answers).map start.install } ∧
      (∀ id, n.contains id = true ↔ ∃ b ∈ Blueprint.built bs answers, b.id = id) ∧
      start.buildEach? (Blueprint.built bs answers) =
        some (List.replicate (Blueprint.built bs answers).length (.ok ()), n) ∧
      (∀ b, n.build? b.kind b.id b.layout b.feed = none ∨
        (∃ e, n.build? b.kind b.id b.layout b.feed = some (.error e, n)) ∨
        n.build? b.kind b.id b.layout b.feed = some (.ok (), n.add b)) ∧
      n.flushTargets = (Blueprint.built bs answers).filterMap start.target? ∧
      (n.queues.map AnyQueue.stage).Nodup := by
  have hfree : ∀ id, start.contains id = false := fun id => by rw [contains, position?, hstart]; rfl
  constructor
  · rw [buildEach?_eq_none_iff]
    constructor
    · rintro ⟨b, hb, hlarge, hlayout⟩
      exact ⟨hlarge, b, hb, hlayout⟩
    · rintro ⟨hlarge, b, hb, hlayout⟩
      exact ⟨b, hb, hlarge, hlayout⟩
  intro answers n h
  have houtcome := outcome_buildEach h
  have hnode : n = { start with pipelines := (Blueprint.built bs answers).map start.install } := by
    rw [houtcome.node_eq, hstart, List.nil_append]
  have hfit : ∀ (i : Nat) (b : Blueprint), bs[i]? = some b → (answers[i]? = some (.ok ()) ↔ IsLayout b.layout ∧
      ∀ (j : Nat), j < i → ∀ c : Blueprint, bs[j]? = some c → answers[j]? = some (.ok ()) → c.id ≠ b.id) := by
    intro i b hb
    rw [houtcome.fit i b hb, Accepts, hfree b.id, and_iff_left rfl]
  have hlayouts : ∀ b ∈ Blueprint.built bs answers, IsLayout b.layout := by
    intro b hb
    obtain ⟨i, hi, hok⟩ := mem_built_iff.1 hb
    exact ((hfit i b hi).1 hok).1
  refine ⟨houtcome.length_eq, hfit, hnode, fun id => ?_, houtcome.alone, fun b => ?_, ?_, ?_⟩
  · rw [contains_eq_true_iff, hnode]
    simp only [List.mem_map, exists_exists_and_eq_and]
    rfl
  · rcases n.build?_cases b with ⟨-, hnone⟩ | ⟨-, -, hok⟩ | ⟨-, -, herror⟩
    · exact Or.inl hnone
    · exact Or.inr (Or.inr hok)
    · exact Or.inr (Or.inl herror)
  · rw [hnode, flushTargets, List.flatMap_map, List.filterMap_eq_flatMap_toList]
    exact List.flatMap_congr fun b hb => start.ledgers_install (hlayouts b hb)
  · rw [← buildAll_of_buildEach h]
    exact (numbered_buildAll hstart bs).nodup_queues

/-- The second build takes the number of the first, and the third hands on to nobody. -/
def fourBlueprints : List Blueprint :=
  [⟨.serviceStats, ⟨1⟩, [.aggregate, .persist], none⟩, ⟨.heartbeat, ⟨1⟩, [.persist], none⟩,
    ⟨.callSummary, ⟨2⟩, [.aggregate, .dispatch], none⟩, ⟨.alarm, ⟨2⟩, [.persist], none⟩]

theorem buildEach?_exact_fourBlueprints :
    (sole {} .fresh).pipelines = [] ∧ ∃ n : Node,
      (sole {} .fresh).buildEach? fourBlueprints = some ([.ok (), .error (.duplicatePipeline ⟨1⟩),
        .error (.dispatchWithoutTarget ⟨2⟩ ⟨22⟩), .ok ()], n) ∧
      (n.contains ⟨2⟩ = true ∧ n.contains ⟨3⟩ = false) ∧
      n.flushTargets.map Sigma.fst = [.serviceStats, .alarm] ∧ (n.queues.map AnyQueue.stage).Nodup := by
  have hstart : (sole {} .fresh).pipelines = [] := rfl
  obtain ⟨n, hn⟩ : ∃ n : Node, (sole {} .fresh).buildEach? fourBlueprints = some ([.ok (),
      .error (.duplicatePipeline ⟨1⟩), .error (.dispatchWithoutTarget ⟨2⟩ ⟨22⟩), .ok ()], n) := ⟨_, rfl⟩
  obtain ⟨-, -, -, hcontains, -, -, htargets, hstages⟩ := (buildEach?_exact _ hstart fourBlueprints).2 _ n hn
  refine ⟨hstart, n, hn, ⟨(hcontains ⟨2⟩).2 (by decide), Bool.eq_false_iff.2 fun h => ?_⟩, ?_, hstages⟩
  · exact absurd ((hcontains ⟨3⟩).1 h) (by decide)
  · rw [htargets]
    rfl

/-- A layout as sound as can be, under a number that is free, and no answer. -/
theorem build?_tooLarge :
    IsLayout [.persist] ∧ (sole { queueCapacity := 18446744073709551615 } .fresh).contains ⟨1⟩ = false ∧
      (sole { queueCapacity := 18446744073709551615 } .fresh).build? .serviceStats ⟨1⟩ [.persist] none = none := by
  refine ⟨by decide, rfl, ?_⟩
  rcases build?_cases (sole { queueCapacity := 18446744073709551615 } .fresh)
      ⟨.serviceStats, ⟨1⟩, [.persist], none⟩ with ⟨-, h⟩ | ⟨hrange, -⟩ | ⟨hrange, -⟩
  · exact h
  · exact absurd ⟨by decide, by decide⟩ hrange
  · exact absurd ⟨by decide, by decide⟩ hrange

end Node
end TraceRollup
