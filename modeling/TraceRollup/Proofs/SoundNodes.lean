import TraceRollup.Proofs.Turns
import TraceRollup.Proofs.Unsigned

/-!
# Steps of a node over records without negative counters

A node that takes in no record with a negative counter has none in its queues, totals, ledgers
and messages (`Node.Sound`), whatever its workers do and in whatever order (`Node.Sound.step`). So
its flushes end whenever the window can be doubled (`Node.Sound.flushAt_eq_none_iff`).
-/

namespace TraceRollup

/-! ### Messages -/

/-- The record in a message, if it can be read, has no negative counter. -/
def WireMessage.Unsigned (m : WireMessage) : Prop :=
  ∀ (k : RecordKind) (s : Snapshot k.Carrier), m.tag = k.tag → m.snapshot = .ok s → k.Unsigned s.record

theorem WireMessage.unsigned_ofSnapshot {k : RecordKind} {s : Snapshot k.Carrier} (h : k.Unsigned s.record)
    (p : PipelineId) (stage : StageId) : (WireMessage.ofSnapshot p stage s).Unsigned := by
  intro j t htag ht
  obtain rfl := RecordKind.tag_injective (j := k) htag
  rw [WireMessage.snapshot_ofSnapshot p stage s (k.decode?_encode s.record)] at ht
  cases ht
  exact h

/-! ### Workers -/

section
variable {α : Type} [Rollup α] {P : α → Prop}

theorem Accumulator.all_accept (hP : Rollup.Lasting P) (now : Instant) {a : Accumulator α} (h : a.totals.All P)
    {record : α} (hr : P record) :
    (∀ total, (a.accept record now).1 = some total → P total) ∧ (a.accept record now).2.totals.All P := by
  unfold accept
  split
  · exact ⟨fun _ htotal => (by cases htotal), h⟩
  · cases ht : a.totals.get? (Rollup.id record) with
    | none =>
      refine ⟨fun total htotal => ?_, h.set _ hr⟩
      cases htotal
      exact hr
    | some t =>
      have hmerged := hP.merge (h _ t ht) hr
      refine ⟨fun total htotal => ?_, h.set _ hmerged⟩
      cases htotal
      exact hmerged

theorem Accumulator.all_acceptAll (hP : Rollup.Lasting P) (now : Instant) {a : Accumulator α} (h : a.totals.All P)
    {batch : List (Snapshot α)} (hbatch : ∀ s ∈ batch, P s.record) :
    (∀ s ∈ (acceptAll now a batch).1.snapshots, P s.record) ∧ (acceptAll now a batch).2.totals.All P := by
  induction batch generalizing a with
  | nil => exact ⟨fun _ hs => absurd hs List.not_mem_nil, h⟩
  | cons s rest ih =>
    obtain ⟨htotal, hafter⟩ := all_accept hP now h (hbatch s (List.mem_cons_self ..))
    obtain ⟨hsnapshots, htotals⟩ := ih hafter fun x hx => hbatch x (List.mem_cons_of_mem _ hx)
    unfold acceptAll
    dsimp only
    split
    · rename_i total hsome
      refine ⟨fun x hx => ?_, htotals⟩
      rcases List.mem_cons.1 hx with rfl | hx
      · exact htotal total hsome
      · exact hsnapshots x hx
    · exact ⟨hsnapshots, htotals⟩

theorem Accumulator.all_acceptBatch (hP : Rollup.Lasting P) (now : Instant) {a : Accumulator α} (h : a.totals.All P)
    {batch : List (Snapshot α)} (hbatch : ∀ s ∈ batch, P s.record) :
    (∀ s ∈ (a.acceptBatch batch now).1.snapshots, P s.record) ∧ (a.acceptBatch batch now).2.totals.All P := by
  refine all_acceptAll hP now ?_ hbatch
  unfold evictIfDue
  split
  · exact h.filter _
  · exact h

end

section
variable {k : RecordKind} {window : Duration}

/-- What a stage keeps has no negative counter, and a ledger has the window set up for it. -/
def StageState.Sound (window : Duration) : StageState k.Carrier → Prop
  | .aggregate totals => totals.totals.All k.Unsigned
  | .dispatch _ => True
  | .persist ledger => ledger.window = window ∧ ledger.Sound k.Unsigned

structure Worker.Sound (window : Duration) (w : Worker k.Carrier) : Prop where
  queue : ∀ s ∈ w.queue.items, k.Unsigned s.record
  state : w.state.Sound window
  mail : ∀ m ∈ w.mail, m.2.Unsigned
  ready : ∀ s ∈ w.ready, k.Unsigned s.record

theorem Dispatcher.exists_of_mem_mail {env : Conditions} {d : Dispatcher} {ring : HashRing}
    {batch : List (Snapshot k.Carrier)} {f : Parcel → Bool} {m : String × WireMessage}
    (h : m ∈ Worker.mailOf ((d.split env.hash ring batch).parcels.filter f)) : ∃ s ∈ batch, m.2 = d.message s := by
  have hmail : m ∈ Worker.mailOf (d.split env.hash ring batch).parcels := by
    obtain ⟨p, hp, hm⟩ := List.mem_flatMap.1 h
    exact List.mem_flatMap.2 ⟨p, List.mem_of_mem_filter hp, hm⟩
  rw [split_eq] at hmail
  simp only [mailOf_bundles] at hmail
  obtain ⟨l, hl, rfl⟩ := List.mem_map.1 hmail
  exact ⟨l.2, (mem_letters hl).1, rfl⟩

theorem StageState.Sound.process {env : Conditions} {s : StageState k.Carrier} (h : s.Sound window)
    {batch : List (Snapshot k.Carrier)} (hbatch : ∀ x ∈ batch, k.Unsigned x.record) {sh : Shared}
    {out : StageOutput k.Carrier} (hout : (s.process env batch sh).1 = some out) :
    out.state.Sound window ∧ (∀ x ∈ out.forward, k.Unsigned x.record) ∧
      ∀ m ∈ Worker.mailOf out.parcels, m.2.Unsigned := by
  cases s with
  | aggregate totals =>
    cases hout
    obtain ⟨hsnapshots, htotals⟩ := Accumulator.all_acceptBatch k.lasting_unsigned env.now h hbatch
    exact ⟨htotals, hsnapshots, fun _ hm => absurd hm List.not_mem_nil⟩
  | persist ledger =>
    cases hout
    refine ⟨⟨?_, h.2.acceptBatch hbatch env.now⟩, fun _ hx => absurd hx List.not_mem_nil,
      fun _ hm => absurd hm List.not_mem_nil⟩
    exact (LedgerRun.window_acceptBatch ledger batch env.now).1.trans h.1
  | dispatch d =>
    rw [process_dispatch] at hout
    split at hout
    · cases hout
    · cases hout
      refine ⟨trivial, fun x hx => ?_, fun m hm => ?_⟩
      · rw [Dispatcher.split_eq] at hx
        exact hbatch x (List.mem_of_mem_filter hx)
      · rw [List.partition_eq_filter_filter] at hm
        obtain ⟨x, hx, heq⟩ := Dispatcher.exists_of_mem_mail hm
        rw [heq]
        exact WireMessage.unsigned_ofSnapshot (hbatch x hx) _ _

namespace Worker
variable {w : Worker k.Carrier}

theorem Sound.send (h : w.Sound window) {s : Snapshot k.Carrier} (hs : k.Unsigned s.record) :
    ({ w with queue := (w.queue.send s).2 } : Worker k.Carrier).Sound window := by
  refine ⟨fun x hx => ?_, h.state, h.mail, h.ready⟩
  rcases StageQueue.mem_items_send hx with hx | rfl
  · exact h.queue x hx
  · exact hs

theorem Sound.begin (h : w.Sound window) (env : Conditions) (isLast : Bool) (sh : Shared) :
    (w.begin env isLast sh).1.Sound window ∧ (w.begin env isLast sh).1.state.kind = w.state.kind := by
  by_cases hbegin : w.canBegin = true
  · have hbatch : ∀ x ∈ w.nextBatch, k.Unsigned x.record := fun x hx => h.queue x (List.mem_of_mem_take hx)
    have hleft : ∀ x ∈ (w.queue.receiveMany batchLimit).2.items, k.Unsigned x.record :=
      fun x hx => h.queue x (List.mem_of_mem_drop hx)
    cases hout : (w.state.process env w.nextBatch (w.countBatch sh)).1 with
    | none =>
      rw [begin_of_stuck hbegin hout]
      exact ⟨⟨hleft, h.state, h.mail, h.ready⟩, rfl⟩
    | some out =>
      obtain ⟨hstate, hforward, hmail⟩ := h.state.process hbatch hout
      rw [begin_of_output hbegin out hout]
      refine ⟨⟨hleft, hstate, hmail, fun x hx => ?_⟩, StageState.kind_process hout⟩
      simp only at hx
      split at hx
      · cases hx
      · exact hforward x hx
  · rw [begin_of_not hbegin]
    exact ⟨h, rfl⟩

end Worker

/-! ### Pipelines -/

namespace Pipeline

/-- The kinds of the stages. -/
def kinds (p : Pipeline k.Carrier) : List StageKind := p.workers.map fun w => w.state.kind

structure Sound (window : Duration) (p : Pipeline k.Carrier) : Prop where
  workers : ∀ w ∈ p.workers, w.Sound window
  stored : .persist ∈ p.kinds

variable {p : Pipeline k.Carrier}

theorem Sound.ledger (h : p.Sound window) :
    ∃ l, p.ledger? = some l ∧ l.window = window ∧ l.Sound k.Unsigned := by
  obtain ⟨w, hw, hkind⟩ := List.mem_map.1 h.stored
  have hsome : p.ledger?.isSome = true := by
    rw [ledger?, List.findSome?_isSome_iff]
    refine ⟨w, hw, ?_⟩
    unfold Worker.ledger?
    cases hstate : w.state with
    | persist l => rfl
    | aggregate _ | dispatch _ =>
      rw [hstate] at hkind
      cases hkind
  obtain ⟨l, hl⟩ := Option.isSome_iff_exists.1 hsome
  obtain ⟨v, hv, hvl⟩ := List.exists_of_findSome?_eq_some hl
  have hsound := (h.workers v hv).state
  unfold Worker.ledger? at hvl
  split at hvl
  · rename_i l' hstate
    cases hvl
    rw [hstate] at hsound
    exact ⟨l, hl, hsound⟩
  · cases hvl

theorem Sound.set (h : p.Sound window) {i : Nat} {w v : Worker k.Carrier} (hw : p.workers[i]? = some w)
    (hv : v.Sound window) (hkind : v.state.kind = w.state.kind) :
    ({ p with workers := p.workers.set i v } : Pipeline k.Carrier).Sound window := by
  refine ⟨fun x hx => ?_, ?_⟩
  · rcases List.mem_or_eq_of_mem_set hx with hx | rfl
    · exact h.workers x hx
    · exact hv
  · obtain ⟨hlt, rfl⟩ := List.getElem?_eq_some_iff.1 hw
    have hlen : i < p.kinds.length := by rwa [kinds, List.length_map]
    have hkinds : p.kinds[i] = v.state.kind := by
      rw [hkind]
      exact List.getElem_map _
    rw [kinds, List.map_set, ← hkinds]
    exact (List.set_getElem_self _).symm ▸ h.stored

theorem Sound.map (h : p.Sound window) {f : Worker k.Carrier → Worker k.Carrier}
    (hf : ∀ w : Worker k.Carrier, w.Sound window → (f w).Sound window ∧ (f w).state.kind = w.state.kind) :
    ({ p with workers := p.workers.map f } : Pipeline k.Carrier).Sound window := by
  refine ⟨fun x hx => ?_, ?_⟩
  · obtain ⟨w, hw, rfl⟩ := List.mem_map.1 hx
    exact (hf w (h.workers w hw)).1
  · obtain ⟨w, hw, hkind⟩ := List.mem_map.1 h.stored
    rw [kinds, List.map_map]
    exact List.mem_map.2 ⟨w, hw, (hf w (h.workers w hw)).2.trans hkind⟩

theorem Sound.sendAt (h : p.Sound window) (i : Nat) {s : Snapshot k.Carrier} (hs : k.Unsigned s.record) :
    (p.sendAt i s).2.Sound window := by
  unfold Pipeline.sendAt
  split
  · exact h
  · rename_i w hw
    exact h.set hw ((h.workers w (List.mem_of_getElem? hw)).send hs) rfl

theorem Sound.submit (h : p.Sound window) (here : String) {record : k.Carrier} (hr : k.Unsigned record) (sh : Shared) :
    (p.submit here record sh).2.1.Sound window := by
  unfold Pipeline.submit
  dsimp only
  split
  · exact h
  · exact h.sendAt 0 hr

theorem Sound.deliver (h : p.Sound window) {m : WireMessage} (hm : m.Unsigned) : (p.deliver m).2.Sound window := by
  unfold Pipeline.deliver
  split
  · exact h
  · rename_i htag
    split
    · exact h
    · rename_i i _
      split
      · exact h
      · rename_i s hs
        exact h.sendAt i (hm k s (not_not.1 htag) hs)

theorem Sound.begin (h : p.Sound window) (env : Conditions) (i : Nat) (sh : Shared) :
    (p.begin env i sh).1.Sound window := by
  unfold Pipeline.begin
  split
  · exact h
  · rename_i w hw
    obtain ⟨hsound, hkind⟩ := (h.workers w (List.mem_of_getElem? hw)).begin env (decide (p.workers.length ≤ i + 1)) sh
    exact h.set hw hsound hkind

theorem Sound.takeMail (h : p.Sound window) (i : Nat) :
    (∀ m, (p.takeMail i).1 = some m → m.2.Unsigned) ∧ (p.takeMail i).2.Sound window := by
  unfold Pipeline.takeMail
  split
  · exact ⟨fun _ hm => (by cases hm), h⟩
  · rename_i w hw
    have hworker := h.workers w (List.mem_of_getElem? hw)
    refine ⟨fun m hm => hworker.mail m (List.mem_of_mem_head? hm), h.set hw ?_ rfl⟩
    exact ⟨hworker.queue, hworker.state, fun m hm => hworker.mail m (List.mem_of_mem_tail hm), hworker.ready⟩

theorem Sound.handOn (h : p.Sound window) (i : Nat) (sh : Shared) : (p.handOn i sh).1.Sound window := by
  unfold Pipeline.handOn
  split
  · rename_i w next hw hnext
    split
    · exact h
    · rename_i s rest hready
      have hworker := h.workers w (List.mem_of_getElem? hw)
      have hs : k.Unsigned s.record := hworker.ready s (hready ▸ List.mem_cons_self ..)
      have hrest : ({ w with ready := rest } : Worker k.Carrier).Sound window :=
        ⟨hworker.queue, hworker.state, hworker.mail, fun x hx => hworker.ready x (hready ▸ List.mem_cons_of_mem _ hx)⟩
      have hnext' : (p.workers.set i { w with ready := rest })[i + 1]? = some next := by
        rw [List.getElem?_set_ne (Nat.succ_ne_self i).symm]
        exact hnext
      exact (h.set hw hrest rfl).set hnext' ((h.workers next (List.mem_of_getElem? hnext)).send hs) rfl
  · exact h

theorem Sound.cancel (h : p.Sound window) (kind : StageKind) : (p.cancel kind).Sound window := by
  refine h.map fun w hw => ?_
  split
  · exact ⟨⟨hw.queue, hw.state, hw.mail, hw.ready⟩, rfl⟩
  · exact ⟨hw, rfl⟩

theorem Sound.abandonStuck (h : p.Sound window) (kind : StageKind) : (p.abandonStuck kind).Sound window := by
  refine h.map fun w hw => ?_
  split
  · exact ⟨⟨fun _ hx => absurd hx List.not_mem_nil, hw.state, hw.mail, hw.ready⟩, rfl⟩
  · exact ⟨hw, rfl⟩

theorem Sound.withLedger (h : p.Sound window) {l : Ledger k.Carrier} (hwindow : l.window = window)
    (hl : l.Sound k.Unsigned) : (p.withLedger l).Sound window := by
  refine h.map fun w hw => ?_
  split
  · rename_i old hold
    exact ⟨⟨hw.queue, ⟨hwindow, hl⟩, hw.mail, hw.ready⟩, hold ▸ rfl⟩
  · exact ⟨hw, rfl⟩

end Pipeline
end

/-! ### Nodes -/

/-- No row of a record has a negative counter. -/
def Store.Unsigned (s : Store) : Prop := ∀ k : RecordKind, s.Holds k.Unsigned

theorem Store.unsigned_fresh : Store.fresh.Unsigned := fun _ _ _ _ hrow => by cases hrow

theorem Store.Unsigned.of_tables {s t : Store} (h : s.Unsigned) (ht : t.contents.tables = s.contents.tables) :
    t.Unsigned := fun k => (h k).of_table (congrArg (fun tables => (tables.get? k.tag).getD Dict.empty) ht)

namespace Node

structure Sound (o : PipelineOptions) (count : Nat) (n : Node) : Prop where
  options : n.options = o
  length : n.pipelines.length = count
  pipelines : ∀ a ∈ n.pipelines, a.pipeline.Sound o.window
  store : n.store.Unsigned

/-- What can happen to a node: it takes in a record or a message without negative counters, one
of its workers moves, a ledger is flushed, stages are closed, or others change its store, its
counters or the members that it knows. -/
inductive Step : Node → Node → Prop
  | submit (n : Node) (kind : RecordKind) (id : PipelineId) {record : kind.Carrier} (h : kind.Unsigned record) :
      Step n (n.submit kind id record).2
  | deliver (n : Node) {m : WireMessage} (h : m.Unsigned) : Step n (n.deliver m).2
  | begin (n : Node) (env : Conditions) (i j : Nat) : Step n (n.begin env i j)
  | takeMail (n : Node) (i j : Nat) : Step n (n.takeMail i j).2
  | handOn (n : Node) (i j : Nat) : Step n (n.handOn i j)
  | flush (n : Node) {now : Instant} {i : Nat} {f : Flushed} (h : n.flushAt now i = some f) : Step n f.node
  | cancel (n : Node) (kind : StageKind) : Step n (n.cancel kind)
  | abandonStuck (n : Node) (kind : StageKind) : Step n (n.abandonStuck kind)
  | elsewhere (n : Node) {store : Store} (shared : Shared) (h : store.Unsigned) : Step n { n with store, shared }

variable {o : PipelineOptions} {count : Nat} {n m : Node}

theorem Sound.set (h : n.Sound o count) {i : Nat} {b : AnyPipeline} (hb : b.pipeline.Sound o.window) (sh : Shared) :
    ({ n with pipelines := n.pipelines.set i b, shared := sh } : Node).Sound o count := by
  refine ⟨h.options, (List.length_set ..).trans h.length, fun a ha => ?_, h.store⟩
  rcases List.mem_or_eq_of_mem_set ha with ha | rfl
  · exact h.pipelines a ha
  · exact hb

theorem Sound.takeMail (h : n.Sound o count) (i j : Nat) :
    (∀ m, (n.takeMail i j).1 = some m → m.2.Unsigned) ∧ (n.takeMail i j).2.Sound o count := by
  unfold Node.takeMail
  split
  · exact ⟨fun _ hm => (by cases hm), h⟩
  · rename_i a ha
    obtain ⟨hmail, hpipeline⟩ := (h.pipelines a (List.mem_of_getElem? ha)).takeMail j
    exact ⟨hmail, h.set hpipeline n.shared⟩

theorem Sound.mapPipelines (h : n.Sound o count) {f : {α : Type} → Pipeline α → Pipeline α}
    (hf : ∀ {k : RecordKind} (p : Pipeline k.Carrier), p.Sound o.window → (f p).Sound o.window) :
    (n.mapPipelines f).Sound o count := by
  refine ⟨h.options, (List.length_map _).trans h.length, fun a ha => ?_, h.store⟩
  obtain ⟨b, hb, rfl⟩ := List.mem_map.1 ha
  exact hf b.pipeline (h.pipelines b hb)

theorem Sound.flushAt (h : n.Sound o count) {now : Instant} {i : Nat} {f : Flushed} (hf : n.flushAt now i = some f) :
    f.node.Sound o count := by
  rcases flushAt_cases hf with ⟨-, hnode, -⟩ | ⟨a, l, g, ha, hl, hg, -, hnode⟩
  · rwa [hnode]
  · have hpipeline := h.pipelines a (List.mem_of_getElem? ha)
    obtain ⟨l', hl', hwindow, hledger⟩ := hpipeline.ledger
    rw [hl] at hl'
    cases hl'
    obtain ⟨-, hafter, hsame, hstore⟩ := hledger.flushCounted a.kind.lasting_unsigned (h.store a.kind) hg
    have hset := h.set (i := i) (b := { a with pipeline := a.pipeline.withLedger g.ledger })
      (hpipeline.withLedger (hsame.trans hwindow) hafter) n.shared
    rw [hnode]
    refine ⟨hset.options, hset.length, hset.pipelines, fun k => ?_⟩
    -- a flush writes to the table of its own kind alone
    by_cases hk : k = a.kind
    · exact hk ▸ hstore
    · have htag : k.tag ≠ a.kind.tag := fun heq => hk (RecordKind.tag_injective heq)
      exact (h.store k).of_table ((Ledger.extends_flushCounted hg).others k.tag htag)

theorem Sound.step (h : n.Sound o count) (hstep : n.Step m) : m.Sound o count := by
  cases hstep with
  | submit kind id hr =>
    unfold Node.submit
    split
    · exact h
    · split
      · exact h
      · rename_i a ha
        split
        · rename_i heq
          subst heq
          exact h.set ((h.pipelines a (List.mem_of_getElem? ha)).submit n.name hr n.shared) _
        · exact h
  | deliver hm =>
    unfold Node.deliver
    split
    · exact h
    · split
      · exact h
      · rename_i a ha
        exact h.set ((h.pipelines a (List.mem_of_getElem? ha)).deliver hm) _
  | begin env i j =>
    unfold Node.begin
    split
    · exact h
    · rename_i a ha
      exact h.set ((h.pipelines a (List.mem_of_getElem? ha)).begin env j n.shared) _
  | takeMail i j => exact (h.takeMail i j).2
  | handOn i j =>
    unfold Node.handOn
    split
    · exact h
    · rename_i a ha
      exact h.set ((h.pipelines a (List.mem_of_getElem? ha)).handOn j n.shared) _
  | flush hf => exact h.flushAt hf
  | cancel kind => exact h.mapPipelines fun p hp => hp.cancel kind
  | abandonStuck kind => exact h.mapPipelines fun p hp => hp.abandonStuck kind
  | elsewhere shared hs => exact ⟨h.options, h.length, h.pipelines, hs⟩

/-- A flush of a pipeline ends unless twice the window is no duration. -/
theorem Sound.flushAt_eq_none_iff (h : n.Sound o count) (now : Instant) (i : Nat) :
    n.flushAt now i = none ↔ i < count ∧ o.window.double? = none := by
  unfold Node.flushAt
  cases ha : n.pipelines[i]? with
  | none =>
    have hle := h.length ▸ List.getElem?_eq_none_iff.1 ha
    exact ⟨fun hnone => (by cases hnone), fun hlt => absurd hlt.1 (Nat.not_lt.2 hle)⟩
  | some a =>
    have hlt : i < count := h.length ▸ (List.getElem?_eq_some_iff.1 ha).1
    obtain ⟨l, hl, hwindow, hledger⟩ := (h.pipelines a (List.mem_of_getElem? ha)).ledger
    have hends := Ledger.isSome_flushCounted_iff a.kind.lasting_unsigned hledger (h.store a.kind) now n.counters
    rw [hwindow] at hends
    simp only [hl, hlt, true_and]
    cases hg : l.flushCounted n.store now n.counters with
    | none =>
      rw [hg] at hends
      refine ⟨fun _ => ?_, fun _ => rfl⟩
      rw [← Option.not_isSome_iff_eq_none, ← hends]
      exact Bool.false_ne_true
    | some g =>
      obtain ⟨htold, -⟩ := hledger.flushCounted a.kind.lasting_unsigned (h.store a.kind) hg
      obtain ⟨alarms, halarms⟩ := Option.isSome_iff_exists.1 (a.isSome_raise now htold)
      rw [hg] at hends
      simp only [Option.bind_eq_bind, Option.bind_some, halarms]
      refine ⟨fun hnone => (by cases hnone), fun hnone => ?_⟩
      rw [hnone] at hends
      exact absurd (hends.1 rfl) Bool.false_ne_true

end Node
end TraceRollup
