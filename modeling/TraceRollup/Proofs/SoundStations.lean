import TraceRollup.Proofs.Traffic

/-!
# Sound stations

What holds at every station of a cluster with fixed members, whatever happens around it
(`Station.Sound`). The books of its ledger are kept, its accumulator remembers what it has
accepted, and everything it still has to hand on is its own. Every move at a sound station is
a `Progress` (`Sound.progress`) and leaves it sound (`Sound.act`).
-/

namespace TraceRollup

/-! ### Notes -/

namespace Log
variable {k : RecordKind}

theorem noteSubmit_eq (record : k.Carrier) (answer : Except Refusal Unit) (l : Log k) :
    ∃ submitted, l.noteSubmit record answer = { l with submitted } := by
  unfold noteSubmit
  split
  · exact ⟨_, rfl⟩
  · exact ⟨l.submitted, rfl⟩

theorem noteBatch_of_not {now : Instant} {w : Worker k.Carrier} (h : ¬ w.canBegin = true) (l : Log k) :
    l.noteBatch now w = l := by
  rw [noteBatch, if_neg h]

theorem noteBatch_entry {site : Site k} (hcan : site.entryWorker.canBegin = true) (now : Instant) (l : Log k) :
    l.noteBatch now site.entryWorker = { l with accepted := l.accepted ++
      (site.entryWorker.nextBatch.filter fun x => !site.totals.isLate now x.record).map Snapshot.record } := by
  rw [noteBatch, if_pos hcan]
  rfl

theorem noteBatch_routing (p : PipelineId) (site : Site k) (now : Instant) (l : Log k) :
    l.noteBatch now (site.routingWorker p) = l := by
  unfold noteBatch
  split <;> rfl

theorem noteBatch_storing (site : Site k) (now : Instant) (l : Log k) :
    ∃ arrived, l.noteBatch now site.storingWorker = { l with arrived } := by
  unfold noteBatch
  split
  · exact ⟨_, rfl⟩
  · exact ⟨l.arrived, rfl⟩

end Log

/-- What a move to take a batch comes to: nothing, or a batch for one of the three workers. -/
inductive Station.Begun {k : RecordKind} (p : PipelineId) (env : Conditions) (s : Station k) : Station k → Prop
  | idle : Begun p env s { s with log := { s.log with clock := env.now } }
  | entry (h : s.site.entryWorker.canBegin = true) :
    Begun p env s ⟨s.site.takeEntry env, Log.noteBatch env.now s.site.entryWorker { s.log with clock := env.now }⟩
  | routing (h : (s.site.routingWorker p).canBegin = true) :
    Begun p env s ⟨s.site.takeRouting env p, { s.log with clock := env.now }⟩
  | storing (h : s.site.storingWorker.canBegin = true) :
    Begun p env s ⟨s.site.takeStoring env, Log.noteBatch env.now s.site.storingWorker { s.log with clock := env.now }⟩

theorem Station.begun {k : RecordKind} (p : PipelineId) (hash : PointHash) (s : Station k) (i j : Nat) (now : Instant)
    (attached : List String) (stalled : Bool) :
    Begun p (Cluster.conditions { nodes := [], hash, attached, stalled, clock := now }) s
      (s.act p hash (.begin i j now attached stalled)) := by
  generalize henv : Cluster.conditions { nodes := [], hash, attached, stalled, clock := now } = env
  have hnow : now = env.now := by
    rw [← henv]
    rfl
  have hact : s.act p hash (.begin i j now attached stalled) = ⟨s.site.begun env p j,
      (((s.site.pipeline p).workers[j]?).map fun w => Log.noteBatch env.now w { s.log with clock := env.now }).getD
        { s.log with clock := env.now }⟩ := by
    rw [← hnow, ← henv]
    rfl
  rw [hact]
  match j with
  | 0 =>
    have hworker : (s.site.pipeline p).workers[0]? = some s.site.entryWorker := rfl
    rw [hworker, Option.map_some, Option.getD_some, Site.begun, Site.beginEntry]
    split
    · rename_i hcan
      exact .entry hcan
    · rename_i hcan
      rw [Log.noteBatch_of_not hcan]
      exact .idle
  | 1 =>
    have hworker : (s.site.pipeline p).workers[1]? = some (s.site.routingWorker p) := rfl
    rw [hworker, Option.map_some, Option.getD_some, Site.begun, Site.beginRouting, Log.noteBatch_routing]
    split
    · rename_i hcan
      exact .routing hcan
    · exact .idle
  | 2 =>
    have hworker : (s.site.pipeline p).workers[2]? = some s.site.storingWorker := rfl
    rw [hworker, Option.map_some, Option.getD_some, Site.begun, Site.beginStoring]
    split
    · rename_i hcan
      exact .storing hcan
    · rename_i hcan
      rw [Log.noteBatch_of_not hcan]
      exact .idle
  | _ + 3 => exact .idle

theorem Ledger.flushCounted_eq_some {α : Type} [Rollup α] {l : Ledger α} {store : Store} {now : Instant}
    {c : Counters} {f : Ledger.Counted α} (h : l.flushCounted store now c = some f) :
    f.ledger = (l.flush store now).ledger ∧ f.store = (l.flush store now).store ∧ ∃ d, l.retention? = some d := by
  simp only [flushCounted] at h
  have hret : (l.flush store now).fault ≠ some .overflow → ∃ d, l.retention? = some d := by
    intro hfault
    cases hd : l.retention? with
    | some d => exact ⟨d, rfl⟩
    | none =>
      refine absurd ?_ hfault
      rw [flush, hd]
  cases hfault : (l.flush store now).fault with
  | none =>
    rw [hfault] at hret
    simp only [hfault, Option.some.injEq] at h
    subst h
    exact ⟨rfl, rfl, hret (by simp)⟩
  | some e =>
    cases e with
    | overflow => simp [hfault] at h
    | storage e =>
      rw [hfault] at hret
      simp only [hfault, Option.some.injEq] at h
      subst h
      exact ⟨rfl, rfl, hret (by simp)⟩

theorem Worker.idle_of_canBegin {α : Type} {w : Worker α} (h : w.canBegin = true) : w.mail = [] ∧ w.ready = [] := by
  simp only [canBegin, isIdle, Bool.and_eq_true, List.isEmpty_iff] at h
  exact h.1.2

/-! ### Routers -/

namespace Shared

theorem router_countDropped (sh : Shared) (tag : String) (stage : StageId) (reason : String) (n : Nat) :
    (sh.countDropped tag stage reason n).router = sh.router := by
  unfold countDropped
  split <;> rfl

theorem router_countRefusal (sh : Shared) (tag : String) (stage : StageId) (answer : Except Refusal Unit) :
    (sh.countRefusal tag stage answer).router = sh.router := by
  cases answer with
  | ok _ => rfl
  | error e => exact sh.router_countDropped tag stage e.reason 1

end Shared

/-- A batch leaves the ring as it is. -/
theorem Worker.current_begin {α : Type} [Rollup α] (env : Conditions) (isLast : Bool) (w : Worker α) (sh : Shared) :
    (w.begin env isLast sh).2.router.current env.hash = sh.router.current env.hash := by
  unfold begin
  split
  · have hcurrent : ∀ sh : Shared, (w.state.process env (w.queue.receiveMany batchLimit).1 sh).2.router.current env.hash =
        sh.router.current env.hash := by
      intro sh
      cases w.state with
      | aggregate totals => rfl
      | persist ledger => rfl
      | dispatch routing =>
        simp only [StageState.process]
        split <;> exact Router.current_ring env.hash sh.router sh.counters
    have hprocess := hcurrent (sh.count (.processed (Rollup.tag α) w.stage.number.toNat)
      (w.queue.receiveMany batchLimit).1.length)
    dsimp only
    generalize w.state.process env (w.queue.receiveMany batchLimit).1 _ = r at hprocess ⊢
    obtain ⟨out, after⟩ := r
    cases out with
    | none => exact hprocess
    | some out =>
      simp only [showLength, Shared.gauge, Shared.router_countDropped]
      exact hprocess
  · rfl

/-! ### Soundness -/

/-- The node's clock does not go back, and the records submitted are good. -/
def ClusterMove.Admissible {k : RecordKind} (good : k.Carrier → Prop) (l : Log k) : ClusterMove k → Prop
  | .submit _ record => good record
  | .begin _ _ now _ _ | .flush _ now => now.InEra ∧ l.clock.nanos ≤ now.nanos
  | .send _ _ | .lose _ _ | .handOn _ _ | .close _ _ => True

/-- What always holds at a station. -/
structure Station.Sound {k : RecordKind} {V : Type} [AddCommMonoid V] (A : Account k.Carrier V) (hash : PointHash)
    (ring : HashRing) (good : k.Carrier → Prop) (s : Station k) : Prop where
  ring : s.site.shared.router.current hash = ring
  entry : ∀ x ∈ s.site.entry.items, x.origin = s.site.name ∧ good x.record
  answered : ∀ x ∈ s.site.answered, x.origin = s.site.name
  routing : ∀ x ∈ s.site.routing.items, x.origin = s.site.name
  kept : ∀ x ∈ s.site.kept, x.origin = s.site.name
  mail : ∀ l ∈ s.site.mail, l.1 ≠ s.site.name ∧ l.2.origin = s.site.name
  accepted : ∀ a ∈ s.log.accepted, good a
  recalls : Recalls s.site.totals.window s.log.clock s.site.totals ⟨s.site.totals.window, s.log.accepted⟩
  books : Books A s.log.clock (LedgerRun.retention s.site.ledger) s.log.written s.site.ledger.baselines
    (s.site.store.table k.tag)
  batch : 0 < s.site.ledger.batchSize
  clock : s.log.clock.InEra

namespace Station.Sound
variable {k : RecordKind} {V : Type} [AddCommMonoid V] {A : Account k.Carrier V} {hash : PointHash}
  {ring : HashRing} {good : k.Carrier → Prop} {s : Station k}

/-- Nothing changes but queues before the totals, counters and notes on what came in. -/
theorem progress_of_eq {t : Station k} (hname : t.site.name = s.site.name) (hin : ∀ key, t.inbound key = s.inbound key)
    (hhanded : ∀ name id, t.handed name id = s.handed name id) (hwaiting : ∀ id, t.waiting id = s.waiting id)
    (htotals : ∀ id, t.totals id = s.totals id) : Progress hash ring s t := by
  refine .of_sublist hname (fun key _ => ?_) (fun id => ?_) (fun name id _ => ?_) fun id => ⟨[], ?_, ?_⟩
  · rw [hin]
  · rw [hin, hhanded]
  · rw [hhanded]
  · rw [htotals, List.append_nil]
  · rw [hwaiting, List.append_nil]

theorem progress_submit (p : PipelineId) (s : Station k) (i : Nat) (record : k.Carrier) :
    Progress hash ring s (s.act p hash (.submit i record)) := by
  obtain ⟨submitted, hlog⟩ := s.log.noteSubmit_eq record (s.site.entry.send ⟨s.site.name, record⟩).1
  simp only [Station.act, hlog]
  exact progress_of_eq rfl (fun _ => rfl) (fun _ _ => rfl) (fun _ => rfl) fun _ => rfl

theorem progress_close (p : PipelineId) (s : Station k) (i : Nat) (kind : StageKind) :
    Progress hash ring s (s.act p hash (.close i kind)) := by
  cases kind <;> exact progress_of_eq rfl (fun _ => rfl) (fun _ _ => rfl) (fun _ => rfl) fun _ => rfl

/-- Letters leave, to arrive elsewhere or not. -/
theorem progress_mailed (s : Station k) (j : Nat) :
    Progress hash ring s { s with site := s.site.mailed j } := by
  match j with
  | 0 | _ + 2 => exact progress_of_eq rfl (fun _ => rfl) (fun _ _ => rfl) (fun _ => rfl) fun _ => rfl
  | 1 =>
    refine .of_sublist rfl (fun key _ => .refl _) (fun id => ?_) (fun name id hne => ?_) fun id => ⟨[], ?_, ?_⟩
    · simp only [inbound, handed, Site.mailed, if_pos]
      exact .refl _
    · rw [handed_of_ne hne, handed_of_ne (s := { s with site := s.site.mailed 1 }) hne]
      exact pick_sublist _ (((List.tail_sublist _).filter _).map _)
    · exact (List.append_nil _).symm
    · rw [List.append_nil]
      exact .refl _

theorem progress_flush (p : PipelineId) (s : Station k) (i : Nat) (now : Instant) :
    Progress hash ring s (s.act p hash (.flush i now)) := by
  simp only [Station.act]
  cases hf : s.site.ledger.flushCounted s.site.store now s.site.shared.counters with
  | none => exact progress_of_eq rfl (fun _ => rfl) (fun _ _ => rfl) (fun _ => rfl) fun _ => rfl
  | some f =>
    obtain ⟨hledger, _, d, hd⟩ := Ledger.flushCounted_eq_some hf
    have hin : ∀ key, (Station.mk (s.site.flushed f) (Log.noteFlush s.site.ledger s.site.store f.store
        { s.log with clock := now })).inbound key |>.Sublist (s.inbound key) := by
      intro key
      have htrail := (show Trails s.log.written s.site.ledger.buffer fun key =>
          (s.log.written key).toList ++ (s.site.ledger.buffer.get? key).toList from fun _ => .refl _).advance
        (writesIn k.tag (f.store.callsSince s.site.store))
      simp only [inbound, Site.flushed, Log.noteFlush, hledger, (LedgerRun.ledger_flush _ _ hd).1]
      exact (htrail key).append (.refl _)
    refine .of_sublist rfl (fun key _ => hin key) (fun id => (hin _).append (.refl _)) (fun _ _ _ => .refl _)
      fun id => ⟨[], (List.append_nil _).symm, ?_⟩
    rw [List.append_nil]
    exact .refl _

theorem progress_handOn (h : s.Sound A hash ring good) (p : PipelineId) (i j : Nat) :
    Progress hash ring s (s.act p hash (.handOn i j)) := by
  simp only [Station.act]
  rcases j with _ | _ | j
  · simp only [Site.handedOn]
    cases hanswered : s.site.answered with
    | nil => exact progress_of_eq rfl (fun _ => rfl) (fun _ _ => rfl) (fun _ => rfl) fun _ => rfl
    | cons x rest =>
      refine .of_sublist rfl (fun _ _ => .refl _) (fun _ => .refl _) (fun _ _ _ => .refl _)
        fun id => ⟨[], (List.append_nil _).symm, ?_⟩
      simp only [waiting, Site.handAnswered, hanswered, StageQueue.items_send, List.append_nil]
      rw [← pick_append, ← pick_append, List.append_assoc]
      refine pick_sublist _ ((List.Sublist.refl _).append ?_)
      split
      · exact .refl _
      · exact List.sublist_cons_self x rest
  · simp only [Site.handedOn]
    cases hkept : s.site.kept with
    | nil => exact progress_of_eq rfl (fun _ => rfl) (fun _ _ => rfl) (fun _ => rfl) fun _ => rfl
    | cons x rest =>
      have hx : x.origin = s.site.name := h.kept x (by simp [hkept])
      refine .of_sublist rfl (fun key hkey => ?_) (fun id => ?_) (fun name id hne => ?_)
        fun id => ⟨[], (List.append_nil _).symm, ?_⟩
      · have hnone : pick key (if (s.site.arrivals.send x).1.isOk then [x] else []) = [] := by
          refine pick_eq_nil fun y hy => ?_
          split at hy
          · rw [List.mem_singleton.1 hy, hx]
            exact Ne.symm hkey
          · cases hy
        simp only [inbound, Site.handKept, StageQueue.items_send, pick_append, hnone, List.append_nil]
        exact .refl _
      · simp only [inbound, handed, Site.handKept, StageQueue.items_send, if_pos, hkept, List.append_assoc]
        refine (List.Sublist.refl _).append ((List.Sublist.refl _).append ?_)
        rw [← pick_append, ← pick_append, List.append_assoc]
        refine pick_sublist _ ((List.Sublist.refl _).append ?_)
        split
        · exact .refl _
        · exact List.sublist_cons_self x rest
      · rw [handed_of_ne hne, handed_of_ne (s := { s with site := s.site.handKept p x rest }) hne]
        exact .refl _
      · rw [List.append_nil]
        exact .refl _
  · exact progress_of_eq rfl (fun _ => rfl) (fun _ _ => rfl) (fun _ => rfl) fun _ => rfl

theorem progress_entry [Cumulative k.Carrier] (h : s.Sound A hash ring good) {env : Conditions} {log : Log k}
    (hnow : env.now.InEra) (hle : s.log.clock.nanos ≤ env.now.nanos) (hcan : s.site.entryWorker.canBegin = true)
    (haccepted : log.accepted = s.log.accepted ++
      (s.site.entryWorker.nextBatch.filter fun x => !s.site.totals.isLate env.now x.record).map Snapshot.record)
    (hwritten : log.written = s.log.written) : Progress hash ring s ⟨s.site.takeEntry env, log⟩ := by
  have hidle : s.site.answered = [] := (Worker.idle_of_canBegin hcan).2
  have hown : ∀ x ∈ s.site.entryWorker.nextBatch, x.origin = s.site.name :=
    fun x hx => (h.entry x (List.mem_of_mem_take hx)).1
  obtain ⟨hanswers, _⟩ := (h.recalls.mono h.clock hnow hle).acceptBatch s.site.entryWorker.nextBatch
  refine .of_sublist rfl (fun key _ => ?_) (fun id => ?_) (fun _ _ _ => .refl _) fun id => ?_
  · simp only [inbound, hwritten]
    exact .refl _
  · simp only [inbound, hwritten]
    exact .refl _
  · refine ⟨pick (s.site.name, id) (Recorder.acceptAll env.now ⟨s.site.totals.window, s.log.accepted⟩
      s.site.entryWorker.nextBatch).1.snapshots, ?_, ?_⟩
    · have htotals := Recorder.totals_acceptAll env.now ⟨s.site.totals.window, s.log.accepted⟩ hown id
      rw [Recorder.acceptAll_taken] at htotals
      simp only [totals, Log.under, haccepted]
      exact htotals
    · simp only [waiting, hidle, Site.takeEntry, hanswers]
      simp [pick]

/-- A batch is divided by owner. Every owner gets a part of it, and what is left in the queue
comes after. -/
theorem progress_of_divided {t : Station k} {d : Dispatcher} {f : String × List (Snapshot k.Carrier) → Bool} {n : Nat}
    (hname : t.site.name = s.site.name) (hin : ∀ key, t.inbound key = s.inbound key)
    (htotals : ∀ id, t.totals id = s.totals id) (hd : d.here = s.site.name)
    (hrouting : t.site.routing.items = s.site.routing.items.drop n) (hanswered : t.site.answered = s.site.answered)
    (hkept : t.site.kept =
      (s.site.routing.items.take n).filter fun x => (d.foreignOwner? hash ring x).isNone)
    (hmail : t.site.mail = Dispatcher.letters ((d.bundles hash ring (s.site.routing.items.take n)).filter f)) :
    Progress hash ring s t := by
  have hwaiting : ∀ (id : String) {xs : List (Snapshot k.Carrier)}, xs.Sublist (s.site.routing.items.take n) →
      (pick (s.site.name, id) xs ++ t.waiting id).Sublist (s.waiting id) := by
    intro id xs hxs
    rw [waiting, waiting, hname, hrouting, hanswered,
      ← pick_take_drop (s.site.name, id) n s.site.routing.items, List.append_assoc]
    exact (pick_sublist _ hxs).append (.refl _)
  have hforeign : ∀ name id : String, name ≠ s.site.name → (t.handed name id).Sublist
      (pick (s.site.name, id) ((s.site.routing.items.take n).filter
        fun x => decide (d.foreignOwner? hash ring x = some name))) := by
    intro name id hne
    rw [← Dispatcher.lettersTo_bundles, handed_of_ne (hname ▸ hne), hname, hmail]
    exact pick_sublist _ (Dispatcher.lettersTo_filter name _ _)
  have hhome : ∀ id : String, t.handed s.site.name id =
      pick (s.site.name, id) ((s.site.routing.items.take n).filter fun x => (d.foreignOwner? hash ring x).isNone) := by
    intro id
    rw [← hkept, ← hname, handed_self]
  refine ⟨hname, fun key _ => ?_, fun id => ⟨[], ?_, fun name hne => ?_, ?_⟩, fun name id hne hnil => ?_,
    fun id hnil => ?_⟩
  · rw [hin]
  · rw [htotals, List.append_nil]
  · rw [List.append_nil]
    have hsub := ((hforeign name id hne).append (List.Sublist.refl _)).trans (hwaiting id List.filter_sublist)
    exact hsub.trans (List.sublist_append_right _ _)
  · rw [List.append_nil, hin, hhome, List.append_assoc, List.append_assoc]
    refine (List.Sublist.refl _).append (List.Sublist.trans ?_ (List.sublist_append_right _ _))
    exact hwaiting id List.filter_sublist
  · obtain ⟨a, ha⟩ := List.exists_mem_of_ne_nil _ hnil
    obtain ⟨x, hx, rfl, _, rfl⟩ := mem_pick ((hforeign name id hne).subset ha)
    have howner := Dispatcher.owner_of_foreign (of_decide_eq_true (List.mem_filter.1 hx).2)
    exact Or.inr (by rw [dest, howner]; rfl)
  · rw [hin, hhome] at hnil
    by_cases hold : s.inbound (s.site.name, id) = []
    · rw [hold, List.nil_append] at hnil
      obtain ⟨a, ha⟩ := List.exists_mem_of_ne_nil _ hnil
      obtain ⟨x, hx, rfl, _, rfl⟩ := mem_pick ha
      have howner := Dispatcher.owner_of_kept (List.mem_filter.1 hx).2
      rw [hd] at howner
      exact Or.inr howner
    · exact Or.inl (by simp [hold])

theorem progress_routing (h : s.Sound A hash ring good) {env : Conditions} {log : Log k} (hhash : env.hash = hash)
    (p : PipelineId) (haccepted : log.accepted = s.log.accepted) (hwritten : log.written = s.log.written) :
    Progress hash ring s ⟨s.site.takeRouting env p, log⟩ := by
  have htotals : ∀ (site : Site k) (id : String), (Station.mk site log).totals id = s.totals id := by
    intro site id
    simp only [totals, Log.under, haccepted]
  have hin : ∀ (site : Site k) (key : OriginKey), site.ledger = s.site.ledger → site.arrivals = s.site.arrivals →
      (Station.mk site log).inbound key = s.inbound key := by
    intro site key hledger harrivals
    simp only [inbound, hledger, harrivals, hwritten]
  simp only [Site.takeRouting, hhash, h.ring]
  split
  · refine .of_sublist rfl (fun key _ => ?_) (fun id => ?_) (fun _ _ _ => .refl _) fun id => ⟨[], ?_, ?_⟩
    · rw [hin] <;> rfl
    · rw [hin] <;> rfl
    · rw [htotals, List.append_nil]
    · rw [List.append_nil]
      exact (pick_sublist _ (List.drop_sublist _ _)).append (.refl _)
  · exact progress_of_divided rfl (fun key => hin _ key rfl rfl) (htotals _) rfl rfl rfl rfl rfl

theorem progress_storing (s : Station k) {env : Conditions} {log : Log k}
    (haccepted : log.accepted = s.log.accepted) (hwritten : log.written = s.log.written) :
    Progress hash ring s ⟨s.site.takeStoring env, log⟩ := by
  have hin : ∀ key, (Station.mk (s.site.takeStoring env) log).inbound key |>.Sublist (s.inbound key) := by
    intro key
    have htrail := LedgerRun.trails_acceptBatch (show Trails s.log.written s.site.ledger.buffer fun key =>
      (s.log.written key).toList ++ (s.site.ledger.buffer.get? key).toList from fun _ => .refl _)
      s.site.storingWorker.nextBatch env.now
    simp only [inbound, hwritten, Site.takeStoring]
    have hall := ((htrail key).trans ((List.Sublist.refl _).append (takes_sublist _ _ _ key))).append
      (List.Sublist.refl (pick key (s.site.arrivals.receiveMany Worker.batchLimit).2.items))
    rw [List.append_assoc _ (pick key _) (pick key _)] at hall
    refine hall.trans ((List.Sublist.refl _).append ?_)
    exact (pick_take_drop key Worker.batchLimit s.site.arrivals.items) ▸ List.Sublist.refl _
  refine .of_sublist rfl (fun key _ => hin key) (fun id => (hin _).append (.refl _)) (fun _ _ _ => .refl _)
    fun id => ⟨[], ?_, ?_⟩
  · simp only [totals, Log.under, haccepted, List.append_nil]
  · rw [List.append_nil]
    exact .refl _

theorem progress [Cumulative k.Carrier] (h : s.Sound A hash ring good) (p : PipelineId) {m : ClusterMove k}
    (hm : m.Admissible good s.log) : Progress hash ring s (s.act p hash m) := by
  cases m with
  | submit i record => exact progress_submit p s i record
  | send i j => exact progress_mailed s j
  | lose i j => exact progress_mailed s j
  | handOn i j => exact h.progress_handOn p i j
  | flush i now => exact progress_flush p s i now
  | close i kind => exact progress_close p s i kind
  | begin i j now attached stalled =>
    obtain ⟨hnow, hle⟩ := hm
    have hbegun := s.begun p hash i j now attached stalled
    generalize s.act p hash (.begin i j now attached stalled) = t at hbegun ⊢
    cases hbegun with
    | idle => exact progress_of_eq rfl (fun _ => rfl) (fun _ _ => rfl) (fun _ => rfl) fun _ => rfl
    | entry hcan =>
      rw [Log.noteBatch_entry hcan]
      exact h.progress_entry hnow hle hcan rfl rfl
    | routing hcan => exact h.progress_routing rfl p rfl rfl
    | storing hcan =>
      obtain ⟨arrived, hlog⟩ := Log.noteBatch_storing s.site now { s.log with clock := now }
      have haccepted := congrArg Log.accepted hlog
      have hwritten := congrArg Log.written hlog
      exact progress_storing s haccepted hwritten

/-! ### Soundness is kept -/

theorem later (h : s.Sound A hash ring good) [LawfulKey k.Carrier] {now : Instant} (hnow : now.InEra)
    (hle : s.log.clock.nanos ≤ now.nanos) : Sound A hash ring good { s with log := { s.log with clock := now } } :=
  { h with
    recalls := h.recalls.mono h.clock hnow hle
    books := h.books.mono h.clock hnow hle
    clock := hnow }

theorem takeEntry [Cumulative k.Carrier] (h : s.Sound A hash ring good) {env : Conditions} (hhash : env.hash = hash)
    (hnow : env.now.InEra) (hle : s.log.clock.nanos ≤ env.now.nanos) (hcan : s.site.entryWorker.canBegin = true) :
    Sound A hash ring good
      ⟨s.site.takeEntry env, Log.noteBatch env.now s.site.entryWorker { s.log with clock := env.now }⟩ := by
  have hl := h.later hnow hle
  have hbatch : ∀ x ∈ s.site.entryWorker.nextBatch, x.origin = s.site.name ∧ good x.record :=
    fun x hx => h.entry x (List.mem_of_mem_take hx)
  obtain ⟨hanswers, hrecalls⟩ := hl.recalls.acceptBatch s.site.entryWorker.nextBatch
  have hwindow := hrecalls.window_accumulator
  rw [Log.noteBatch_entry hcan]
  refine { hl with ring := ?_, entry := ?_, answered := ?_, accepted := ?_, recalls := ?_ }
  · rw [← h.ring, ← hhash]
    exact Worker.current_begin env false s.site.entryWorker s.site.shared
  · exact fun x hx => h.entry x (List.mem_of_mem_drop hx)
  · intro x hx
    simp only [Site.takeEntry, hanswers] at hx
    exact Recorder.origin_acceptAll (fun y hy => (hbatch y hy).1) x hx
  · intro a ha
    rcases List.mem_append.1 ha with ha | ha
    · exact h.accepted a ha
    · obtain ⟨x, hx, rfl⟩ := List.mem_map.1 ha
      exact (hbatch x (List.mem_of_mem_filter hx)).2
  · rw [Recorder.acceptAll_taken] at hrecalls
    simp only [Site.takeEntry, hwindow]
    exact hrecalls

theorem takeRouting [LawfulKey k.Carrier] (h : s.Sound A hash ring good) (p : PipelineId) {env : Conditions}
    (hhash : env.hash = hash) (hnow : env.now.InEra) (hle : s.log.clock.nanos ≤ env.now.nanos) :
    Sound A hash ring good ⟨s.site.takeRouting env p, { s.log with clock := env.now }⟩ := by
  have hl := h.later hnow hle
  have hring : (((s.site.routingWorker p).begin env false s.site.shared).2.router).current hash = ring := by
    rw [← h.ring, ← hhash]
    exact Worker.current_begin env false (s.site.routingWorker p) s.site.shared
  have hbatch : ∀ x ∈ (s.site.routingWorker p).nextBatch, x.origin = s.site.name :=
    fun x hx => h.routing x (List.mem_of_mem_take hx)
  simp only [Site.takeRouting]
  split
  · exact { hl with ring := hring, routing := fun x hx => h.routing x (List.mem_of_mem_drop hx) }
  · refine { hl with ring := hring, routing := ?_, kept := ?_, mail := ?_ }
    · exact fun x hx => h.routing x (List.mem_of_mem_drop hx)
    · exact fun x hx => hbatch x (List.mem_of_mem_filter hx)
    · intro l hmem
      obtain ⟨hmem, hforeign⟩ := Dispatcher.mem_letters ((Dispatcher.letters_filter _ _).subset hmem)
      exact ⟨Dispatcher.foreign_ne_here hforeign, hbatch _ hmem⟩

theorem takeStoring [LawfulKey k.Carrier] (h : s.Sound A hash ring good) {env : Conditions} (hhash : env.hash = hash)
    (hnow : env.now.InEra) (hle : s.log.clock.nanos ≤ env.now.nanos) :
    Sound A hash ring good
      ⟨s.site.takeStoring env, Log.noteBatch env.now s.site.storingWorker { s.log with clock := env.now }⟩ := by
  have hl := h.later hnow hle
  obtain ⟨arrived, hlog⟩ := Log.noteBatch_storing s.site env.now { s.log with clock := env.now }
  obtain ⟨hwindow, hsize, hbaselines⟩ :=
    LedgerRun.window_acceptBatch s.site.ledger s.site.storingWorker.nextBatch env.now
  rw [hlog]
  refine { hl with ring := ?_, books := ?_, batch := ?_ }
  · rw [← h.ring, ← hhash]
    exact Worker.current_begin env true s.site.storingWorker s.site.shared
  · have hretention : LedgerRun.retention (s.site.ledger.acceptBatch s.site.storingWorker.nextBatch env.now).2 =
        LedgerRun.retention s.site.ledger := by
      simp only [LedgerRun.retention, Ledger.retention?, hwindow]
    simp only [Site.takeStoring, hretention, hbaselines]
    exact hl.books
  · simp only [Site.takeStoring, hsize]
    exact h.batch

/-- What a flush of the ledger comes to. -/
theorem flushedBooks [Cumulative k.Carrier] (h : s.Sound A hash ring good)
    (hready : Ready A s.log.written s.site.ledger.buffer) {now : Instant} (hnow : now.InEra)
    (hle : s.log.clock.nanos ≤ now.nanos) {d : Duration} (hd : s.site.ledger.retention? = some d) :
    ∃ added, FlushedBooks A now d s.log.written s.site.ledger s.site.store
      (s.site.ledger.flush s.site.store now) added := by
  have hbooks := (h.later hnow hle).books
  have hretention : LedgerRun.retention s.site.ledger = d := by
    rw [LedgerRun.retention, hd, Option.getD_some]
  rw [hretention] at hbooks
  exact hbooks.flush hd hready h.batch

theorem flushed [Cumulative k.Carrier] (h : s.Sound A hash ring good)
    (hready : Ready A s.log.written s.site.ledger.buffer) {now : Instant} (hnow : now.InEra)
    (hle : s.log.clock.nanos ≤ now.nanos) {f : Ledger.Counted k.Carrier}
    (hf : s.site.ledger.flushCounted s.site.store now s.site.shared.counters = some f) :
    Sound A hash ring good ⟨s.site.flushed f,
      Log.noteFlush s.site.ledger s.site.store f.store { s.log with clock := now }⟩ := by
  obtain ⟨hledger, hstore, d, hd⟩ := Ledger.flushCounted_eq_some hf
  obtain ⟨_, hwindow, hsize⟩ := LedgerRun.ledger_flush s.site.store now hd
  obtain ⟨added, hflush⟩ := h.flushedBooks hready hnow hle hd
  refine { h.later hnow hle with ring := h.ring, books := ?_, batch := ?_ }
  · have hafter : LedgerRun.retention f.ledger = d := by
      rw [LedgerRun.retention, Ledger.retention?, hledger, hwindow]
      exact congrArg (·.getD .zero) hd
    simp only [Site.flushed, Log.noteFlush, hafter]
    rw [hstore, hledger, Store.callsSince_append hflush.history]
    exact hflush.books
  · simp only [Site.flushed, hledger, hsize]
    exact h.batch

/-- Every move at a sound station leaves it sound, if what is buffered may be written. -/
theorem act [Cumulative k.Carrier] (h : s.Sound A hash ring good) (p : PipelineId) {m : ClusterMove k}
    (hm : m.Admissible good s.log) (hready : Ready A s.log.written s.site.ledger.buffer) :
    Sound A hash ring good (s.act p hash m) := by
  cases m with
  | submit i record =>
    obtain ⟨submitted, hlog⟩ := s.log.noteSubmit_eq record (s.site.entry.send ⟨s.site.name, record⟩).1
    simp only [Station.act, hlog]
    refine { h with ring := ?_, entry := ?_ }
    · simp only [Site.submitted, Shared.router_countRefusal]
      exact h.ring
    · intro x hx
      rcases StageQueue.mem_items_send hx with hx | rfl
      · exact h.entry x hx
      · exact ⟨rfl, hm⟩
  | begin i j now attached stalled =>
    obtain ⟨hnow, hle⟩ := hm
    have hbegun := s.begun p hash i j now attached stalled
    generalize s.act p hash (.begin i j now attached stalled) = t at hbegun ⊢
    cases hbegun with
    | idle => exact h.later hnow hle
    | entry hcan => exact h.takeEntry rfl hnow hle hcan
    | routing hcan => exact h.takeRouting p rfl hnow hle
    | storing hcan => exact h.takeStoring rfl hnow hle
  | send i j | lose i j =>
    rcases j with _ | _ | j
    · exact h
    · exact { h with mail := fun l hl => h.mail l (List.mem_of_mem_tail hl) }
    · exact h
  | handOn i j =>
    rcases j with _ | _ | j
    · simp only [Station.act, Site.handedOn]
      cases hanswered : s.site.answered with
      | nil => exact h
      | cons x rest =>
        have hall := fun y hy => h.answered y (hanswered ▸ hy)
        refine { h with ring := ?_, answered := fun y hy => hall y (List.mem_cons_of_mem x hy), routing := ?_ }
        · simp only [Site.handAnswered, Worker.showLength, Shared.gauge, Shared.router_countRefusal]
          exact h.ring
        · intro y hy
          rcases StageQueue.mem_items_send hy with hy | rfl
          · exact h.routing y hy
          · exact hall _ (List.mem_cons_self ..)
    · simp only [Station.act, Site.handedOn]
      cases hkept : s.site.kept with
      | nil => exact h
      | cons x rest =>
        refine { h with ring := ?_, kept := fun y hy => h.kept y (hkept ▸ List.mem_cons_of_mem x hy) }
        simp only [Site.handKept, Worker.showLength, Shared.gauge, Shared.router_countRefusal]
        exact h.ring
    · exact h
  | flush i now =>
    obtain ⟨hnow, hle⟩ := hm
    simp only [Station.act]
    cases hf : s.site.ledger.flushCounted s.site.store now s.site.shared.counters with
    | none => exact h.later hnow hle
    | some f => exact h.flushed hready hnow hle hf
  | close i kind => cases kind <;> exact { h with }

theorem receive (h : s.Sound A hash ring good) (x : Snapshot k.Carrier) : (s.receive x).Sound A hash ring good :=
  { h with }

end Station.Sound
end TraceRollup
