import TraceRollup.Proofs.Orderly

/-!
# Sites without a dispatch stage

A node whose pipeline has no stage between the totals and the ledger (`Site.direct`). Its first
worker hands what it answers straight to the last one, so it is like a node of three stages that
never has anything to divide: what was answered is kept at once (`Site.forwarded`).
-/

namespace TraceRollup

/-! ### Nodes with two stages -/

namespace Site
variable {k : RecordKind}

def directEntry (s : Site k) : Worker k.Carrier := { queue := s.entry, state := .aggregate s.totals, ready := s.kept }

/-- The node that the parts make up when nothing is divided. -/
def direct (p : PipelineId) (s : Site k) : Node :=
  ⟨s.name, s.options, s.store, s.shared, [⟨k, ⟨p, [s.directEntry, s.storingWorker]⟩, none⟩]⟩

theorem pipeline?_direct (p : PipelineId) (s : Site k) :
    (s.direct p).pipeline? k p = some ⟨p, [s.directEntry, s.storingWorker]⟩ := by
  have hid : (⟨k, ⟨p, [s.directEntry, s.storingWorker]⟩, none⟩ : AnyPipeline).id = p := rfl
  simp [Node.pipeline?, Node.find?, direct, hid]

theorem build_direct (k : RecordKind) (p : PipelineId) (name : String) (o : PipelineOptions) (store : Store)
    (shared : Shared) :
    Node.build ⟨name, o, store, shared, []⟩ k p [.aggregate, .persist] none =
      (.ok (), (create k p name o store shared).direct p) := by
  have hlayout : checkLayout p [.aggregate, .persist] = .ok () := rfl
  unfold Node.build
  rw [hlayout]
  rfl

theorem submit_direct (p : PipelineId) (s : Site k) (record : k.Carrier) :
    (s.direct p).submit k p record = ((s.entry.send ⟨s.name, record⟩).1, (s.submitted record).direct p) := by
  have hfind : (s.direct p).position? p = some 0 := by
    simp [Node.position?, direct, AnyPipeline.id]
  unfold Node.submit
  rw [hfind]
  simp only [direct, List.getElem?_cons_zero, dif_pos]
  rfl

theorem flush_direct (p : PipelineId) (s : Site k) (now : Instant) :
    (s.direct p).flushAt now 0 =
      (s.ledger.flushCounted s.store now s.shared.counters).map fun f => ⟨f.report, [], (s.flushed f).direct p⟩ := by
  have hledger : Pipeline.ledger? (α := k.Carrier) ⟨p, [s.directEntry, s.storingWorker]⟩ = some s.ledger := rfl
  unfold Node.flushAt
  simp only [direct, List.getElem?_cons_zero, hledger]
  cases hf : s.ledger.flushCounted s.store now s.shared.counters with
  | none =>
    simp only [Node.counters, hf]
    rfl
  | some f =>
    simp only [Node.counters, hf]
    rfl

theorem makes_direct (p : PipelineId) : Makes (k := k) p (direct p) where
  name _ := rfl
  store _ := rfl
  ledger s := by
    rw [pipeline?_direct]
    rfl
  storing s l hl w hw ledger hstate := by
    rw [pipeline?_direct] at hl
    cases hl
    simp only [List.mem_cons, List.not_mem_nil, or_false] at hw
    rcases hw with rfl | rfl
    · cases hstate
    · rfl
  submit s record := s.submit_direct p record
  flush s now := s.flush_direct p now

theorem cancel_direct (p : PipelineId) (s : Site k) (kind : StageKind) :
    (s.direct p).cancel kind = (s.closed kind).direct p := by
  cases kind <;> rfl

theorem takeMail_direct (p : PipelineId) (s : Site k) (j : Nat) : (s.direct p).takeMail 0 j = (none, s.direct p) := by
  match j with
  | 0 | 1 | _ + 2 => rfl

/-! ### Batches and what is handed on -/

/-- What was answered is kept. -/
def forwarded (s : Site k) : Site k := { s with answered := [], kept := s.answered }

theorem directEntry_eq {s : Site k} (hanswered : s.answered = []) (hkept : s.kept = []) :
    s.directEntry = s.entryWorker := by
  rw [directEntry, entryWorker, hanswered, hkept]

/-- The first worker leaves alone what comes after it. -/
theorem beginEntry_frame (env : Conditions) (s : Site k) :
    (s.beginEntry env).routing = s.routing ∧ (s.beginEntry env).mail = s.mail ∧ (s.beginEntry env).kept = s.kept := by
  unfold beginEntry
  split <;> exact ⟨rfl, rfl, rfl⟩

theorem begin_direct_entry (env : Conditions) (p : PipelineId) {s : Site k} (hanswered : s.answered = [])
    (hkept : s.kept = []) : (s.direct p).begin env 0 0 = (s.beginEntry env).forwarded.direct p := by
  have hworker := directEntry_eq hanswered hkept
  rw [Node.begin_lone (p := p) env (s.direct p) rfl (w := s.entryWorker) (congrArg some hworker)]
  unfold beginEntry
  split
  · rename_i h
    rw [Worker.begin_of_output h _ rfl]
    rfl
  · rename_i h
    rw [Worker.begin_of_not h]
    simp only [forwarded, direct, directEntry, entryWorker, hanswered, List.set_cons_zero]
    rfl

theorem begin_direct_busy (env : Conditions) (p : PipelineId) {s : Site k} (hkept : s.kept ≠ []) :
    ¬ s.directEntry.canBegin = true ∧ (s.direct p).begin env 0 0 = s.direct p := by
  have hcan : ¬ s.directEntry.canBegin = true := fun h => hkept (Worker.idle_of_canBegin h).2
  refine ⟨hcan, ?_⟩
  rw [Node.begin_lone (p := p) env (s.direct p) rfl (w := s.directEntry) rfl, Worker.begin_of_not hcan]
  rfl

theorem begin_direct_storing (env : Conditions) (p : PipelineId) (s : Site k) :
    (s.direct p).begin env 0 1 = (s.beginStoring env).direct p := by
  rw [Node.begin_lone (p := p) env (s.direct p) rfl (w := s.storingWorker) rfl]
  unfold beginStoring
  split
  · rename_i h
    rw [Worker.begin_of_output h _ rfl]
    rfl
  · rename_i h
    rw [Worker.begin_of_not h]
    rfl

/-- The first worker hands a total straight to the last. -/
def handDirect (s : Site k) (x : Snapshot k.Carrier) (rest : List (Snapshot k.Carrier)) : Site k :=
  { s with
    kept := rest
    arrivals := (s.arrivals.send x).2
    shared := s.directEntry.showLength
      (s.shared.countRefusal (Rollup.tag k.Carrier) s.arrivals.stage (s.arrivals.send x).1) }

def handedDirect (s : Site k) : Nat → Site k
  | 0 => match s.kept with
    | [] => s
    | x :: rest => s.handDirect x rest
  | _ + 1 => s

theorem handOn_direct (p : PipelineId) (s : Site k) (j : Nat) : (s.direct p).handOn 0 j = (s.handedDirect j).direct p := by
  match j with
  | 0 =>
    simp only [Node.handOn, direct, Pipeline.handOn, List.getElem?_cons_zero, List.getElem?_cons_succ, directEntry,
      handedDirect]
    cases h : s.kept with
    | nil => simp [h]
    | cons x rest => rfl
  | 1 | _ + 2 => rfl

theorem name_handedDirect (s : Site k) (j : Nat) : (s.handedDirect j).name = s.name := by
  match j with
  | 0 =>
    simp only [handedDirect]
    split <;> rfl
  | _ + 1 => rfl

end Site

/-! ### Moves -/

namespace Station
variable {k : RecordKind}

def forwarded (s : Station k) : Station k := { s with site := s.site.forwarded }

/-- Nothing is on its way to being divided. -/
structure Unrouted (s : Station k) : Prop where
  answered : s.site.answered = []
  routing : s.site.routing.items = []
  mail : s.site.mail = []

/-- What a move does at a station without a dispatch stage. The numbers of its two stages are 0 and 1. -/
def actDirect (p : PipelineId) (hash : PointHash) (s : Station k) : ClusterMove k → Station k
  | .begin i 0 now attached stalled =>
    if s.site.kept = [] then (s.act p hash (.begin i 0 now attached stalled)).forwarded
    else { s with log := { s.log with clock := now } }
  | .begin i 1 now attached stalled => s.act p hash (.begin i 2 now attached stalled)
  | .begin _ (_ + 2) now _ _ => { s with log := { s.log with clock := now } }
  | .handOn _ j => { s with site := s.site.handedDirect j }
  | .send _ _ | .lose _ _ => s
  | .submit i record => s.act p hash (.submit i record)
  | .flush i now => s.act p hash (.flush i now)
  | .close i kind => s.act p hash (.close i kind)

end Station

/-- A move at a node changes the station there, and no other. -/
theorem Composed.step_direct {k : RecordKind} {p : PipelineId} {r : ClusterRun k} {hash : PointHash} {count : Nat}
    {stations : Nat → Station k} (h : Composed (Site.direct p) r hash count stations)
    (hunrouted : ∀ i < count, (stations i).Unrouted) {m : ClusterMove k} (hm : m.node < count) :
    Composed (Site.direct p) (r.step p m) hash count
      (Function.update stations m.node ((stations m.node).actDirect p hash m)) := by
  have hpipeline := (stations m.node).site.pipeline?_direct p
  have hanswered := (hunrouted m.node hm).answered
  cases m with
  | submit i record => exact h.step_submit (Site.makes_direct p) hm record
  | begin i j now attached stalled =>
    simp only [ClusterMove.node] at hm hpipeline hanswered ⊢
    rcases j with _ | _ | j
    · by_cases hkept : (stations i).site.kept = []
      · simp only [Station.actDirect, if_pos hkept]
        refine h.step_begin hm (Site.begin_direct_entry _ p hanswered hkept) ?_ ?_
        · rw [hpipeline, Site.directEntry_eq hanswered hkept]
          rfl
        · exact ((stations i).same_act p hash (.begin i 0 now attached stalled)).name
      · simp only [Station.actDirect, if_neg hkept]
        obtain ⟨hcan, hbegin⟩ := Site.begin_direct_busy
          (Cluster.conditions { nodes := [], hash, attached, stalled, clock := now }) p hkept
        refine h.step_begin hm hbegin ?_ rfl
        rw [hpipeline]
        exact Log.noteBatch_of_not hcan _
    · refine h.step_begin hm (Site.begin_direct_storing _ p _) ?_ ?_
      · rw [hpipeline]
        rfl
      · exact ((stations i).same_act p hash (.begin i 2 now attached stalled)).name
    · refine h.step_begin hm rfl ?_ rfl
      rw [hpipeline]
      rfl
  | send i j =>
    simp only [ClusterMove.node] at hm ⊢
    have hstep : r.step p (.send i j) = r := by
      simp only [ClusterRun.step, Cluster.sendMail, h.getElem? hm, Site.takeMail_direct, h.set_self]
    rw [hstep, Station.actDirect, Function.update_eq_self]
    exact h
  | lose i j =>
    refine h.modify (t := (stations i).site) hm ?_ rfl
    rw [Site.takeMail_direct]
    rfl
  | handOn i j => exact h.modify hm (Site.handOn_direct p _ j) (Site.name_handedDirect _ j)
  | flush i now => exact h.step_flush (Site.makes_direct p) hm now
  | close i kind =>
    exact h.modify hm (Site.cancel_direct p _ kind) ((stations i).same_act p hash (.close i kind)).name

/-! ### Progress -/

section
variable {k : RecordKind} {V : Type} [AddCommMonoid V] {A : Account k.Carrier V} {hash : PointHash} {ring : HashRing}
  {good : k.Carrier → Prop} {s t : Station k}

/-- Who owns a key does not matter where nothing is divided. -/
theorem Progress.undivided (h : Progress hash ring s t) (hmail : t.site.mail = []) : Progress hash default s t where
  name := h.name
  foreign := h.foreign
  home := h.home
  place name id hne hnil := by
    rw [Station.handed, h.name, if_neg hne, hmail] at hnil
    exact absurd rfl hnil
  placeHome _ _ := Or.inr rfl

theorem Progress.forwarded (h : Progress hash ring s t) (hrouting : t.site.routing.items = [])
    (hmail : t.site.mail = []) (hkept : t.site.kept = []) : Progress hash default s t.forwarded := by
  have hwaiting : ∀ id, t.waiting id = pick (t.site.name, id) t.site.answered ∧ t.forwarded.waiting id = [] := by
    intro id
    simp only [Station.waiting, Station.forwarded, Site.forwarded, hrouting, pick_nil, List.nil_append, and_self]
  have hself : ∀ id, t.handed s.site.name id = [] ∧
      t.forwarded.handed s.site.name id = pick (t.site.name, id) t.site.answered := by
    intro id
    simp [Station.handed, Station.forwarded, Site.forwarded, h.name, hkept, pick_nil]
  have hother : ∀ name id, name ≠ s.site.name → t.forwarded.handed name id = [] := by
    intro name id hne
    simp only [Station.handed, Station.forwarded, Site.forwarded, h.name, if_neg hne, hmail]
    rfl
  refine ⟨h.name, h.foreign, fun id => ?_, fun name id hne hnil => absurd (hother name id hne) hnil,
    fun _ _ => Or.inr rfl⟩
  obtain ⟨new, htotals, _, hin⟩ := h.home id
  refine ⟨new, htotals, fun name hne => ?_, ?_⟩
  · rw [hother name id hne, (hwaiting id).2]
    exact List.nil_sublist _
  · rw [(hself id).1, (hwaiting id).1, List.append_nil] at hin
    rw [(hself id).2, (hwaiting id).2, List.append_nil]
    exact hin

theorem Progress.reshared (h : Progress hash ring s t) (sh : Shared) :
    Progress hash ring s { t with site := { t.site with shared := sh } } :=
  ⟨h.name, h.foreign, h.home, h.place, h.placeHome⟩

namespace Station

theorem Unrouted.actDirect (h : s.Unrouted) (p : PipelineId) (hash : PointHash) (m : ClusterMove k) :
    (s.actDirect p hash m).Unrouted := by
  cases m with
  | submit i record => exact ⟨h.answered, h.routing, h.mail⟩
  | begin i j now attached stalled =>
    rcases j with _ | _ | j
    · simp only [Station.actDirect]
      split
      · obtain ⟨hrouting, hmail, _⟩ :=
          s.site.beginEntry_frame (Cluster.conditions { nodes := [], hash, attached, stalled, clock := now })
        exact ⟨rfl, (congrArg StageQueue.items hrouting).trans h.routing, hmail.trans h.mail⟩
      · exact ⟨h.answered, h.routing, h.mail⟩
    · simp only [Station.actDirect, act, Site.begun, Site.beginStoring]
      split <;> exact ⟨h.answered, h.routing, h.mail⟩
    · exact ⟨h.answered, h.routing, h.mail⟩
  | send i j => exact h
  | lose i j => exact h
  | handOn i j =>
    rcases j with _ | j
    · simp only [Station.actDirect, Site.handedDirect]
      split <;> exact ⟨h.answered, h.routing, h.mail⟩
    · exact h
  | flush i now =>
    simp only [Station.actDirect, act]
    split <;> exact ⟨h.answered, h.routing, h.mail⟩
  | close i kind => cases kind <;> exact ⟨h.answered, h.routing, h.mail⟩

theorem Sound.forwarded (h : s.Sound A hash ring good) : s.forwarded.Sound A hash ring good :=
  { h with
    answered := fun _ hx => absurd hx List.not_mem_nil
    kept := h.answered }

/-- A move where nothing is divided is progress, and leaves a sound station sound. -/
theorem Sound.actDirect [Cumulative k.Carrier] (h : s.Sound A hash ring good) (hunrouted : s.Unrouted) (p : PipelineId)
    {m : ClusterMove k} (hm : m.Admissible good s.log) (hready : Ready A s.log.written s.site.ledger.buffer) :
    (s.actDirect p hash m).Sound A hash ring good ∧ Progress hash default s (s.actDirect p hash m) := by
  have hnext := hunrouted.actDirect p hash m
  cases m with
  | submit i record => exact ⟨h.act p hm hready, (h.progress p hm).undivided hnext.mail⟩
  | begin i j now attached stalled =>
    have hlater : Sound A hash ring good { s with log := { s.log with clock := now } } := h.later hm.1 hm.2
    have hsame : Progress hash default s { s with log := { s.log with clock := now } } :=
      progress_of_eq rfl (fun _ => rfl) (fun _ _ => rfl) (fun _ => rfl) fun _ => rfl
    match j with
    | 0 =>
      have hm' : ClusterMove.Admissible good s.log (.begin i 0 now attached stalled) := hm
      simp only [Station.actDirect]
      split
      · rename_i hkept
        have hact := h.act p hm' hready
        have hprogress := h.progress p hm'
        obtain ⟨hrouting, hmail, hkeeps⟩ :=
          s.site.beginEntry_frame (Cluster.conditions { nodes := [], hash, attached, stalled, clock := now })
        exact ⟨hact.forwarded, hprogress.forwarded ((congrArg StageQueue.items hrouting).trans hunrouted.routing)
          (hmail.trans hunrouted.mail) (hkeeps.trans hkept)⟩
      · exact ⟨hlater, hsame⟩
    | 1 =>
      have hm' : ClusterMove.Admissible good s.log (.begin i 2 now attached stalled) := hm
      exact ⟨h.act p hm' hready, (h.progress p hm').undivided hnext.mail⟩
    | _ + 2 => exact ⟨hlater, hsame⟩
  | send i j => exact ⟨h, progress_of_eq rfl (fun _ => rfl) (fun _ _ => rfl) (fun _ => rfl) fun _ => rfl⟩
  | lose i j => exact ⟨h, progress_of_eq rfl (fun _ => rfl) (fun _ _ => rfl) (fun _ => rfl) fun _ => rfl⟩
  | handOn i j =>
    match j with
    | 0 =>
      have hact := h.act p (m := .handOn i 1) trivial hready
      have hprogress := h.progress p (m := .handOn i 1) trivial
      simp only [Station.act, Site.handedOn] at hact hprogress
      simp only [Station.actDirect, Site.handedDirect]
      cases hkept : s.site.kept with
      | nil =>
        rw [hkept] at hact hprogress
        exact ⟨hact, hprogress.undivided hunrouted.mail⟩
      | cons x rest =>
        rw [hkept] at hact hprogress
        refine ⟨{ hact with ring := ?_ }, (hprogress.undivided hunrouted.mail).reshared _⟩
        simp only [Site.handDirect, Worker.showLength, Shared.gauge, Shared.router_countRefusal]
        exact h.ring
    | _ + 1 => exact ⟨h, progress_of_eq rfl (fun _ => rfl) (fun _ _ => rfl) (fun _ => rfl) fun _ => rfl⟩
  | flush i now => exact ⟨h.act p hm hready, (h.progress p hm).undivided hnext.mail⟩
  | close i kind => exact ⟨h.act p hm hready, (h.progress p hm).undivided hnext.mail⟩

end Station
end

end TraceRollup
