import TraceRollup.Proofs.ClusterCounts
import TraceRollup.Proofs.NothingLost

/-!
# Shutting down

A lone node closes its stages one after another, and each worker finishes before the next stage
is closed. A stage that was closed and finished has nothing left and gets nothing more
(`Station.Later`), whatever else the node does meanwhile. So when its ledger is flushed at last,
the rows are the merges of all that was submitted (`ClusterRun.stored_of_shutdown`).
-/

namespace TraceRollup

/-! ### Quiet stages -/

namespace StageQueue
variable {α : Type}

theorem cancelled_send (q : StageQueue α) (x : α) : (q.send x).2.cancelled = q.cancelled := by
  unfold send
  split
  · rfl
  · split <;> rfl

theorem items_send_of_cancelled {q : StageQueue α} (h : q.cancelled = true) (x : α) : (q.send x).2.items = q.items := by
  unfold send
  rw [if_pos (by rw [refusesAll, h, Bool.true_or])]

end StageQueue

theorem Worker.items_of_canBegin {α : Type} {w : Worker α} (h : w.canBegin = true) : w.queue.items ≠ [] := by
  simp only [canBegin, StageQueue.isEmpty, Bool.and_eq_true, Bool.not_eq_true', List.isEmpty_eq_false_iff] at h
  exact h.2

namespace Station
variable {k : RecordKind}

/-- A stage has nothing left to do; the first one gets nothing more. -/
def Quiet (s : Station k) : StageKind → Prop
  | .aggregate => s.site.entry.cancelled = true ∧ s.site.entry.items = [] ∧ s.site.answered = []
  | .dispatch => s.site.routing.items = [] ∧ s.site.mail = [] ∧ s.site.kept = []
  | .persist => s.site.arrivals.items = []

/-- What stays as it is from one station to a later one. -/
structure Later (s t : Station k) : Prop where
  name : t.site.name = s.site.name
  window : t.site.ledger.window = s.site.ledger.window
  cancelled : s.site.entry.cancelled = true → t.site.entry.cancelled = true
  aggregate : s.Quiet .aggregate → t.Quiet .aggregate
  dispatch : s.Quiet .aggregate → s.Quiet .dispatch → t.Quiet .dispatch
  persist : s.Quiet .aggregate → s.Quiet .dispatch → s.Quiet .persist → t.Quiet .persist

namespace Later
variable {s t u : Station k}

theorem refl (s : Station k) : s.Later s := ⟨rfl, rfl, id, id, fun _ h => h, fun _ _ h => h⟩

theorem trans (h : s.Later t) (h' : t.Later u) : s.Later u where
  name := h'.name.trans h.name
  window := h'.window.trans h.window
  cancelled hs := h'.cancelled (h.cancelled hs)
  aggregate hs := h'.aggregate (h.aggregate hs)
  dispatch hs hd := h'.dispatch (h.aggregate hs) (h.dispatch hs hd)
  persist hs hd hp := h'.persist (h.aggregate hs) (h.dispatch hs hd) (h.persist hs hd hp)

theorem entry (s : Station k) {env : Conditions} {log : Log k} (hcan : s.site.entryWorker.canBegin = true) :
    s.Later ⟨s.site.takeEntry env, log⟩ := by
  have hitems : s.site.entry.items ≠ [] := Worker.items_of_canBegin hcan
  exact ⟨rfl, rfl, id, fun h => absurd h.2.1 hitems, fun _ h => h, fun _ _ h => h⟩

theorem routing (s : Station k) (p : PipelineId) {env : Conditions} {log : Log k}
    (hcan : (s.site.routingWorker p).canBegin = true) : s.Later ⟨s.site.takeRouting env p, log⟩ := by
  have hitems : s.site.routing.items ≠ [] := Worker.items_of_canBegin hcan
  simp only [Site.takeRouting]
  split <;> exact ⟨rfl, rfl, id, id, fun _ h => absurd h.1 hitems, fun _ _ h => h⟩

theorem storing (s : Station k) {env : Conditions} {log : Log k} (hcan : s.site.storingWorker.canBegin = true) :
    s.Later ⟨s.site.takeStoring env, log⟩ := by
  have hitems : s.site.arrivals.items ≠ [] := Worker.items_of_canBegin hcan
  have hwindow : (s.site.takeStoring env).ledger.window = s.site.ledger.window :=
    (LedgerRun.window_acceptBatch s.site.ledger s.site.storingWorker.nextBatch env.now).1
  exact ⟨rfl, hwindow, id, id, fun _ h => h, fun _ _ h => absurd h hitems⟩

theorem handOn (s : Station k) (p : PipelineId) (j : Nat) : s.Later { s with site := s.site.handedOn p j } := by
  match j with
  | 0 =>
    simp only [Site.handedOn]
    cases hanswered : s.site.answered with
    | nil => exact .refl s
    | cons x rest =>
      have hnot : ¬ s.Quiet .aggregate := fun h => by
        have hnil := h.2.2
        rw [hanswered] at hnil
        cases hnil
      exact ⟨rfl, rfl, id, fun h => absurd h hnot, fun h => absurd h hnot, fun h => absurd h hnot⟩
  | 1 =>
    simp only [Site.handedOn]
    cases hkept : s.site.kept with
    | nil => exact .refl s
    | cons x rest =>
      have hnot : ¬ s.Quiet .dispatch := fun h => by
        have hnil := h.2.2
        rw [hkept] at hnil
        cases hnil
      exact ⟨rfl, rfl, id, id, fun _ h => absurd h hnot, fun _ h => absurd h hnot⟩
  | _ + 2 => exact .refl s

theorem mailed (s : Station k) (j : Nat) : s.Later { s with site := s.site.mailed j } := by
  match j with
  | 0 | _ + 2 => exact .refl s
  | 1 =>
    refine ⟨rfl, rfl, id, id, fun _ h => ⟨h.1, ?_, h.2.2⟩, fun _ _ h => h⟩
    rw [Site.mailed, h.2.1]
    rfl

theorem act (s : Station k) (p : PipelineId) (hash : PointHash) (m : ClusterMove k) : s.Later (s.act p hash m) := by
  cases m with
  | submit i record =>
    refine ⟨rfl, rfl, fun h => ?_, fun h => ⟨?_, ?_, h.2.2⟩, fun _ h => h, fun _ _ h => h⟩
    · exact (StageQueue.cancelled_send _ _).trans h
    · exact (StageQueue.cancelled_send _ _).trans h.1
    · exact (StageQueue.items_send_of_cancelled h.1 _).trans h.2.1
  | begin i j now attached stalled =>
    have hbegun := s.begun p hash i j now attached stalled
    generalize s.act p hash (.begin i j now attached stalled) = t at hbegun ⊢
    cases hbegun with
    | idle => exact ⟨rfl, rfl, id, id, fun _ h => h, fun _ _ h => h⟩
    | entry hcan => exact entry s hcan
    | routing hcan => exact routing s p hcan
    | storing hcan => exact storing s hcan
  | send i j => exact mailed s j
  | lose i j => exact mailed s j
  | handOn i j => exact handOn s p j
  | flush i now =>
    simp only [Station.act]
    cases hf : s.site.ledger.flushCounted s.site.store now s.site.shared.counters with
    | none => exact ⟨rfl, rfl, id, id, fun _ h => h, fun _ _ h => h⟩
    | some f =>
      obtain ⟨hledger, _, d, hd⟩ := Ledger.flushCounted_eq_some hf
      have hwindow : f.ledger.window = s.site.ledger.window := by
        rw [hledger]
        exact (LedgerRun.ledger_flush s.site.store now hd).2.1
      exact ⟨rfl, hwindow, id, id, fun _ h => h, fun _ _ h => h⟩
  | close i kind =>
    cases kind with
    | aggregate => exact ⟨rfl, rfl, fun _ => rfl, fun h => ⟨rfl, h.2⟩, fun _ h => h, fun _ _ h => h⟩
    | dispatch => exact ⟨rfl, rfl, id, id, fun _ h => h, fun _ _ h => h⟩
    | persist => exact ⟨rfl, rfl, id, id, fun _ h => h, fun _ _ h => h⟩

end Later

/-- Nothing is for another node. -/
structure Still (s : Station k) : Prop where
  mail : s.site.mail = []
  unstuck : s.site.stuck = false

theorem Still.act {s : Station k} {hash : PointHash} {ring : HashRing} (h : s.Still)
    (hring : s.site.shared.router.current hash = ring) (howner : ring.GivesAllTo hash s.site.name) (p : PipelineId)
    (m : ClusterMove k) : (s.act p hash m).Still := by
  cases m with
  | submit i record => exact ⟨h.mail, h.unstuck⟩
  | begin i j now attached stalled =>
    have hbegun := s.begun p hash i j now attached stalled
    generalize s.act p hash (.begin i j now attached stalled) = t at hbegun ⊢
    cases hbegun with
    | idle | entry | storing => exact ⟨h.mail, h.unstuck⟩
    | routing =>
      have hbundles : (s.site.dispatcher p).bundles hash ring (s.site.routingWorker p).nextBatch = [] :=
        Dispatcher.bundles_of_givesAll howner _
      have hhash : (Cluster.conditions ⟨[], hash, attached, stalled, now⟩).hash = hash := rfl
      simp only [Site.takeRouting, hhash, hring, hbundles, List.any_nil, Bool.false_eq_true, if_false]
      exact ⟨rfl, h.unstuck⟩
  | send i j | lose i j =>
    rcases j with _ | _ | j
    · exact h
    · refine ⟨?_, h.unstuck⟩
      show s.site.mail.tail = []
      rw [h.mail]
      rfl
    · exact h
  | handOn i j =>
    rcases j with _ | _ | j
    · simp only [Station.act, Site.handedOn]
      split <;> exact ⟨h.mail, h.unstuck⟩
    · simp only [Station.act, Site.handedOn]
      split <;> exact ⟨h.mail, h.unstuck⟩
    · exact h
  | flush i now =>
    simp only [Station.act]
    split <;> exact ⟨h.mail, h.unstuck⟩
  | close i kind => cases kind <;> exact ⟨h.mail, h.unstuck⟩

end Station

/-! ### Runs of a lone node -/

namespace ClusterRun
variable {k : RecordKind}

/-- A cluster of one node, which is its only member. -/
def Lone (p : PipelineId) (o : PipelineOptions) (r : ClusterRun k) : Prop :=
  ∃ n virtualNodes, r.cluster.nodes = [n] ∧ n.options = o ∧ r.Opens p [n.name] virtualNodes

/-- The node of a collector that runs alone. -/
theorem lone_sole (p : PipelineId) (o : PipelineOptions) {store : Store} (hstore : store.table k.tag = Dict.empty)
    (hash : PointHash) (attached : List String) (stalled : Bool) (clock : Instant) :
    Lone (k := k) p o
      ⟨⟨[((Node.sole o store).build k p Collector.layout none).2], hash, attached, stalled, clock⟩, fun _ => {}⟩ := by
  refine ⟨_, 1, rfl, rfl, ⟨fun n hn => ?_, List.nodup_singleton _, fun _ => rfl⟩⟩
  obtain rfl := List.mem_singleton.1 hn
  exact ⟨.sole o store, ⟨rfl, fun _ => .rfl, rfl, nofun, hstore⟩, rfl⟩

/-- No snapshot waits for a flush longer than the window. -/
def Prompt (p : PipelineId) (r : ClusterRun k) : ClusterMove k → Prop
  | .flush i now => ∀ ledger, r.ledger? p i = some ledger → ∀ key, ledger.buffer.get? key ≠ none →
    now.nanos ≤ ((r.logs i).arrived key).nanos + ledger.window.nanos
  | _ => True

instance (p : PipelineId) (r : ClusterRun k) : (m : ClusterMove k) → Decidable (r.Prompt p m)
  | .flush i now =>
    decidable_of_iff (∀ ledger ∈ (r.ledger? p i).toList, ∀ key ∈ ledger.buffer.keys,
        now.nanos ≤ ((r.logs i).arrived key).nanos + ledger.window.nanos) <| by
      simp only [Prompt, Option.mem_toList, Dict.keys, Dict.get?, ne_eq, Entries.find_eq_none_iff, not_not]
  | .submit _ _ | .begin _ _ _ _ _ | .send _ _ | .lose _ _ | .handOn _ _ | .close _ _ => .isTrue trivial

/-- A move at a time that is admissible and in time for what is buffered. -/
def Timely (p : PipelineId) (good : k.Carrier → Prop) (r : ClusterRun k) (m : ClusterMove k) : Prop :=
  m.Admissible good (r.logs m.node) ∧ r.Prompt p m

/-- The workers of the stages of a kind have finished. -/
def Drained (p : PipelineId) (r : ClusterRun k) (kind : StageKind) : Prop :=
  (((r.cluster.nodes[0]?).bind fun n => n.pipeline? k p).all fun q =>
    q.workers.all fun w => decide (w.state.kind ≠ kind) || (w.isIdle && w.queue.isEmpty)) = true

instance (p : PipelineId) (r : ClusterRun k) (kind : StageKind) : Decidable (r.Drained p kind) :=
  inferInstanceAs (Decidable (_ = true))

/-- Stages are closed in order, each once the workers of the one before have finished. -/
inductive Closes (p : PipelineId) (admits : ClusterRun k → ClusterMove k → Prop) :
    List StageKind → ClusterRun k → ClusterRun k → Prop
  | nil (r : ClusterRun k) : Closes p admits [] r r
  | cons {kind : StageKind} {rest : List StageKind} {r s t : ClusterRun k}
    (hreach : Reaches p admits (r.step p (.close 0 kind)) s) (hdrained : s.Drained p kind)
    (hrest : Closes p admits rest s t) : Closes p admits (kind :: rest) r t

/-- A lone node is run in any way, its stages are closed, and its ledger is flushed once more.
No call of the store was refused, and only the queue before the first stage has refused records. -/
structure Shutdown (p : PipelineId) (o : PipelineOptions) (good : k.Carrier → Prop) (start last : ClusterRun k)
    (now : Instant) (n : Node) : Prop where
  lone : start.Lone p o
  closed : ∃ r, Reaches p (Timely p good) start r ∧ Closes p (Timely p good) StageKind.closingOrder r last
  flush : last.Timely p good (.flush 0 now)
  node : (last.step p (.flush 0 now)).cluster.nodes[0]? = some n
  dropped : ∀ stage reason, n.counters.get (.dropped k.tag stage reason) ≠ 0 →
    stage = (StageId.of p .aggregate).number.toNat ∧ reason ∈ ["queue_saturated", "closed"]
  answered : ∀ c ∈ n.store.history, ¬ c.Refused

end ClusterRun

theorem Upheld.congr {k : RecordKind} {V : Type} [AddCommMonoid V] {A : Account k.Carrier V} {p : PipelineId}
    {hash : PointHash} {ring : HashRing} {good : k.Carrier → Prop} {r : ClusterRun k} {s : Station k}
    {stations : Nat → Station k} (h : Upheld A p hash ring good r 1 stations) (hs : stations 0 = s) :
    Upheld A p hash ring good r 1 fun _ => s := by
  have hzero : ∀ i < 1, stations i = s := fun i hi => by rw [Nat.lt_one_iff.1 hi, hs]
  refine ⟨⟨⟨h.stationed.hash_eq, ?_, fun i hi => ?_, fun i hi j hj _ => by omega⟩, fun i hi => ?_⟩, fun i hi => ?_,
    fun o ho d hd id => ?_, fun i hi key hnil => ?_⟩
  · rw [h.stationed.nodes]
    exact List.map_congr_left fun i hi => by rw [hzero i (List.mem_range.1 hi)]
  · rw [← hzero i hi]
    exact h.stationed.logs i hi
  · rw [← hzero i hi]
    exact h.stationed.placed i hi
  · rw [← hzero i hi]
    exact h.sound i hi
  · have hline := h.lines o ho d hd id
    rwa [hzero o ho, hzero d hd] at hline
  · rw [← hzero i hi] at hnil
    obtain ⟨o, ho, hname⟩ := h.known i hi key hnil
    exact ⟨o, ho, by rw [← hname, hzero o ho]⟩

/-- A run of one node, which owns every key, is that of a station that stays complete while it is clean. -/
structure Alone {k : RecordKind} {V : Type} [AddCommMonoid V] (A : Account k.Carrier V) (p : PipelineId)
    (hash : PointHash) (ring : HashRing) (good : k.Carrier → Prop) (r : ClusterRun k) (s : Station k) : Prop where
  upheld : Upheld A p hash ring good r 1 fun _ => s
  owner : ring.GivesAllTo hash s.site.name
  still : s.Still
  complete : s.Clean p → s.Complete

namespace Alone
variable {k : RecordKind} {V : Type} [AddCommMonoid V] {A : Account k.Carrier V} {p : PipelineId} {hash : PointHash}
  {ring : HashRing} {good : k.Carrier → Prop} {r : ClusterRun k} {s : Station k}

theorem getElem? (h : Alone A p hash ring good r s) : r.cluster.nodes[0]? = some (s.site.node p) :=
  h.upheld.stationed.getElem? Nat.one_pos

theorem logs (h : Alone A p hash ring good r s) : r.logs 0 = s.log := h.upheld.stationed.logs 0 Nat.one_pos

theorem sound (h : Alone A p hash ring good r s) : s.Sound A hash ring good := h.upheld.sound 0 Nat.one_pos

theorem ready (h : Alone A p hash ring good r s) (hchain : ∀ id, A.Chain id (s.totals id)) :
    Ready A s.log.written s.site.ledger.buffer := h.upheld.ready (fun _ _ => hchain) Nat.one_pos

theorem prompt (h : Alone A p hash ring good r s) {m : ClusterMove k} (hm : m.node = 0) (hprompt : r.Prompt p m) :
    s.Prompt m := by
  cases m with
  | flush i now =>
    simp only [ClusterMove.node] at hm
    subst hm
    have hledger : r.ledger? p 0 = some s.site.ledger := by
      simp only [ClusterRun.ledger?, h.getElem?, Option.bind_eq_bind, Option.bind_some, Site.pipeline?_node]
      rfl
    have hall := hprompt _ hledger
    rw [h.logs] at hall
    exact hall
  | _ => trivial

theorem step [Cumulative k.Carrier] (h : Alone A p hash ring good r s) (hchain : ∀ id, A.Chain id (s.totals id))
    {m : ClusterMove k} (hm : r.Timely p good m) :
    ∃ t, Alone A p hash ring good (r.step p m) t ∧ s.Later t ∧ (m.node = 0 → t = s.act p hash m) := by
  obtain ⟨hadmissible, hprompt⟩ := hm
  obtain ⟨next, hnext, hmoved⟩ := h.upheld.step hadmissible fun _ _ => hchain
  cases hmoved with
  | nowhere hnode => exact ⟨s, ⟨hnext, h.owner, h.still, h.complete⟩, .refl s, fun hzero => by omega⟩
  | here hnode =>
    have hzero : m.node = 0 := by omega
    have hlog : m.Admissible good s.log := h.logs ▸ hzero ▸ hadmissible
    have hready := h.ready hchain
    have hlater := Station.Later.act s p hash m
    refine ⟨s.act p hash m, ⟨hnext.congr ?_, ?_, h.still.act h.sound.ring h.owner p m, fun hclean => ?_⟩, hlater,
      fun _ => rfl⟩
    · rw [hzero, Function.update_self]
    · rw [hlater.name]
      exact h.owner
    · have hcomplete := h.complete (hclean.of_act h.sound hready hlog)
      exact hcomplete.act h.sound (h.upheld.stationed.placed 0 Nat.one_pos) h.owner hready hlog
        (h.prompt hzero hprompt) hclean
  | sent hm hi hd hne hx => exact absurd rfl hne

variable [Cumulative k.Carrier] {small : ClusterRun k → Prop}

theorem reaches (hsmall : ∀ r m, small (ClusterRun.step p r m) → small r)
    (hchain : ∀ r s, small r → Alone A p hash ring good r s → ∀ id, A.Chain id (s.totals id))
    {next : ClusterRun k} (h : Alone A p hash ring good r s)
    (hreach : ClusterRun.Reaches p (ClusterRun.Timely p good) r next) (hlast : small next) :
    ∃ t, Alone A p hash ring good next t ∧ s.Later t := by
  induction hreach with
  | refl => exact ⟨s, h, .refl s⟩
  | step m _ hm ih =>
    have hbefore := hsmall _ _ hlast
    obtain ⟨t, ht, hlater⟩ := ih hbefore
    obtain ⟨u, hu, hlater', _⟩ := ht.step (hchain _ _ hbefore ht) hm
    exact ⟨u, hu, hlater.trans hlater'⟩

omit [Cumulative k.Carrier] in
theorem small_of_reaches (hsmall : ∀ r m, small (ClusterRun.step p r m) → small r)
    {admits : ClusterRun k → ClusterMove k → Prop} {next : ClusterRun k} (hreach : ClusterRun.Reaches p admits r next)
    (hlast : small next) : small r := by
  induction hreach with
  | refl => exact hlast
  | step m _ _ ih => exact ih (hsmall _ _ hlast)

omit [Cumulative k.Carrier] in
theorem small_of_closes (hsmall : ∀ r m, small (ClusterRun.step p r m) → small r)
    {admits : ClusterRun k → ClusterMove k → Prop} {kinds : List StageKind} {next : ClusterRun k}
    (hcloses : ClusterRun.Closes p admits kinds r next) (hlast : small next) : small r := by
  induction hcloses with
  | nil _ => exact hlast
  | cons hreach _ _ ih => exact hsmall _ _ (small_of_reaches hsmall hreach (ih hlast))

omit [Cumulative k.Carrier] in
theorem quiet_of_drained (h : Alone A p hash ring good r s) {kind : StageKind} (hdrained : r.Drained p kind)
    (hclosed : kind = .aggregate → s.site.entry.cancelled = true) : s.Quiet kind := by
  have hworkers : ∀ w ∈ (s.site.pipeline p).workers, w.state.kind = kind →
      w.mail = [] ∧ w.ready = [] ∧ w.queue.items = [] := by
    intro w hw hkind
    simp only [ClusterRun.Drained, h.getElem?, Option.bind_some, Site.pipeline?_node, Option.all_some,
      List.all_eq_true] at hdrained
    have hdone := hdrained w hw
    simp only [hkind, ne_eq, not_true_eq_false, decide_false, Bool.false_or, Worker.isIdle, StageQueue.isEmpty,
      Bool.and_eq_true, List.isEmpty_iff] at hdone
    exact ⟨hdone.1.1, hdone.1.2, hdone.2⟩
  cases kind with
  | aggregate =>
    obtain ⟨_, hready, hitems⟩ := hworkers s.site.entryWorker (by simp [Site.pipeline]) rfl
    exact ⟨hclosed rfl, hitems, hready⟩
  | dispatch =>
    obtain ⟨hmail, hready, hitems⟩ := hworkers (s.site.routingWorker p) (by simp [Site.pipeline]) rfl
    exact ⟨hitems, List.map_eq_nil_iff.1 hmail, hready⟩
  | persist =>
    obtain ⟨_, _, hitems⟩ := hworkers s.site.storingWorker (by simp [Site.pipeline]) rfl
    exact hitems

theorem close (hsmall : ∀ r m, small (ClusterRun.step p r m) → small r)
    (hchain : ∀ r s, small r → Alone A p hash ring good r s → ∀ id, A.Chain id (s.totals id))
    {next : ClusterRun k} {kind : StageKind} (h : Alone A p hash ring good r s)
    (hreach : ClusterRun.Reaches p (ClusterRun.Timely p good) (r.step p (.close 0 kind)) next)
    (hdrained : next.Drained p kind) (hlast : small next) :
    ∃ t, Alone A p hash ring good next t ∧ s.Later t ∧ t.Quiet kind := by
  have hfirst := hsmall _ _ (small_of_reaches hsmall hreach hlast)
  have hmove : r.Timely p good (.close 0 kind) := ⟨trivial, trivial⟩
  obtain ⟨t, ht, hlater, hact⟩ := h.step (hchain _ _ hfirst h) hmove
  obtain ⟨u, hu, hlater'⟩ := ht.reaches hsmall hchain hreach hlast
  refine ⟨u, hu, hlater.trans hlater', hu.quiet_of_drained hdrained fun hkind => hlater'.cancelled ?_⟩
  rw [hact rfl, hkind]
  rfl

/-- Nothing is left in the queues when all stages are closed. -/
theorem closes (hsmall : ∀ r m, small (ClusterRun.step p r m) → small r)
    (hchain : ∀ r s, small r → Alone A p hash ring good r s → ∀ id, A.Chain id (s.totals id))
    {next : ClusterRun k} (h : Alone A p hash ring good r s)
    (hcloses : ClusterRun.Closes p (ClusterRun.Timely p good) StageKind.closingOrder r next) (hlast : small next) :
    ∃ t, Alone A p hash ring good next t ∧ s.Later t ∧ t.Quiet .aggregate ∧ t.Quiet .dispatch ∧ t.Quiet .persist := by
  unfold StageKind.closingOrder at hcloses
  cases hcloses with
  | cons hfirst hdrained₁ hrest =>
    cases hrest with
    | cons hsecond hdrained₂ hrest =>
      cases hrest with
      | cons hthird hdrained₃ hrest =>
        cases hrest
        have hlast₂ := hsmall _ _ (small_of_reaches hsmall hthird hlast)
        have hlast₁ := hsmall _ _ (small_of_reaches hsmall hsecond hlast₂)
        obtain ⟨t, ht, hlater₁, haggregate⟩ := h.close hsmall hchain hfirst hdrained₁ hlast₁
        obtain ⟨u, hu, hlater₂, hdispatch⟩ := ht.close hsmall hchain hsecond hdrained₂ hlast₂
        obtain ⟨v, hv, hlater₃, hpersist⟩ := hu.close hsmall hchain hthird hdrained₃ hlast
        have haggregate₂ := hlater₂.aggregate haggregate
        exact ⟨v, hv, hlater₁.trans (hlater₂.trans hlater₃), hlater₃.aggregate haggregate₂,
          hlater₃.dispatch haggregate₂ hdispatch, hpersist⟩

end Alone

/-! ### The beginning -/

theorem ClusterRun.Lone.alone {k : RecordKind} {V : Type} [AddCommMonoid V] (A : Account k.Carrier V)
    (good : k.Carrier → Prop) {p : PipelineId} {o : PipelineOptions} {start : ClusterRun k} (h : start.Lone p o) :
    ∃ ring s, Alone A p start.cluster.hash ring good start s ∧ s.site.ledger.window = o.window := by
  obtain ⟨n, virtualNodes, hnodes, hoptions, hopens⟩ := h
  obtain ⟨stations, hupheld, hcreated⟩ := hopens.upheld A good
  rw [hnodes] at hupheld
  obtain ⟨m, hm⟩ := hcreated 0
  have hsite : (stations 0).site.node p = n := by
    have hget := hupheld.stationed.getElem? Nat.one_pos
    rw [hnodes] at hget
    exact (Option.some.inj hget).symm
  refine ⟨_, stations 0, ⟨hupheld.congr rfl, fun key owner howner => ?_, ?_, fun _ => ?_⟩, ?_⟩
  · rw [List.mem_singleton.1 (HashRing.mem_of_owner? howner), ← hsite]
    rfl
  · rw [hm]
    exact ⟨rfl, rfl⟩
  · rw [hm]
    refine ⟨rfl, fun id => ?_, rfl, fun key a ha => by cases ha⟩
    rw [Station.Complete.onWay_eq]
    rfl
  · rw [← hoptions, ← hsite, hm]
    rfl

/-! ### The last flush -/

theorem Rollup.getLast?_totals {α : Type} [Rollup α] (xs : List α) :
    (Rollup.totals xs).getLast? = Rollup.mergeAll xs := by
  rcases List.eq_nil_or_concat xs with rfl | ⟨ys, x, rfl⟩
  · rfl
  · rw [List.concat_eq_append, Rollup.totals_concat, List.getLast?_append, Option.getLast?_toList, Rollup.mergeAll_concat]
    rfl

namespace Alone
variable {k : RecordKind} {V : Type} [AddCommMonoid V] {A : Account k.Carrier V} {p : PipelineId} {hash : PointHash}
  {ring : HashRing} {good : k.Carrier → Prop} {r : ClusterRun k} {s : Station k}

theorem isSome_flushCounted [Cumulative k.Carrier] (h : Alone A p hash ring good r s) (hchain : ∀ id, A.Chain id (s.totals id)) {now : Instant}
    (hnow : now.InEra) (hle : s.log.clock.nanos ≤ now.nanos) (c : Counters) :
    (s.site.ledger.flushCounted s.site.store now c).isSome = s.site.ledger.window.double?.isSome := by
  cases hd : s.site.ledger.window.double? with
  | none =>
    have hret : s.site.ledger.retention? = none := hd
    simp only [Ledger.flushCounted, Ledger.flush, hret]
    rfl
  | some d =>
    obtain ⟨added, hflush⟩ := h.sound.flushedBooks (h.ready hchain) hnow hle hd
    simp only [Ledger.flushCounted]
    cases hfault : (s.site.ledger.flush s.site.store now).fault with
    | none => rfl
    | some e =>
      obtain ⟨⟨e', rfl⟩, _⟩ := hflush.fault e hfault
      rfl

/-- After the last flush everything submitted is written. -/
theorem written (h : Alone A p hash ring good r s) (haggregate : s.Quiet .aggregate) (hdispatch : s.Quiet .dispatch)
    (hpersist : s.Quiet .persist) (hbuffer : s.site.ledger.buffer = Dict.empty) (hclean : s.Clean p) (id : String) :
    s.log.written (s.site.name, id) =
      Rollup.mergeAll (s.log.submitted.filter fun a => decide (Rollup.id a = id)) := by
  have hcomplete := h.complete hclean
  have hnewest := hcomplete.newest id
  rw [Station.Complete.onWay_eq, hbuffer, show s.site.arrivals.items = [] from hpersist, hdispatch.1, hdispatch.2.2,
    haggregate.2.2, pick_nil, Dict.get?_empty, Option.toList_none, List.append_nil, List.append_nil, List.append_nil,
    List.append_nil, List.append_nil, Option.getLast?_toList, Station.totals, Rollup.getLast?_totals] at hnewest
  rw [hnewest, hcomplete.submitted, haggregate.2.1, List.map_nil, List.append_nil]
  rfl

theorem row (h : Alone A p hash ring good r s) (id : String) :
    ((s.site.store.table k.tag).get? id = none ∧ s.log.written (s.site.name, id) = none) ∨
      ∃ row m, (s.site.store.table k.tag).get? id = some (Rollup.encode row) ∧
        s.log.written (s.site.name, id) = some m ∧ A.Of id row ∧ A.Of id m ∧ A.read row = A.read m := by
  have hbooks := h.sound.books
  cases hrow : (s.site.store.table k.tag).get? id with
  | none => exact Or.inl ⟨rfl, hbooks.absent id hrow _⟩
  | some j =>
    obtain ⟨row, rfl, hr⟩ := hbooks.row id j hrow
    have hcovers := h.upheld.orderly.covers Nat.one_pos id
    obtain ⟨origin, horigin⟩ := hr.stands
    have hname : origin = s.site.name := List.mem_singleton.1 (hcovers.all origin horigin)
    rw [hname] at horigin
    obtain ⟨m, hm⟩ := Option.ne_none_iff_exists'.1 horigin
    have hread := hr.balance _ hcovers
    rw [Account.total_eq] at hread
    refine Or.inr ⟨row, m, rfl, hm, hr.of, hbooks.standing _ m hm, hread.trans ?_⟩
    have hsum : (((List.range 1).map fun _ => s.site.name).map fun o => A.worth (s.log.written (o, id))).sum =
        A.worth (s.log.written (s.site.name, id)) := List.sum_singleton
    rw [hsum, hm]
    rfl

/-- A shutdown ends unless the window cannot be doubled, and then everything submitted is written. -/
theorem shutdown [Cumulative k.Carrier] (small : ClusterRun k → Prop) (hsmall : ∀ r m, small (ClusterRun.step p r m) → small r)
    (hchain : ∀ hash ring r s, small r → Alone A p hash ring good r s → ∀ id, A.Chain id (s.totals id))
    {o : PipelineOptions} {start last : ClusterRun k} {now : Instant} {n : Node}
    (h : ClusterRun.Shutdown p o good start last now n) (hlast : small (last.step p (.flush 0 now))) :
    ((last.read 0 now).cluster.flushAt 0 0).isSome = o.window.double?.isSome ∧
      ∃ ring s, Alone A p start.cluster.hash ring good (last.step p (.flush 0 now)) s ∧ n = s.site.node p ∧
        s.Clean p ∧ (o.window.double?.isSome = true → ∀ id, s.log.written (s.site.name, id) =
          Rollup.mergeAll (s.log.submitted.filter fun a => decide (Rollup.id a = id))) := by
  obtain ⟨r, hrun, hcloses⟩ := h.closed
  have hlast₂ := hsmall _ _ hlast
  have hlast₁ := small_of_closes hsmall hcloses hlast₂
  obtain ⟨ring, s₀, h₀, hwindow₀⟩ := h.lone.alone A good
  obtain ⟨s₁, h₁, hlater₁⟩ := h₀.reaches hsmall (hchain _ _) hrun hlast₁
  obtain ⟨s₂, h₂, hlater₂, haggregate, hdispatch, hpersist⟩ := h₁.closes hsmall (hchain _ _) hcloses hlast₂
  have hchain₂ := hchain _ _ _ _ hlast₂ h₂
  have hwindow : s₂.site.ledger.window = o.window := (hlater₂.window.trans hlater₁.window).trans hwindow₀
  obtain ⟨hnow, hle⟩ := h.flush.1
  have hclock : s₂.log.clock.nanos ≤ now.nanos := h₂.logs ▸ hle
  have hends := h₂.isSome_flushCounted hchain₂ hnow hclock s₂.site.shared.counters
  rw [hwindow] at hends
  refine ⟨?_, ?_⟩
  · rw [← hends]
    have hnode : (last.read 0 now).cluster.nodes[0]? = some (s₂.site.node p) := h₂.getElem?
    have hnow : (last.read 0 now).cluster.clock = now := rfl
    simp only [Cluster.flushAt, hnode, Site.flush_node, hnow]
    cases s₂.site.ledger.flushCounted s₂.site.store now s₂.site.shared.counters <;> rfl
  · obtain ⟨t, ht, hlater₃, hact⟩ := h₂.step hchain₂ h.flush
    have hnode : n = t.site.node p := Option.some.inj (h.node.symm.trans ht.getElem?)
    have hdropped := h.dropped
    have hanswered := h.answered
    rw [hnode] at hdropped hanswered
    have hclean : t.Clean p := ⟨hdropped, hanswered⟩
    refine ⟨ring, t, ht, hnode, hclean, fun hdouble id => ?_⟩
    have hbuffer : t.site.ledger.buffer = Dict.empty := by
      rw [hdouble] at hends
      obtain ⟨f, hf⟩ := Option.isSome_iff_exists.1 hends
      obtain ⟨hledger, _, d, hd⟩ := Ledger.flushCounted_eq_some hf
      rw [hact rfl]
      simp only [Station.act, hf, Site.flushed, hledger]
      exact (LedgerRun.ledger_flush s₂.site.store now hd).1
    exact ht.written (hlater₃.aggregate haggregate) (hlater₃.dispatch haggregate hdispatch)
      (hlater₃.persist haggregate hdispatch hpersist) hbuffer hclean id

end Alone

/-! ### Rows at the end -/

namespace ClusterRun
variable {k : RecordKind}

theorem accepted_note {r : ClusterRun k} {i : Nat} {f : Log k → Log k}
    (hf : (r.logs i).accepted.length ≤ (f (r.logs i)).accepted.length) (j : Nat) :
    (r.logs j).accepted.length ≤ ((r.note i f).logs j).accepted.length := by
  simp only [note, Function.update_apply]
  split
  · rename_i hj
    rw [hj]
    exact hf
  · exact Nat.le_refl _

theorem accepted_noteBatch (now : Instant) (w : Option (Worker k.Carrier)) (l : Log k) :
    l.accepted.length ≤ ((w.map fun w => l.noteBatch now w).getD l).accepted.length := by
  cases w with
  | none => exact Nat.le_refl _
  | some w =>
    simp only [Option.map_some, Option.getD_some, Log.noteBatch]
    split
    · split
      · rw [List.length_append]
        omega
      · exact Nat.le_refl _
      · exact Nat.le_refl _
    · exact Nat.le_refl _

theorem accepted_step (p : PipelineId) (r : ClusterRun k) (m : ClusterMove k) (i : Nat) :
    (r.logs i).accepted.length ≤ ((r.step p m).logs i).accepted.length := by
  have hread : ∀ (j : Nat) (now : Instant), (r.logs i).accepted.length ≤ ((r.read j now).logs i).accepted.length := by
    intro j now
    exact accepted_note (r := { r with cluster := { r.cluster with clock := now } })
      (f := fun l => { l with clock := now }) (Nat.le_refl _) i
  cases m with
  | submit j record =>
    obtain ⟨submitted, hlog⟩ := (r.logs j).noteSubmit_eq record (r.cluster.submitNow j k p record).1
    refine accepted_note (r := { r with cluster := (r.cluster.submitNow j k p record).2 }) ?_ i
    exact hlog ▸ Nat.le_refl _
  | begin j stage now attached stalled =>
    refine Nat.le_trans (hread j now) ?_
    exact accepted_note (r := { r.read j now with cluster := { (r.read j now).cluster with attached, stalled } })
      (accepted_noteBatch now _ _) i
  | send j stage | lose j stage | handOn j stage | close j kind => exact Nat.le_refl _
  | flush j now =>
    simp only [step]
    split
    · exact hread j now
    · rename_i f _
      refine Nat.le_trans (hread j now) (accepted_note (r := { r.read j now with cluster := f.2.2 }) ?_ i)
      cases (r.read j now).ledger? p j <;> exact Nat.le_refl _

/-- The merge of the records of a key that were submitted and not refused. -/
def submitted? (r : ClusterRun k) (id : String) : Option k.Carrier :=
  Rollup.mergeAll ((r.logs 0).submitted.filter fun a => decide (Rollup.id a = id))

/-- The row of a key is what was submitted. A count of calls that has reached the largest number
grows no more, and a flush without growth takes no minimum over: statistics of that many records
agree in their counters. -/
structure Stored (r : ClusterRun k) (n : Node) (id : String) : Prop where
  counters : ((n.store.table k.tag).get? id = none ∧ r.submitted? id = none) ∨
    ∃ row m, (n.store.table k.tag).get? id = some (Rollup.encode row) ∧ r.submitted? id = some m ∧
      Rollup.id row = id ∧ k.tally row = k.tally m
  whole : (k = .serviceStats → (r.logs 0).submitted.length < 9223372036854775808) →
    (n.store.table k.tag).get? id = (r.submitted? id).map Rollup.encode

end ClusterRun

namespace Alone
variable {k : RecordKind} {V : Type} [AddCommMonoid V] {A : Account k.Carrier V} {p : PipelineId} {hash : PointHash}
  {ring : HashRing} {good : k.Carrier → Prop} {r : ClusterRun k} {s : Station k}

theorem good_submitted (h : Alone A p hash ring good r s) (hclean : s.Clean p) : ∀ a ∈ s.log.submitted, good a := by
  intro a ha
  rw [(h.complete hclean).submitted, List.mem_append] at ha
  rcases ha with ha | ha
  · exact h.sound.accepted a ha
  · obtain ⟨x, hx, rfl⟩ := List.mem_map.1 ha
    exact (h.sound.entry x hx).2

theorem row_of_written (h : Alone A p hash ring good r s) {id : String}
    (hwritten : s.log.written (s.site.name, id) =
      Rollup.mergeAll (s.log.submitted.filter fun a => decide (Rollup.id a = id))) :
    (((s.site.node p).store.table k.tag).get? id = none ∧ r.submitted? id = none) ∨
      ∃ row m, ((s.site.node p).store.table k.tag).get? id = some (Rollup.encode row) ∧
        r.submitted? id = some m ∧ A.Of id row ∧ A.Of id m ∧ A.read row = A.read m := by
  have hrow := h.row id
  rw [hwritten, ← h.logs] at hrow
  exact hrow

end Alone

theorem Alone.chain_of_lt {application : Int32 → Int32} {p : PipelineId} {hash : PointHash} {ring : HashRing}
    {r : ClusterRun .serviceStats} {s : Station .serviceStats}
    (h : Alone (k := .serviceStats) (ServiceStats.account application) p hash ring
      (fun a => RecordKind.serviceStats.IsCall a ∧ RecordKind.serviceStats.OfApplication application a) r s)
    (hlt : (r.logs 0).accepted.length < 9223372036854775808) (id : String) :
    (ServiceStats.account application).Chain id (s.totals id) := by
  have hcalls : ∀ c ∈ s.log.under id, c.IsCall ∧ c.id = id ∧ c.application = application c.service := by
    intro c hc
    obtain ⟨hmem, hid⟩ := List.mem_filter.1 hc
    have hgood := h.sound.accepted c hmem
    exact ⟨hgood.1, of_decide_eq_true hid, hgood.2⟩
  have hlen : (s.log.under id).length < 9223372036854775808 := by
    rw [h.logs] at hlt
    exact Nat.lt_of_le_of_lt (List.length_filter_le _ _) hlt
  exact (Rollup.totals_are_totals _).chain
    (fun c hc => ServiceStats.sound_call (hcalls c hc).1 (hcalls c hc).2.1 (hcalls c hc).2.2)
    fun _ _ hg => ServiceStats.follows hg hlen hcalls

/-- A lone node is run in any way and then shut down, so that every worker finishes and nothing
is lost. Then the last flush comes to an end, unless the window cannot be doubled, and leaves the
merges of all records that were submitted and not refused. -/
theorem ClusterRun.stored_of_shutdown (k : RecordKind) (hk : Rollup.mode k.Carrier = .additive) (p : PipelineId)
    (o : PipelineOptions) (application : Int32 → Int32) (start last : ClusterRun k) (now : Instant) (n : Node)
    (h : Shutdown p o (fun a => k.IsCall a ∧ k.OfApplication application a) start last now n) :
    ((last.read 0 now).cluster.flushAt 0 0).isSome = o.window.double?.isSome ∧
      (o.window.double?.isSome = true → ∀ id, (last.step p (.flush 0 now)).Stored n id) := by
  cases k with
  | heartbeat => cases hk
  | alarm => cases hk
  | callSummary =>
    obtain ⟨hends, ring, s, hs, rfl, hclean, hwritten⟩ := Alone.shutdown (k := .callSummary)
      (A := Counted.account CallSummary) (fun _ => True) (fun _ _ _ => trivial)
      (fun hash ring r s _ hr => hr.upheld.totals_chain (fun a ha => ha.1) 0 Nat.one_pos) h trivial
    refine ⟨hends, fun hdouble id => ?_⟩
    rcases hs.row_of_written (hwritten hdouble id) with ⟨hrow, hm⟩ | ⟨row, m, hrow, hm, hof, hof', hread⟩
    · exact ⟨Or.inl ⟨hrow, hm⟩, fun _ => by rw [hrow, hm]; rfl⟩
    · have heq := CallSummary.eq_of_read hof hof' hread
      rw [heq] at hrow hof
      exact ⟨Or.inr ⟨m, m, hrow, hm, hof.1, rfl⟩, fun _ => by rw [hrow, hm]; rfl⟩
  | serviceStats =>
    obtain ⟨hends, ring, s, hs, rfl, hclean, hwritten⟩ := Alone.shutdown (k := .serviceStats)
      (A := Counted.account ServiceStats) (fun _ => True) (fun _ _ _ => trivial)
      (fun hash ring r s _ hr => hr.upheld.totals_chain (fun a ha => ha.1) 0 Nat.one_pos) h trivial
    refine ⟨hends, fun hdouble id => ⟨?_, fun hsmall => ?_⟩⟩
    · rcases hs.row_of_written (hwritten hdouble id) with hnone | ⟨row, m, hrow, hm, hof, hof', hread⟩
      · exact Or.inl hnone
      · exact Or.inr ⟨row, m, hrow, hm, hof.1,
          funext fun i => Clamped.ofCounter_inj (hof.2 i) (hof'.2 i) (congrFun hread i)⟩
    · -- While no count reaches the largest one, the statistics are followed as a whole.
      have hlast : ((last.step p (.flush 0 now)).logs 0).accepted.length < 9223372036854775808 := by
        have hlen := hsmall rfl
        rw [hs.logs, (hs.complete hclean).submitted, List.length_append] at hlen
        rw [hs.logs]
        omega
      obtain ⟨_, ring', t, ht, hnode, _, hwritten'⟩ := Alone.shutdown (k := .serviceStats)
        (A := ServiceStats.account application) (fun r => (r.logs 0).accepted.length < 9223372036854775808)
        (fun r m hlt => Nat.lt_of_le_of_lt (r.accepted_step p m 0) hlt)
        (fun hash ring r s hlt hr => hr.chain_of_lt hlt) h hlast
      rcases ht.row_of_written (hwritten' hdouble id) with ⟨hrow, hm⟩ | ⟨row, m, hrow, hm, hof, hof', hread⟩
      · rw [hnode, hrow, hm]
        rfl
      · have hpos : 0 < (ServiceStats.calls m).toInt := by
          refine ServiceStats.calls_pos_mergeAll (fun c hc => ?_) hm
          rw [hs.logs] at hc
          exact (hs.good_submitted hclean c (List.mem_of_mem_filter hc)).1.calls_pos
        have hnonzero : m.calls ≠ 0 := by
          intro hz
          rw [hz, Int64.toInt_zero] at hpos
          omega
        rw [hnode, hrow, hm, ServiceStats.eq_of_read hof' hof hnonzero hread.symm]
        rfl

namespace ClusterRun

/-- A node that has asked for its ring before. -/
def hermit : Node :=
  { name := "local", options := {}, store := .fresh
    shared := ⟨{ members := ⟨["local"], 0⟩, virtualNodes := 1, built := some (0, ⟨["local"], [⟨0, 0⟩]⟩) }, .fresh⟩ }

def secluded (o : PipelineOptions) : ClusterRun .serviceStats where
  cluster :=
    { nodes := [(({ hermit with options := o } : Node).build .serviceStats ⟨2⟩ Collector.layout none).2]
      hash := fun _ => 0, attached := [], clock := .epoch }
  logs _ := {}

/-- A call is submitted, and the stages are closed one after another. -/
def drained (o : PipelineOptions) : ClusterRun .serviceStats :=
  [.submit 0 .oneCall, .close 0 .aggregate, .begin 0 0 .epoch [] false, .handOn 0 0, .close 0 .dispatch,
    .begin 0 1 .epoch [] false, .handOn 0 1, .close 0 .persist, .begin 0 2 .epoch [] false].foldl (step ⟨2⟩) (secluded o)

theorem lone_secluded (o : PipelineOptions) : (secluded o).Lone ⟨2⟩ o := by
  refine ⟨_, 1, rfl, rfl, ⟨fun n hn => ?_, List.nodup_singleton _, fun _ => rfl⟩⟩
  obtain rfl := List.mem_singleton.1 hn
  refine ⟨{ hermit with options := o }, ⟨rfl, fun _ => .rfl, rfl, fun b hb => ?_, rfl⟩, rfl⟩
  cases hb
  rfl

/-- A window that has no double. -/
def longWindow : PipelineOptions := { window := .ofSeconds 18446744073709551615 }

theorem closes_drained {o : PipelineOptions} (ho : o = {} ∨ o = longWindow) :
    ∃ r, Reaches ⟨2⟩ (Timely ⟨2⟩ fun a => RecordKind.serviceStats.IsCall a ∧
      RecordKind.serviceStats.OfApplication (fun s => s) a) (secluded o) r ∧
    Closes ⟨2⟩ (Timely ⟨2⟩ fun a => RecordKind.serviceStats.IsCall a ∧
      RecordKind.serviceStats.OfApplication (fun s => s) a) StageKind.closingOrder r (drained o) := by
  refine ⟨(secluded o).step ⟨2⟩ (.submit 0 .oneCall), .step _ .refl ⟨⟨⟨1, 1, _, 100, false, _, rfl⟩, rfl⟩, trivial⟩, ?_⟩
  -- nothing before the last flush depends on the window, but the conditions are decided for one at a time
  simp only [drained, List.foldl_cons, List.foldl_nil]
  refine .cons (.step _ (.step _ .refl ?_) ?_) ?_ (.cons (.step _ (.step _ .refl ?_) ?_) ?_
    (.cons (.step _ .refl ?_) ?_ (.nil _)))
  · exact ⟨⟨Instant.inEra_epoch, by rcases ho with rfl | rfl <;> decide +kernel⟩, trivial⟩
  · exact ⟨trivial, trivial⟩
  · rcases ho with rfl | rfl <;> decide +kernel
  · exact ⟨⟨Instant.inEra_epoch, by rcases ho with rfl | rfl <;> decide +kernel⟩, trivial⟩
  · exact ⟨trivial, trivial⟩
  · rcases ho with rfl | rfl <;> decide +kernel
  · exact ⟨⟨Instant.inEra_epoch, by rcases ho with rfl | rfl <;> decide +kernel⟩, trivial⟩
  · rcases ho with rfl | rfl <;> decide +kernel

theorem shutdown_drained {o : PipelineOptions} (ho : o = {} ∨ o = longWindow) : ∃ n,
    Shutdown ⟨2⟩ o (fun a => RecordKind.serviceStats.IsCall a ∧ RecordKind.serviceStats.OfApplication (fun s => s) a)
      (secluded o) (drained o) .epoch n := by
  have hsome : (((drained o).step ⟨2⟩ (.flush 0 .epoch)).cluster.nodes[0]?.any fun n =>
      n.counters.values.keys.all (fun | .dropped _ _ _ => false | _ => true) &&
        n.store.history.all (fun c => decide (c.verdict = .answer))) = true := by
    rcases ho with rfl | rfl <;> decide +kernel
  obtain ⟨n, hn, hall⟩ := (Option.any_eq_true _ _).1 hsome
  simp only [Bool.and_eq_true, List.all_eq_true, decide_eq_true_eq] at hall
  obtain ⟨hkeys, hanswered⟩ := hall
  exact ⟨n,
    { lone := lone_secluded o
      closed := closes_drained ho
      flush := ⟨⟨Instant.inEra_epoch, by rcases ho with rfl | rfl <;> decide +kernel⟩,
        by rcases ho with rfl | rfl <;> decide +kernel⟩
      node := hn
      dropped := fun stage reason hne => by
        by_contra
        refine hne ?_
        rw [Counters.get, Dict.get?, Entries.find_eq_none_iff.2 fun hmem => ?_]
        · rfl
        · cases hkeys _ hmem
      answered := fun c hc hrefused => by
        obtain ⟨what, hrefuse⟩ := hrefused
        rw [hanswered c hc] at hrefuse
        cases hrefuse }⟩

theorem stored_of_shutdown_oneCall : ∃ n row, Shutdown ⟨2⟩ {} (fun a => RecordKind.serviceStats.IsCall a ∧
      RecordKind.serviceStats.OfApplication (fun s => s) a) (secluded {}) (drained {}) .epoch n ∧
    (n.store.table RecordKind.serviceStats.tag).get? ServiceStats.oneCall.id = some row ∧
    ((drained {}).step ⟨2⟩ (.flush 0 .epoch)).Stored n ServiceStats.oneCall.id := by
  obtain ⟨n, hshutdown⟩ := shutdown_drained (o := {}) (Or.inl rfl)
  have hrow : (((drained {}).step ⟨2⟩ (.flush 0 .epoch)).cluster.nodes[0]?.any fun n =>
      ((n.store.table RecordKind.serviceStats.tag).get? ServiceStats.oneCall.id).isSome) = true := by
    decide +kernel
  rw [hshutdown.node, Option.any_some] at hrow
  obtain ⟨row, hrow⟩ := Option.isSome_iff_exists.1 hrow
  exact ⟨n, row, hshutdown, hrow, (stored_of_shutdown .serviceStats rfl ⟨2⟩ {} (fun s => s) (secluded {}) (drained {})
    .epoch n hshutdown).2 (by decide) _⟩

/-- With a window that has no double the last flush does not come to an end, and what was submitted is not stored. -/
theorem unstored_longWindow : ∃ n, Shutdown ⟨2⟩ longWindow (fun a => RecordKind.serviceStats.IsCall a ∧
      RecordKind.serviceStats.OfApplication (fun s => s) a) (secluded longWindow) (drained longWindow) .epoch n ∧
    (((drained longWindow).read 0 .epoch).cluster.flushAt 0 0).isSome = false ∧
    ((drained longWindow).step ⟨2⟩ (.flush 0 .epoch)).submitted? ServiceStats.oneCall.id = some .oneCall ∧
    (n.store.table RecordKind.serviceStats.tag).get? ServiceStats.oneCall.id = none := by
  obtain ⟨n, hshutdown⟩ := shutdown_drained (o := longWindow) (Or.inr rfl)
  have hrow : (((drained longWindow).step ⟨2⟩ (.flush 0 .epoch)).cluster.nodes[0]?.all fun n =>
      ((n.store.table RecordKind.serviceStats.tag).get? ServiceStats.oneCall.id).isNone) = true := by
    decide +kernel
  rw [hshutdown.node, Option.all_some] at hrow
  exact ⟨n, hshutdown, by decide +kernel, by decide +kernel, Option.isNone_iff_eq_none.1 hrow⟩

end ClusterRun
end TraceRollup
