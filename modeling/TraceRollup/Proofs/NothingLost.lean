import TraceRollup.Proofs.Losses

/-!
# Nothing gets lost

At a station that owns every key and is clean, each record submitted waits or is totalled, and
the newest total of a key is still on its way or was written (`Station.Complete`). A move that
loses nothing leaves a complete station complete (`Complete.act`), if no snapshot stays in the
buffer for longer than the window.
-/

namespace TraceRollup

theorem Option.getLast?_toList {α : Type} (o : Option α) : o.toList.getLast? = o := by
  cases o <;> rfl

/-! ### Batches without late records -/

theorem Recorder.late_acceptAll {α : Type} [Rollup α] (now : Instant) (r : Recorder α) (batch : List (Snapshot α)) :
    (r.acceptAll now batch).1.late = batch.countP fun s => (Rollup.bucket s.record).isExpired now r.window := by
  induction batch generalizing r with
  | nil => rfl
  | cons s rest ih =>
    cases hlate : (Rollup.bucket s.record).isExpired now r.window with
    | true => simp [acceptAll, accept_of_late hlate, ih, hlate]
    | false =>
      have haccept := accept_of_timely hlate
      cases htotal : (r.accept s.record now).1 with
      | none =>
        rw [haccept, total?_concat, if_pos rfl] at htotal
        cases htotal
      | some t =>
        have hrest : (r.accept s.record now).2.window = r.window := by rw [haccept]
        simp [acceptAll, htotal, ih, hrest, hlate]

namespace LedgerRun
variable {α : Type} [Rollup α]

theorem takes_eq_pick {window : Duration} {now : Instant} {batch : List (Snapshot α)}
    (h : ∀ s ∈ batch, Live now window s.record) (key : OriginKey) : takes window now batch key = pick key batch := by
  unfold takes pick
  congr 1
  refine List.filter_congr fun s hs => ?_
  rw [show (Rollup.bucket s.record).isExpired now window = false from h s hs]
  rfl

theorem any_takes (window : Duration) (now : Instant) (batch : List (Snapshot α)) (key : OriginKey) :
    (batch.any fun s => !(Rollup.bucket s.record).isExpired now window && decide ((s.origin, Rollup.id s.record) = key)) =
      !(takes window now batch key).isEmpty := by
  unfold takes
  rw [List.isEmpty_map]
  induction batch with
  | nil => rfl
  | cons s rest ih =>
    rw [List.any_cons, List.filter_cons, ih]
    split
    · rename_i hs
      rw [hs]
      rfl
    · rename_i hs
      rw [Bool.eq_false_iff.2 hs, Bool.false_or]

/-- The last snapshot that a batch brings of a key takes the place of the one buffered. -/
theorem buffer_acceptBatch (l : Ledger α) (batch : List (Snapshot α)) (now : Instant) (key : OriginKey) :
    (l.acceptBatch batch now).2.buffer.get? key = (takes l.window now batch key).getLast?.or (l.buffer.get? key) := by
  unfold Ledger.acceptBatch
  induction batch generalizing l with
  | nil => rfl
  | cons s rest ih =>
    rw [List.foldl_cons]
    cases hlate : (Rollup.bucket s.record).isExpired now l.window with
    | true =>
      have hs : Ledger.accept now l s = l := by
        rw [Ledger.accept, if_pos hlate]
      rw [hs, ih l]
      simp only [takes, List.filter_cons, hlate, Bool.not_true, Bool.false_and, if_neg Bool.false_ne_true]
    | false =>
      have hs : Ledger.accept now l s =
          { l with buffer := l.buffer.set (s.origin, Rollup.id s.record) s.record } := by
        rw [Ledger.accept, if_neg (by rw [hlate]; exact Bool.false_ne_true)]
      rw [hs, ih { l with buffer := l.buffer.set (s.origin, Rollup.id s.record) s.record }]
      simp only [takes, List.filter_cons, hlate, Bool.not_false, Bool.true_and, Dict.get?_set]
      by_cases hk : (s.origin, Rollup.id s.record) = key
      · rw [if_pos hk.symm, if_pos (decide_eq_true hk), List.map_cons, List.getLast?_cons]
        cases (((rest.filter _).map Snapshot.record).getLast?) <;> rfl
      · rw [if_neg (Ne.symm hk), if_neg (by rw [decide_eq_true_eq]; exact hk)]

end LedgerRun

/-! ### Owners of every key -/

/-- A ring gives every key to one node. -/
def HashRing.GivesAllTo (hash : PointHash) (ring : HashRing) (name : String) : Prop :=
  ∀ key owner, ring.owner? hash key = some owner → owner = name

namespace Dispatcher
variable {α : Type} [Rollup α] {hash : PointHash} {ring : HashRing} {d : Dispatcher}

theorem foreignOwner?_of_givesAll (h : ring.GivesAllTo hash d.here) (s : Snapshot α) :
    d.foreignOwner? hash ring s = none := by
  unfold foreignOwner?
  cases howner : ring.owner? hash (Rollup.routingKey s.record) with
  | none => rfl
  | some owner => exact if_pos (h _ owner howner)

theorem bundles_of_givesAll (h : ring.GivesAllTo hash d.here) (batch : List (Snapshot α)) :
    d.bundles hash ring batch = [] := by
  unfold bundles
  induction batch with
  | nil => rfl
  | cons s rest ih =>
    rw [List.foldl_cons, bundle, foreignOwner?_of_givesAll h]
    exact ih

end Dispatcher

/-! ### Complete stations -/

namespace Station
variable {k : RecordKind}

/-- The totals of a key that a station has yet to store, in order, after the one that it has
stored. -/
def onWay (s : Station k) (id : String) : List k.Carrier :=
  s.inbound (s.site.name, id) ++ s.handed s.site.name id ++ s.waiting id

/-- Nothing that was submitted is lost. -/
structure Complete (s : Station k) : Prop where
  submitted : s.log.submitted = s.log.accepted ++ s.site.entry.items.map Snapshot.record
  newest : ∀ id, (s.onWay id).getLast? = (s.totals id).getLast?
  mail : s.site.mail = []
  /-- What is buffered was in the window when it came. -/
  live : ∀ key a, s.site.ledger.buffer.get? key = some a →
    (s.log.arrived key).InEra ∧ Live (s.log.arrived key) s.site.ledger.window a

/-- No snapshot waits for a flush longer than the window. -/
def Prompt (s : Station k) : ClusterMove k → Prop
  | .flush _ now => ∀ key, s.site.ledger.buffer.get? key ≠ none →
    now.nanos ≤ (s.log.arrived key).nanos + s.site.ledger.window.nanos
  | _ => True

namespace Complete
variable {p : PipelineId} {s : Station k}

theorem onWay_eq (s : Station k) (id : String) :
    s.onWay id = (s.log.written (s.site.name, id)).toList ++ (s.site.ledger.buffer.get? (s.site.name, id)).toList ++
      pick (s.site.name, id) s.site.arrivals.items ++ pick (s.site.name, id) s.site.kept ++
        (pick (s.site.name, id) s.site.routing.items ++ pick (s.site.name, id) s.site.answered) := by
  rw [onWay, inbound, handed_self, waiting]

/-- Only the queue before the totals changes, or the clock. -/
theorem of_entry (h : s.Complete) {t : Station k}
    (hsubmitted : t.log.submitted = t.log.accepted ++ t.site.entry.items.map Snapshot.record)
    (honWay : ∀ id, t.onWay id = s.onWay id) (htotals : ∀ id, t.totals id = s.totals id)
    (hmail : t.site.mail = s.site.mail) (hledger : t.site.ledger = s.site.ledger)
    (harrived : t.log.arrived = s.log.arrived) : t.Complete where
  submitted := hsubmitted
  newest id := by
    rw [honWay, htotals]
    exact h.newest id
  mail := hmail.trans h.mail
  live := by
    rw [hledger, harrived]
    exact h.live

theorem submit (h : s.Complete) (i : Nat) (record : k.Carrier) (hash : PointHash) :
    (s.act p hash (.submit i record)).Complete := by
  have hlog : s.log.noteSubmit record (s.site.entry.send ⟨s.site.name, record⟩).1 =
      { s.log with submitted := s.log.submitted ++
          if (s.site.entry.send ⟨s.site.name, record⟩).1.isOk then [record] else [] } := by
    unfold Log.noteSubmit
    split <;> simp
  simp only [act, hlog]
  refine h.of_entry ?_ (fun _ => rfl) (fun _ => rfl) rfl rfl rfl
  simp only [Site.submitted, StageQueue.items_send, h.submitted, List.map_append, List.append_assoc]
  split <;> rfl

/-- A clean station's later queues take what they are sent. -/
theorem items_send {t : Station k} (hclean : t.Clean p) {kind : StageKind} (hkind : kind ≠ .aggregate)
    {q : StageQueue (Snapshot k.Carrier)} (hq : q.stage = .of p kind) (x : Snapshot k.Carrier) (w : Worker k.Carrier)
    (sh : Shared) (hshared : t.site.shared = w.showLength (sh.countRefusal (Rollup.tag k.Carrier) q.stage (q.send x).1)) :
    (q.send x).2.items = q.items ++ [x] := by
  rw [StageQueue.items_send]
  cases hanswer : (q.send x).1 with
  | ok _ => rfl
  | error e =>
    have hzero := hclean.get_eq_zero hkind e.reason
    rw [hshared, hanswer, ← hq] at hzero
    exact absurd hzero (w.counted_of_refused sh _ _ e)

theorem handOn (h : s.Complete) (hplaced : s.site.Placed p) (i j : Nat) (hash : PointHash)
    (hclean : (s.act p hash (.handOn i j)).Clean p) : (s.act p hash (.handOn i j)).Complete := by
  simp only [act] at hclean ⊢
  rcases j with _ | _ | j
  · simp only [Site.handedOn] at hclean ⊢
    cases hanswered : s.site.answered with
    | nil => exact h
    | cons x rest =>
      rw [hanswered] at hclean
      have hsend := items_send hclean (by decide) hplaced.routing x _ _ rfl
      refine h.of_entry h.submitted (fun id => ?_) (fun _ => rfl) rfl rfl rfl
      rw [onWay_eq, onWay_eq]
      simp only [Site.handAnswered, hsend, hanswered, pick_append, pick_cons _ x rest, List.append_assoc]
  · simp only [Site.handedOn] at hclean ⊢
    cases hkept : s.site.kept with
    | nil => exact h
    | cons x rest =>
      rw [hkept] at hclean
      have hsend := items_send hclean (by decide) hplaced.arrivals x _ _ rfl
      refine h.of_entry h.submitted (fun id => ?_) (fun _ => rfl) rfl rfl rfl
      rw [onWay_eq, onWay_eq]
      simp only [Site.handKept, hsend, hkept, pick_append, pick_cons _ x rest, List.append_assoc]
  · exact h

variable {V : Type} [AddCommMonoid V] {A : Account k.Carrier V} {hash : PointHash} {ring : HashRing}
  {good : k.Carrier → Prop}

theorem entry [Cumulative k.Carrier] (h : s.Complete) (hs : s.Sound A hash ring good) {env : Conditions}
    (hnow : env.now.InEra) (hle : s.log.clock.nanos ≤ env.now.nanos) (hcan : s.site.entryWorker.canBegin = true)
    (hclean : Clean p
      ⟨s.site.takeEntry env, Log.noteBatch env.now s.site.entryWorker { s.log with clock := env.now }⟩) :
    Complete ⟨s.site.takeEntry env, Log.noteBatch env.now s.site.entryWorker { s.log with clock := env.now }⟩ := by
  have hidle : s.site.answered = [] := (Worker.idle_of_canBegin hcan).2
  have hown : ∀ x ∈ s.site.entryWorker.nextBatch, x.origin = s.site.name :=
    fun x hx => (hs.entry x (List.mem_of_mem_take hx)).1
  obtain ⟨hanswers, _⟩ := (hs.recalls.mono hs.clock hnow hle).acceptBatch s.site.entryWorker.nextBatch
  have hlate : (s.site.totals.acceptBatch s.site.entryWorker.nextBatch env.now).1.late = 0 := by
    have hcounted := Worker.counted_of_dropped env hcan false s.site.shared _ rfl
    exact Nat.le_zero.1 (Nat.le_trans hcounted (Nat.le_of_eq (hclean.late_eq_zero _)))
  rw [hanswers, Recorder.late_acceptAll, List.countP_eq_zero] at hlate
  have hall : (s.site.entryWorker.nextBatch.filter fun x => !s.site.totals.isLate env.now x.record) =
      s.site.entryWorker.nextBatch := by
    refine List.filter_eq_self.2 fun x hx => ?_
    rw [Bool.not_eq_true', ← Bool.not_eq_true]
    exact hlate x hx
  rw [Log.noteBatch_entry hcan, hall]
  refine ⟨?_, fun id => ?_, h.mail, h.live⟩
  · simp only [Site.takeEntry, StageQueue.receiveMany, h.submitted, List.append_assoc, ← List.map_append]
    rw [show s.site.entryWorker.nextBatch = s.site.entry.items.take Worker.batchLimit from rfl, List.take_append_drop]
  · have htotals := Recorder.totals_acceptAll env.now ⟨s.site.totals.window, s.log.accepted⟩ hown id
    have hwhole : (s.site.entryWorker.nextBatch.filter
        fun x => !(Rollup.bucket x.record).isExpired env.now s.site.totals.window) = s.site.entryWorker.nextBatch := hall
    rw [Recorder.acceptAll_taken] at htotals
    simp only [hwhole, Recorder.under] at htotals
    have hnewest := h.newest id
    rw [onWay_eq, hidle, pick_nil, List.append_nil, totals, Log.under] at hnewest
    rw [onWay_eq, totals, Log.under]
    simp only [Site.takeEntry, hanswers]
    rw [htotals, ← List.append_assoc, List.getLast?_append, hnewest, ← List.getLast?_append]

/-- Nothing of a batch is for another node. -/
theorem routing (h : s.Complete) (hs : s.Sound A hash ring good) (hring : ring.GivesAllTo hash s.site.name)
    {env : Conditions} (hhash : env.hash = hash) (hcan : (s.site.routingWorker p).canBegin = true) :
    Complete ⟨s.site.takeRouting env p, { s.log with clock := env.now }⟩ := by
  have hidle : s.site.kept = [] := (Worker.idle_of_canBegin hcan).2
  have hbundles : (s.site.dispatcher p).bundles hash ring (s.site.routingWorker p).nextBatch = [] :=
    Dispatcher.bundles_of_givesAll hring _
  have hkept : ((s.site.routingWorker p).nextBatch.filter
      fun x => ((s.site.dispatcher p).foreignOwner? hash ring x).isNone) = s.site.routing.items.take Worker.batchLimit := by
    refine List.filter_eq_self.2 fun x _ => ?_
    rw [Dispatcher.foreignOwner?_of_givesAll hring]
    rfl
  simp only [Site.takeRouting, hhash, hs.ring, hbundles, hkept, List.any_nil, Bool.false_eq_true, if_false]
  refine h.of_entry h.submitted (fun id => ?_) (fun _ => rfl) ?_ rfl rfl
  · rw [onWay_eq, onWay_eq, hidle, pick_nil, List.append_nil]
    simp only [StageQueue.receiveMany]
    rw [← pick_take_drop (s.site.name, id) Worker.batchLimit s.site.routing.items]
    simp only [List.append_assoc]
  · exact h.mail.symm

theorem arrived_noteBatch {site : Site k} (hcan : site.storingWorker.canBegin = true) (now : Instant) (l : Log k)
    {key : OriginKey} : (l.noteBatch now site.storingWorker).arrived key =
      if (LedgerRun.takes site.ledger.window now site.storingWorker.nextBatch key).isEmpty then l.arrived key
      else now := by
  have hany := LedgerRun.any_takes site.ledger.window now site.storingWorker.nextBatch key
  rw [Log.noteBatch, if_pos hcan]
  show (if _ then now else l.arrived key) = _
  rw [hany]
  cases (LedgerRun.takes site.ledger.window now site.storingWorker.nextBatch key).isEmpty <;> rfl

theorem storing (h : s.Complete) {env : Conditions} (hnow : env.now.InEra)
    (hcan : s.site.storingWorker.canBegin = true)
    (hclean : Clean p
      ⟨s.site.takeStoring env, Log.noteBatch env.now s.site.storingWorker { s.log with clock := env.now }⟩) :
    Complete ⟨s.site.takeStoring env, Log.noteBatch env.now s.site.storingWorker { s.log with clock := env.now }⟩ := by
  have hlate : ∀ x ∈ s.site.storingWorker.nextBatch, Live env.now s.site.ledger.window x.record := by
    have hcounted := Worker.counted_of_dropped env hcan true s.site.shared _ rfl
    have hzero := Nat.le_zero.1 (Nat.le_trans hcounted (Nat.le_of_eq (hclean.late_eq_zero _)))
    simp only [Ledger.acceptBatch, List.countP_eq_zero, Bool.not_eq_true] at hzero
    exact hzero
  have htakes := LedgerRun.takes_eq_pick hlate
  have hbuffer : ∀ key, (s.site.takeStoring env).ledger.buffer.get? key =
      (pick key s.site.storingWorker.nextBatch).getLast?.or (s.site.ledger.buffer.get? key) := by
    intro key
    rw [← htakes]
    exact LedgerRun.buffer_acceptBatch s.site.ledger s.site.storingWorker.nextBatch env.now key
  obtain ⟨arrived, hlog⟩ := Log.noteBatch_storing s.site env.now { s.log with clock := env.now }
  have harrived : ∀ key, arrived key =
      if (pick key s.site.storingWorker.nextBatch).isEmpty then s.log.arrived key else env.now := by
    intro key
    rw [← htakes]
    exact (congrFun (congrArg Log.arrived hlog) key).symm.trans (arrived_noteBatch hcan _ _)
  rw [hlog]
  refine ⟨h.submitted, fun id => ?_, h.mail, fun key a ha => ?_⟩
  · have hnewest := h.newest id
    rw [onWay_eq, ← pick_take_drop (s.site.name, id) Worker.batchLimit s.site.arrivals.items] at hnewest
    rw [onWay_eq]
    simp only [hbuffer]
    refine Eq.trans ?_ hnewest
    simp only [Site.takeStoring, StageQueue.receiveMany, List.getLast?_append, Option.getLast?_toList, Option.or_assoc]
    rfl
  · have hwindow : (s.site.takeStoring env).ledger.window = s.site.ledger.window :=
      (LedgerRun.window_acceptBatch s.site.ledger s.site.storingWorker.nextBatch env.now).1
    rw [hbuffer] at ha
    simp only [hwindow, harrived]
    rcases Option.or_eq_some_iff.1 ha with hlast | ⟨hnone, ha⟩
    · have hmem := List.mem_of_getLast? hlast
      obtain ⟨x, hx, rfl, _⟩ := mem_pick hmem
      have hsome : (pick key s.site.storingWorker.nextBatch).isEmpty = false :=
        List.isEmpty_eq_false_iff.2 (List.ne_nil_of_mem hmem)
      rw [hsome, if_neg Bool.false_ne_true]
      exact ⟨hnow, hlate x hx⟩
    · rw [List.getLast?_eq_none_iff.1 hnone, List.isEmpty_nil, if_pos rfl]
      exact h.live key a ha

theorem flush [Cumulative k.Carrier] (h : s.Complete) (hs : s.Sound A hash ring good)
    (hready : Ready A s.log.written s.site.ledger.buffer) (i : Nat) {now : Instant} (hnow : now.InEra)
    (hle : s.log.clock.nanos ≤ now.nanos) (hprompt : s.Prompt (.flush i now))
    (hclean : (s.act p hash (.flush i now)).Clean p) : (s.act p hash (.flush i now)).Complete := by
  simp only [act] at hclean ⊢
  cases hf : s.site.ledger.flushCounted s.site.store now s.site.shared.counters with
  | none => exact h.of_entry h.submitted (fun _ => rfl) (fun _ => rfl) rfl rfl rfl
  | some f =>
    rw [hf] at hclean
    obtain ⟨hledger, hstore, d, hd⟩ := Ledger.flushCounted_eq_some hf
    obtain ⟨added, hflush⟩ := hs.flushedBooks hready hnow hle hd
    have hfault : (s.site.ledger.flush s.site.store now).fault = none := by
      by_contra hne
      obtain ⟨e, he⟩ := Option.ne_none_iff_exists'.1 hne
      obtain ⟨_, c, hc, hrefused⟩ := hflush.fault e he
      refine hclean.answered c ?_ hrefused
      simp only [Site.flushed, hstore, hflush.history]
      exact List.mem_append_left _ hc
    have hbuffer : f.ledger.buffer = Dict.empty := by
      rw [hledger]
      exact (LedgerRun.ledger_flush s.site.store now hd).1
    have hwritten : ∀ key, s.log.written.advance s.site.ledger.buffer.toList (writesIn k.tag added) key =
        (s.site.ledger.buffer.get? key).or (s.log.written key) := by
      intro key
      have hfind : Entries.find key s.site.ledger.buffer.toList = s.site.ledger.buffer.get? key := rfl
      cases hb : s.site.ledger.buffer.get? key with
      | none =>
        rw [Standing.advance, hfind, hb]
        exact ite_self _
      | some b =>
        obtain ⟨hera, hlive⟩ := h.live key b hb
        have hstill : Live now d b :=
          TimeBucket.not_isExpired_of_double hera hnow hd (hprompt key (by rw [hb]; exact Option.some_ne_none b)) hlive
        have hid : key.2 ∈ writesIn k.tag added := hflush.all hfault key b hb hstill
        rw [Standing.advance, hfind, hb, if_pos hid]
    have hlog : Log.noteFlush s.site.ledger s.site.store f.store { s.log with clock := now } =
        { s.log with clock := now, written := fun key => (s.site.ledger.buffer.get? key).or (s.log.written key) } := by
      simp only [Log.noteFlush, hstore, Store.callsSince_append hflush.history, ← hwritten]
    show Complete ⟨s.site.flushed f, Log.noteFlush s.site.ledger s.site.store f.store { s.log with clock := now }⟩
    rw [hlog]
    refine ⟨h.submitted, fun id => ?_, h.mail, fun key a ha => ?_⟩
    · refine Eq.trans ?_ (h.newest id)
      rw [onWay_eq, onWay_eq]
      simp only [Site.flushed, hbuffer, Dict.get?_empty, Option.toList_none, List.append_nil, List.getLast?_append,
        Option.getLast?_toList]
    · simp only [Site.flushed, hbuffer, Dict.get?_empty] at ha
      cases ha

/-- A move that loses nothing leaves a complete station complete. -/
theorem act [Cumulative k.Carrier] (h : s.Complete) (hs : s.Sound A hash ring good) (hplaced : s.site.Placed p)
    (hring : ring.GivesAllTo hash s.site.name) (hready : Ready A s.log.written s.site.ledger.buffer)
    {m : ClusterMove k} (hm : m.Admissible good s.log) (hprompt : s.Prompt m) (hclean : (s.act p hash m).Clean p) :
    (s.act p hash m).Complete := by
  cases m with
  | submit i record => exact h.submit i record hash
  | begin i j now attached stalled =>
    obtain ⟨hnow, hle⟩ := hm
    have hbegun := s.begun p hash i j now attached stalled
    generalize s.act p hash (.begin i j now attached stalled) = t at hbegun hclean ⊢
    cases hbegun with
    | idle => exact h.of_entry h.submitted (fun _ => rfl) (fun _ => rfl) rfl rfl rfl
    | entry hcan => exact h.entry hs hnow hle hcan hclean
    | routing hcan => exact h.routing hs hring rfl hcan
    | storing hcan => exact h.storing hnow hcan hclean
  | send i j | lose i j =>
    match j with
    | 0 | _ + 2 => exact h
    | 1 =>
      have hmail : s.site.mail.tail = s.site.mail := by
        rw [h.mail]
        rfl
      refine h.of_entry h.submitted (fun id => ?_) (fun _ => rfl) hmail rfl rfl
      rw [onWay_eq, onWay_eq]
      rfl
  | handOn i j => exact h.handOn hplaced i j hash hclean
  | flush i now => exact h.flush hs hready i hm.1 hm.2 hprompt hclean
  | close i kind => cases kind <;> exact h.of_entry h.submitted (fun _ => rfl) (fun _ => rfl) rfl rfl rfl

end Complete
end Station
end TraceRollup
