import TraceRollup.Proofs.Holding

/-!
# What becomes of alarms

Flushes of the statistics raise alarms, which are offered to a pipeline of their own. Those offered
before its first queue is closed get in and are stored, by its last flush if not before. All
others are refused, and among them are all that the last flush of the statistics raises: by then
no queue is open any more (`NodeRun.delivered`).
-/

namespace TraceRollup

/-! ### Where alarms go -/

structure Node.Feeds (n : Node) (i : Nat) (p : PipelineId) : Prop where
  position : n.position? p = some i
  target : ∀ a ∈ n.pipelines, ∀ feed ∈ a.feed, feed.target = p

namespace Node.Feeds
variable {n m : Node} {i : Nat} {p : PipelineId}

theorem congr (h : n.Feeds i p) (ho : m.outline = n.outline) : m.Feeds i p := by
  refine ⟨?_, fun a ha feed hfeed => ?_⟩
  · rw [position?_eq, ho, ← position?_eq]
    exact h.position
  · have hmem : (a.kind, a.id, a.feed) ∈ n.outline := ho ▸ List.mem_map_of_mem ha
    obtain ⟨b, hb, heq⟩ := List.mem_map.1 hmem
    exact h.target b hb feed ((congrArg (·.2.2) heq).trans hfeed)

theorem flushAt (h : n.Feeds i p) {now : Instant} {j : Nat} {f : Flushed} (hf : n.flushAt now j = some f) :
    ∀ a ∈ f.alarms, a.1 = p := by
  rcases flushAt_cases hf with ⟨-, -, hnone⟩ | ⟨a, l, g, ha, -, -, hraise, -⟩
  · rw [hnone]
    nofun
  · unfold AnyPipeline.raise? at hraise
    split at hraise
    · rw [← Option.some.inj hraise]
      nofun
    · rename_i feed hfeed
      simp only [Option.bind_eq_bind, Option.bind_eq_some_iff, Option.pure_def, Option.some.injEq] at hraise
      obtain ⟨raised, -, hraise⟩ := hraise
      intro x hx
      rw [← hraise] at hx
      obtain ⟨alarm, -, rfl⟩ := List.mem_map.1 hx
      exact h.target a (List.mem_of_getElem? ha) feed hfeed

end Node.Feeds

namespace NodeRun
variable {i : Nat} {p : PipelineId}

theorem raised_step {r : NodeRun} (h : r.node.Feeds i p) (m : NodeMove) :
    ∃ more, (r.step m).raised = r.raised ++ more ∧ ∀ a ∈ more, a.1 = p := by
  have hnone : ∃ more, r.raised = r.raised ++ more ∧ ∀ a ∈ more, a.1 = p := ⟨[], (List.append_nil _).symm, nofun⟩
  cases m with
  | submit kind id record => exact hnone
  | begin j stage now => exact hnone
  | handOn j stage => exact hnone
  | flush j now =>
    simp only [step]
    split
    · exact hnone
    · rename_i f hf
      exact ⟨f.alarms, rfl, h.flushAt hf⟩
  | offer =>
    simp only [step]
    split <;> exact hnone

theorem offered_step (r : NodeRun) (m : NodeMove) : (r.step m).offered = r.offered ∨
    ∃ id alarm, r.raised[r.offered.length]? = some (id, alarm) ∧ r.actual m = .submit .alarm id alarm ∧
      (r.step m).offered = r.offered ++ [(r.node.submit .alarm id alarm).1] ∧
      (r.step m).sendings = (r.submit .alarm id alarm).sendings := by
  cases m with
  | submit kind id record => exact Or.inl rfl
  | begin j stage now => exact Or.inl rfl
  | handOn j stage => exact Or.inl rfl
  | flush j now =>
    simp only [step]
    split <;> exact Or.inl rfl
  | offer =>
    cases hnext : r.raised[r.offered.length]? with
    | none =>
      left
      rw [step, hnext]
    | some next => exact Or.inr ⟨next.1, next.2, rfl, by rw [actual, hnext], by rw [step, hnext], by rw [step, hnext]⟩

end NodeRun

/-! ### Alarms on their way -/

/-- What is so while alarms are raised and offered: those that were taken are held. -/
structure Delivered (i : Nat) (p : PipelineId) (r : NodeRun) (s : Site .alarm) : Prop where
  regular : s.Regular
  bounded : s.ledger.retention?.isSome = true
  feeds : r.node.Feeds i p
  targets : ∀ a ∈ r.raised, a.1 = p
  length : r.offered.length ≤ r.raised.length
  held : r.node.Faultless .alarm p → ∀ (n : Nat) (id : PipelineId) (alarm : Alarm), r.raised[n]? = some (id, alarm) →
    r.offered[n]? = some (.ok ()) → s.Holds alarm.id

namespace Seated
variable {i : Nat} {p : PipelineId} {r : NodeRun} {s t : Site .alarm} {m : NodeMove} {e : FlowEvent}

theorem offered (h : Seated i p r s) (hs : Delivered i p r s) (hturn : Turn i p r.hash s (r.actual m) e t)
    (hsendings : (r.step m).sendingsAt i = r.sendingsAt i ++ e.sendings i p) : (r.step m).offered = r.offered ∨
      ∃ alarm, r.raised[r.offered.length]? = some (p, alarm) ∧
        (r.step m).offered = r.offered ++ [(s.entry.send ⟨s.name, alarm⟩).1] ∧
        e = .sent .aggregate (s.entry.send ⟨s.name, alarm⟩).1 ∧ t = s.submitted alarm := by
  rcases r.offered_step m with hsame | ⟨id, alarm, hnext, hactual, hoffered, hnoted⟩
  · exact Or.inl hsame
  · obtain rfl : id = p := hs.targets _ (List.mem_of_getElem? hnext)
    refine Or.inr ⟨alarm, hnext, ?_⟩
    rw [hoffered, (h.hosts.submit hs.feeds.position alarm).1]
    have hsent : (r.step m).sendingsAt i =
        r.sendingsAt i ++ [⟨i, s.entry.stage, (r.node.submit .alarm id alarm).1⟩] := by
      rw [NodeRun.sendingsAt, hnoted]
      exact NodeRun.sendingsAt_submit (h.hosts.entrance? hs.feeds.position) alarm
    rw [hactual] at hturn
    cases hturn with
    | submitted _ _ => exact ⟨rfl, rfl, rfl⟩
    | beside _ _ =>
      -- Nothing would have been sent to the site.
      rw [hsent, List.append_cancel_left_eq] at hsendings
      cases hsendings

end Seated

namespace Delivered
variable {i : Nat} {p : PipelineId} {r : NodeRun} {s t : Site .alarm} {m : NodeMove} {e : FlowEvent}

theorem step (hs : Delivered i p r s) (h : Seated i p r s) (hintime : r.InTime p m)
    (hturn : Turn i p r.hash s (r.actual m) e t) (ht : Seated i p (r.step m) t)
    (hsendings : (r.step m).sendingsAt i = r.sendingsAt i ++ e.sendings i p) : Delivered i p (r.step m) t := by
  obtain ⟨more, hraised, hmore⟩ := NodeRun.raised_step hs.feeds m
  have hoffered := h.offered hs hturn hsendings
  refine ⟨hturn.regular hs.regular, ?_, hs.feeds.congr (r.outline_step m), fun a ha => ?_, ?_, ?_⟩
  · rw [Ledger.retention?, hturn.later.window]
    exact hs.bounded
  · rw [hraised, List.mem_append] at ha
    exact ha.elim (hs.targets a) (hmore a)
  · have hlength := hs.length
    rw [hraised, List.length_append]
    rcases hoffered with hsame | ⟨alarm, hnext, happend, -⟩
    · rw [hsame]
      omega
    · have hlt := (List.getElem?_eq_some_iff.1 hnext).1
      rw [happend, List.length_append, List.length_singleton]
      omega
  · intro hfaultless n id alarm hn hok
    have hkept : r.offered[n]? = some (.ok ()) → t.Holds alarm.id := by
      intro hok
      have hlt := (List.getElem?_eq_some_iff.1 hok).1
      rw [hraised, List.getElem?_append_left (Nat.lt_of_lt_of_le hlt hs.length)] at hn
      exact hturn.holds (h.lossless hs.regular hturn ht hintime hfaultless) hs.regular
        (hs.held (h.faultless hturn ht hfaultless) n id alarm hn hok)
    rcases hoffered with hsame | ⟨next, hnext, happend, -, rfl⟩
    · exact hkept (hsame ▸ hok)
    · rw [happend] at hok
      rcases Nat.lt_or_ge n r.offered.length with hlt | hge
      · rw [List.getElem?_append_left hlt] at hok
        exact hkept hok
      · -- The alarm that was offered just now.
        rw [List.getElem?_append_right hge, List.getElem?_singleton] at hok
        split at hok
        · rename_i hzero
          obtain rfl : n = r.offered.length := by omega
          rw [hraised, List.getElem?_append_left (List.getElem?_eq_some_iff.1 hnext).1, hnext] at hn
          cases hn
          exact Site.holds_submitted (Option.some.inj hok)
        · cases hok

theorem close (hs : Delivered i p r s) (kind : StageKind) (hupstream : s.Upstream kind) :
    Delivered i p (r.close kind) (s.closed kind) where
  regular := by
    obtain ⟨hkeyed, hbatch, hrouting, harrivals⟩ := hs.regular
    cases kind with
    | aggregate =>
      exact ⟨hkeyed, hbatch, fun h => ⟨rfl, (hrouting h).2⟩, fun h => ⟨⟨rfl, (harrivals h).1.2⟩, (harrivals h).2⟩⟩
    | dispatch => exact ⟨hkeyed, hbatch, fun _ => hupstream, harrivals⟩
    | persist => exact ⟨hkeyed, hbatch, hrouting, fun _ => hupstream⟩
  bounded := by cases kind <;> exact hs.bounded
  feeds := hs.feeds.congr (r.node.outline_cancel kind)
  targets := hs.targets
  length := hs.length
  held hfaultless := by cases kind <;> exact hs.held hfaultless.of_close

end Delivered

/-! ### Before and after the first stage is closed -/

/-- While the first queue is open, it takes all alarms. -/
structure Admitting (i : Nat) (p : PipelineId) (r : NodeRun) (s : Site .alarm) : Prop extends Delivered i p r s where
  door : s.entry.refusesAll = false
  taken : r.node.Faultless .alarm p → ∀ answer ∈ r.offered, answer = .ok ()

/-- Once it is closed, it has taken the first `n` and refuses the others. -/
structure Refusing (i : Nat) (p : PipelineId) (n : Nat) (r : NodeRun) (s : Site .alarm) : Prop
    extends Delivered i p r s where
  door : s.entry.refusesAll = true
  enough : n ≤ r.offered.length
  taken : r.node.Faultless .alarm p → ∀ answer ∈ r.offered.take n, answer = .ok ()
  refused : ∀ answer ∈ r.offered.drop n, answer = .error .closed

theorem StageQueue.send_of_refusesAll {α : Type} {q : StageQueue α} (h : q.refusesAll = true) (x : α) :
    q.send x = (.error .closed, q) := if_pos h

theorem StageQueue.send_of_open {α : Type} {q : StageQueue α} (h : q.refusesAll = false) (x : α) :
    (q.send x).1 = .ok () ∨ (q.send x).1 = .error (.saturated q.stage) := by
  rw [send, if_neg (by rw [h]; decide)]
  split
  · exact Or.inr rfl
  · exact Or.inl rfl

theorem advances_admitting (i : Nat) (p : PipelineId) : Advances i p (NodeRun.InTime p) (Admitting i p) where
  step {r s t m e} hintime h hs hturn ht hsendings := by
    refine ⟨hs.toDelivered.step h hintime hturn ht hsendings, hturn.doors.1.trans hs.door, fun hfaultless => ?_⟩
    have hbefore := hs.taken (h.faultless hturn ht hfaultless)
    rcases h.offered hs.toDelivered hturn hsendings with hsame | ⟨alarm, -, happend, rfl, -⟩
    · rwa [hsame]
    · intro answer hanswer
      rw [happend, List.mem_append, List.mem_singleton] at hanswer
      rcases hanswer with hanswer | rfl
      · exact hbefore answer hanswer
      · rcases StageQueue.send_of_open hs.door ⟨s.name, alarm⟩ with hok | hsaturated
        · exact hok
        · -- A full queue would have been counted.
          have hdropped := h.dropped hturn ht .aggregate "queue_saturated"
          rw [hsaturated, hfaultless.unsaturated .aggregate] at hdropped
          simp [FlowEvent.adds, Shared.refusalIn, Refusal.reason] at hdropped

theorem preserves_refusing (i : Nat) (p : PipelineId) (n : Nat) :
    Preserves i p (NodeRun.InTime p) (Refusing i p n) where
  step {r s t m e} hintime h hs hturn ht hsendings := by
    refine ⟨hs.toDelivered.step h hintime hturn ht hsendings, hturn.doors.1.trans hs.door, ?_, fun hfaultless => ?_, ?_⟩
    all_goals rcases h.offered hs.toDelivered hturn hsendings with hsame | ⟨alarm, -, happend, -, -⟩
    · rw [hsame]
      exact hs.enough
    · rw [happend, List.length_append]
      exact Nat.le_add_right_of_le hs.enough
    · rw [hsame]
      exact hs.taken (h.faultless hturn ht hfaultless)
    · rw [happend, List.take_append_of_le_length hs.enough]
      exact hs.taken (h.faultless hturn ht hfaultless)
    · rw [hsame]
      exact hs.refused
    · intro answer hanswer
      rw [happend, List.drop_append_of_le_length hs.enough, List.mem_append, List.mem_singleton] at hanswer
      rcases hanswer with hanswer | rfl
      · exact hs.refused answer hanswer
      · rw [StageQueue.send_of_refusesAll hs.door]
  close {r s} kind h hs hupstream := by
    refine ⟨hs.toDelivered.close kind hupstream, ?_, hs.enough, fun hfaultless => ?_, hs.refused⟩
    · cases kind with
      | aggregate => rfl
      | dispatch | persist => exact hs.door
    · exact hs.taken hfaultless.of_close

theorem Admitting.close {i : Nat} {p : PipelineId} {r : NodeRun} {s : Site .alarm} (hs : Admitting i p r s) :
    Refusing i p r.offered.length (r.close .aggregate) (s.closed .aggregate) where
  toDelivered := hs.toDelivered.close .aggregate trivial
  door := rfl
  enough := Nat.le_refl _
  taken hfaultless answer hanswer := hs.taken hfaultless.of_close answer (List.mem_of_mem_take hanswer)
  refused answer hanswer := by
    have hnil : r.offered.drop r.offered.length = [] := List.drop_length
    rw [show (r.close .aggregate).offered = r.offered from rfl, hnil] at hanswer
    cases hanswer

namespace Refusing
variable {i n m : Nat} {p : PipelineId} {r : NodeRun} {s : Site .alarm}

theorem ok_of_lt (hs : Refusing i p n r s) (hfaultless : r.node.Faultless .alarm p) (hm : m < n) :
    r.offered[m]? = some (.ok ()) := by
  have hget : r.offered[m]? = some _ := List.getElem?_eq_getElem (Nat.lt_of_lt_of_le hm hs.enough)
  have htaken : (r.offered.take n)[m]? = some _ := (List.getElem?_take_of_lt hm).trans hget
  rw [hget, hs.taken hfaultless _ (List.mem_of_getElem? htaken)]

theorem closed_of_le (hs : Refusing i p n r s) (hm : n ≤ m) (hoffered : m < r.offered.length) :
    r.offered[m]? = some (.error .closed) := by
  have hget : r.offered[m]? = some _ := List.getElem?_eq_getElem hoffered
  have hdropped : (r.offered.drop n)[m - n]? = some r.offered[m] := by
    rw [List.getElem?_drop, Nat.add_sub_cancel' hm]
    exact hget
  rw [hget, hs.refused _ (List.mem_of_getElem? hdropped)]

end Refusing

/-! ### The last flush -/

/-- All that a site holds is stored. -/
structure Emptied {k : RecordKind} (s : Site k) : Prop where
  finished : s.Finished
  buffer : s.ledger.buffer = Dict.empty

theorem Emptied.stored {k : RecordKind} {s : Site k} (h : Emptied s) {id : String} (hid : s.Holds id) :
    (s.store.table k.tag).get? id ≠ none := by
  have hinside : s.inside = [] := by
    simp only [Site.inside, List.append_eq_nil_iff]
    exact ⟨⟨⟨⟨(h.finished .aggregate).2.1, (h.finished .aggregate).2.2⟩, (h.finished .dispatch).1⟩,
      (h.finished .dispatch).2.2⟩, h.finished .persist⟩
  rcases hid with ⟨x, hx, -⟩ | ⟨origin, hb⟩ | hrow
  · rw [hinside] at hx
    cases hx
  · rw [h.buffer] at hb
    exact absurd rfl hb
  · exact hrow

theorem Turn.emptied {k : RecordKind} {i : Nat} {p : PipelineId} {hash : PointHash} {s t : Site k} {m : NodeMove}
    {e : FlowEvent} (h : Turn i p hash s m e t) (hs : Emptied s) : Emptied t := by
  refine ⟨h.later.finished hs.finished, ?_⟩
  cases h with
  | storing now hcan => exact absurd (hs.finished .persist) (Worker.items_of_canBegin hcan)
  | flushed now hf alarms =>
    obtain ⟨hledger, _, d, hd⟩ := Ledger.flushCounted_eq_some hf
    show Ledger.buffer _ = _
    rw [Site.flushed, hledger]
    exact (LedgerRun.ledger_flush _ now hd).1
  | submitted _ _ | entry _ _ | routing _ _ | answered _ | kept _ => exact hs.buffer
  | beside m h =>
    rw [h.same]
    exact hs.buffer

theorem advances_emptied {k : RecordKind} (i : Nat) (p : PipelineId) (admits : NodeRun → NodeMove → Prop) :
    Advances (k := k) i p admits fun _ s => Emptied s where
  step _ _ hs hturn _ _ := hturn.emptied hs

theorem Advances.and {k : RecordKind} {i : Nat} {p : PipelineId} {admits : NodeRun → NodeMove → Prop}
    {P Q : NodeRun → Site k → Prop} (hP : Advances i p admits P) (hQ : Advances i p admits Q) :
    Advances i p admits fun r s => P r s ∧ Q r s where
  step hm h hs hturn ht hsendings :=
    ⟨hP.step hm h hs.1 hturn ht hsendings, hQ.step hm h hs.2 hturn ht hsendings⟩

namespace Seated
variable {i : Nat} {p : PipelineId} {r next : NodeRun} {s t : Site .alarm}

theorem isSome_flushAt (h : Seated i p r s) (hbounded : s.ledger.retention?.isSome = true) (now : Instant) :
    (r.node.flushAt now i).isSome = true := by
  obtain ⟨feed, hpipeline⟩ := h.hosts.pipeline
  have hends := Ledger.isSome_flushCounted rfl hbounded r.node.store now r.node.counters
  obtain ⟨g, hg⟩ := Option.isSome_iff_exists.1 hends
  have hledger : (s.pipeline p).ledger? = some s.ledger := rfl
  have hnone : g.told.filterMap (RecordKind.statistics? .alarm) = [] := List.filterMap_eq_nil_iff.2 fun _ _ => rfl
  simp only [Node.flushAt, hpipeline, hledger, hg, Option.bind_eq_bind, Option.bind_some, AnyPipeline.raise?]
  cases feed with
  | none => rfl
  | some f =>
    simp only [hnone]
    rfl

theorem emptied (h : Seated i p r s) (hbounded : s.ledger.retention?.isSome = true) (hfinished : t.Finished)
    {now : Instant} (ht : Seated i p (r.step (.flush i now)) t) : Emptied t := by
  obtain ⟨f, hf⟩ := Option.isSome_iff_exists.1 (h.isSome_flushAt hbounded now)
  obtain ⟨g, hg, hhosts⟩ := h.flushed hf
  have hstep : r.step (.flush i now) = { r with node := f.node, raised := r.raised ++ f.alarms } := by
    simp only [NodeRun.step, hf]
  rw [hstep] at ht
  obtain ⟨hledger, _, d, hd⟩ := Ledger.flushCounted_eq_some hg
  refine ⟨hfinished, ?_⟩
  rw [ht.hosts.ledger_eq hhosts]
  show g.ledger.buffer = _
  rw [hledger]
  exact (LedgerRun.ledger_flush _ now hd).1

/-- The ledger of the alarms is flushed after all else is done. -/
theorem flushes_emptied {n : Nat} {positions : List Nat} (h : Seated i p r s) (hs : Refusing i p n r s)
    (hfinished : s.Finished) (hi : i ∈ positions)
    (hflushes : NodeRun.Flushes (NodeRun.InTime p) positions r next) :
    ∃ t, Seated i p next t ∧ Refusing i p n next t ∧ Emptied t := by
  have hrefusing := (preserves_refusing i p n).toAdvances
  induction hflushes generalizing s with
  | nil r => cases hi
  | @cons j rest r _ _ now hflush hreach _ hrest ih =>
    obtain ⟨e, t, hturn, ht, hsendings⟩ := h.step (.flush j now)
    have hPt := hrefusing.step hflush h hs hturn ht hsendings
    have hdone := hturn.later.finished hfinished
    by_cases hj : j = i
    · -- The buffer is empty from here on, for nothing gets into a site that has finished.
      subst hj
      have hboth := hrefusing.and (advances_emptied j p (NodeRun.InTime p))
      obtain ⟨u, hu, hPu, _⟩ := hboth.reaches ht ⟨hPt, h.emptied hs.bounded hdone ht⟩ hreach
      obtain ⟨v, hv, hPv, _⟩ := hboth.flushes hu hPu hPu.2.finished hrest
      exact ⟨v, hv, hPv⟩
    · obtain ⟨u, hu, hPu, hlater⟩ := hrefusing.reaches ht hPt hreach
      exact ih hu hPu (hlater.finished hdone) ((List.mem_cons.1 hi).resolve_left fun heq => hj heq.symm)

end Seated

/-! ### Runs -/

theorem NodeRun.Flushes.announced {admits : NodeRun → NodeMove → Prop} {positions : List Nat} {r next : NodeRun}
    (h : Flushes admits positions r next) (hr : r.Announced) : next.Announced := by
  induction h with
  | nil r => exact hr
  | cons _ _ hannounced _ ih => exact ih hannounced

namespace Collector

/-- The pipelines of a collector, that of the alarms first. -/
def pipelines (rules : Option AlarmRules) (o : PipelineOptions) : List AnyPipeline := [
  ⟨.alarm, .create o Node.soleName alarmPipeline layout, none⟩,
  ⟨.serviceStats, .create o Node.soleName servicePipeline layout, rules.map fun r => ⟨r, alarmPipeline⟩⟩,
  ⟨.callSummary, .create o Node.soleName callPipeline layout, none⟩,
  ⟨.heartbeat, .create o Node.soleName heartbeatPipeline layout, none⟩]

theorem buildPipelines_sole (rules : Option AlarmRules) (o : PipelineOptions) (store : Store) :
    buildPipelines rules (Node.sole o store) = .ok { Node.sole o store with pipelines := pipelines rules o } := rfl

theorem pipelines_only (rules : Option AlarmRules) (o : PipelineOptions) (j : Nat) (a : AnyPipeline)
    (ha : (pipelines rules o)[j]? = some a) (hkind : a.kind = .alarm) : j = 0 := by
  rcases j with _ | _ | _ | _ | j
  · rfl
  all_goals cases ha <;> cases hkind

theorem feeds_pipelines (rules : Option AlarmRules) (o : PipelineOptions) (store : Store) :
    Node.Feeds { Node.sole o store with pipelines := pipelines rules o } 0 alarmPipeline := by
  refine ⟨rfl, fun a ha feed hfeed => ?_⟩
  simp only [pipelines, List.mem_cons, List.not_mem_nil, or_false] at ha
  rcases ha with rfl | rfl | rfl | rfl
  · cases hfeed
  · obtain ⟨_, -, rfl⟩ := Option.map_eq_some_iff.1 hfeed
    rfl
  · cases hfeed
  · cases hfeed

end Collector

theorem Admitting.sole (rules : Option AlarmRules) {o : PipelineOptions} (hwindow : o.window.double?.isSome = true)
    (store : Store) (hash : PointHash) : Admitting 0 Collector.alarmPipeline
      { node := { Node.sole o store with pipelines := Collector.pipelines rules o }, hash }
      (Site.create .alarm Collector.alarmPipeline Node.soleName o store (Node.sole o store).shared) where
  regular := ⟨nofun, Nat.lt_of_lt_of_le Nat.one_pos (Nat.le_max_right _ _), nofun, nofun⟩
  bounded := hwindow
  feeds := Collector.feeds_pipelines rules o store
  targets := nofun
  length := Nat.le_refl _
  held _ _ _ _ h := by cases h
  door := rfl
  taken _ := nofun

namespace NodeRun

/-- A node of all pipelines is run in any way and then shut down, so that every worker finishes,
and neither the store nor the pipeline of the alarms was at fault. An alarm that was offered before
the first stage was closed has its row. Every later one was refused as closed, and so were all that
were raised from then on, also by the last flush. -/
theorem delivered (rules : AlarmRules) (o : PipelineOptions) (store : Store) (node : Node) (hash : PointHash)
    (r last : NodeRun) (hbuild : Collector.buildPipelines (some rules) (Node.sole o store) = .ok node)
    (hwindow : o.window.double?.isSome = true)
    (hstops : Stops (InTime Collector.alarmPipeline) { node, hash } r last)
    (hfaultless : last.node.Faultless .alarm Collector.alarmPipeline) :
    r.offered.length ≤ r.raised.length ∧ ∀ n id alarm, last.raised[n]? = some (id, alarm) →
      (n < r.offered.length → last.offered[n]? = some (.ok ()) ∧
        (last.node.store.table RecordKind.alarm.tag).get? alarm.id ≠ none) ∧
      (r.offered.length ≤ n → last.offered[n]? = some (.error .closed)) := by
  rw [Collector.buildPipelines_sole] at hbuild
  cases hbuild
  obtain @⟨closed, _, hrun, hcloses, hannounced, hflushes⟩ := hstops
  obtain ⟨s, hs, hadmitting, _⟩ := (advances_admitting 0 _).reaches
    (.sole rfl (Collector.pipelines_only (some rules) o) hash) (.sole (some rules) hwindow store hash) hrun
  obtain ⟨t, ht, hrefusing, hfinished⟩ := (preserves_refusing 0 _ _).closes hs hadmitting.close hcloses
  have hposition : 0 ∈ List.range closed.node.pipelines.length := by
    obtain ⟨_, hpipeline⟩ := ht.hosts.pipeline
    exact List.mem_range.2 (List.getElem?_eq_some_iff.1 hpipeline).1
  obtain ⟨u, hu, hlast, hemptied⟩ := ht.flushes_emptied hrefusing hfinished hposition hflushes
  refine ⟨hadmitting.length, fun n id alarm hraised => ⟨fun hn => ?_, fun hn => ?_⟩⟩
  · have hok := hlast.ok_of_lt hfaultless hn
    refine ⟨hok, ?_⟩
    rw [hu.hosts.store]
    exact hemptied.stored (hlast.held hfaultless n id alarm hraised hok)
  · refine hlast.closed_of_le hn ?_
    rw [hflushes.announced hannounced]
    exact (List.getElem?_eq_some_iff.1 hraised).1

def vigilant : AlarmRules := ⟨1, .ofInt 1, .zero⟩

def watched : NodeRun where
  node := { Node.sole {} .fresh with pipelines := Collector.pipelines (some vigilant) {} }
  hash _ := 0

/-- A service is called, and a flush raises an alarm. -/
def alerted : NodeRun :=
  (((((((watched.step (.submit .serviceStats Collector.servicePipeline .oneCall)).step (.begin 1 0 .epoch)).step
    (.handOn 1 0)).step (.begin 1 1 .epoch)).step (.handOn 1 1)).step (.begin 1 2 .epoch)).step (.flush 1 .epoch))

/-- The alarm is offered, and another service is called before the first stage is closed. -/
def calledAgain : NodeRun :=
  (alerted.step .offer).step (.submit .serviceStats Collector.servicePipeline { ServiceStats.oneCall with service := 2 })

def totalled : NodeRun :=
  ((((calledAgain.close .aggregate).step (.begin 0 0 .epoch)).step (.handOn 0 0)).step (.begin 1 0 .epoch)).step
    (.handOn 1 0)

def routed : NodeRun :=
  ((((totalled.close .dispatch).step (.begin 0 1 .epoch)).step (.handOn 0 1)).step (.begin 1 1 .epoch)).step (.handOn 1 1)

def buffered : NodeRun := ((routed.close .persist).step (.begin 0 2 .epoch)).step (.begin 1 2 .epoch)

/-- The alarm on the other service is raised by the last flush. -/
def flushed : NodeRun :=
  ((((buffered.step (.flush 0 .epoch)).step (.flush 1 .epoch)).step .offer).step (.flush 2 .epoch)).step
    (.flush 3 .epoch)

theorem stops_flushed (p : PipelineId) : Stops (InTime p) watched calledAgain flushed := by
  have hflush : ∀ {r : NodeRun} {i : Nat}, (∀ a ∈ r.node.pipelines[i]?, ∀ l ∈ a.pipeline.ledger?, ∀ d ∈ l.retention?,
      ∀ e ∈ l.buffer.toList, (Rollup.bucket e.2).isExpired .epoch d = false) → r.InTime p (.flush i .epoch) :=
    fun hlive a ha _ => hlive a ha
  have hrun : Reaches (InTime p) watched calledAgain :=
    .step _ (.step _ (.step _ (.step _ (.step _ (.step _ (.step _ (.step _ (.step _ .refl trivial) trivial) trivial)
      trivial) trivial) trivial) (hflush (by decide +kernel))) trivial) trivial
  have hcloses : Closes (InTime p) StageKind.closingOrder calledAgain buffered := by
    refine .cons (s := totalled) (.step _ (.step _ (.step _ (.step _ .refl trivial) trivial) trivial) trivial) ?_
      (.cons (s := routed) (.step _ (.step _ (.step _ (.step _ .refl trivial) trivial) trivial) trivial) ?_
        (.cons (s := buffered) (.step _ (.step _ .refl trivial) trivial) ?_ (.nil _))) <;> decide +kernel
  have hflushes : Flushes (InTime p) [0, 1, 2, 3] buffered flushed := by
    refine .cons (hflush ?_) .refl ?_ (.cons (hflush ?_) (.step .offer .refl trivial) ?_
      (.cons (hflush ?_) .refl ?_ (.cons (hflush ?_) .refl ?_ (.nil _)))) <;> decide +kernel
  have hpositions : [0, 1, 2, 3] = List.range buffered.node.pipelines.length := by decide +kernel
  exact .intro hrun hcloses (by decide +kernel) (hpositions ▸ hflushes)

theorem faultless_flushed (k : RecordKind) (p : PipelineId) : flushed.node.Faultless k p := by
  have hkeys : (flushed.node.counters.values.keys.all fun
      | .dropped _ _ reason => decide (reason = "closed")
      | _ => true) = true := by decide +kernel
  have hdropped : ∀ stage reason, reason ≠ "closed" → flushed.node.counters.droppedAt k p stage reason = 0 := by
    intro stage reason hreason
    rw [Counters.droppedAt, Counters.get, Dict.get?, Entries.find_eq_none_iff.2 fun hmem => ?_]
    · rfl
    · exact hreason (of_decide_eq_true (List.all_eq_true.1 hkeys _ hmem))
  have hanswered : (flushed.node.store.history.all fun c => decide (c.verdict = .answer)) = true := by decide +kernel
  refine ⟨fun c hc hrefused => ?_, fun stage => hdropped stage _ (by decide), fun stage => hdropped stage _ (by decide)⟩
  obtain ⟨what, hrefuse⟩ := hrefused
  rw [of_decide_eq_true (List.all_eq_true.1 hanswered c hc)] at hrefuse
  cases hrefuse

/-- The alarm of the flush while all was running is stored. -/
theorem delivered_alerted : Stops (InTime Collector.alarmPipeline) watched calledAgain flushed ∧
    flushed.node.Faultless .alarm Collector.alarmPipeline ∧ calledAgain.offered.length = 1 ∧
    ∃ alarm, flushed.raised[0]? = some (Collector.alarmPipeline, alarm) ∧ flushed.offered[0]? = some (.ok ()) ∧
      (flushed.node.store.table RecordKind.alarm.tag).get? alarm.id ≠ none := by
  obtain ⟨⟨id, alarm⟩, hraised⟩ : ∃ a, flushed.raised[0]? = some a := Option.isSome_iff_exists.1 (by decide +kernel)
  have hid : flushed.raised[0]?.map Prod.fst = some Collector.alarmPipeline := by decide +kernel
  rw [hraised] at hid
  cases hid
  have hoffered : calledAgain.offered.length = 1 := by decide +kernel
  have hstops := stops_flushed Collector.alarmPipeline
  have hfaultless := faultless_flushed .alarm Collector.alarmPipeline
  have hdelivered := delivered vigilant {} .fresh watched.node (fun _ => 0) calledAgain flushed rfl (by decide) hstops
    hfaultless
  exact ⟨hstops, hfaultless, hoffered, alarm, hraised, (hdelivered.2 0 _ alarm hraised).1 (by rw [hoffered]; decide)⟩

/-- The one of the last flush is not, although nothing was at fault. -/
theorem unstored_flushed : ∃ (r last : NodeRun) (n : Nat) (alarm : Alarm),
    Collector.buildPipelines (some vigilant) (Node.sole {} .fresh) = .ok watched.node ∧
    (∀ p, Stops (InTime p) watched r last) ∧ (∀ k p, last.node.Faultless k p) ∧
    last.raised[n]? = some (Collector.alarmPipeline, alarm) ∧ last.offered[n]? = some (.error .closed) ∧
    (last.node.store.table RecordKind.alarm.tag).get? alarm.id = none := by
  have hlast : (flushed.raised[1]?.any fun a => decide (a.1 = Collector.alarmPipeline) &&
      ((flushed.node.store.table RecordKind.alarm.tag).get? a.2.id).isNone) = true := by decide +kernel
  obtain ⟨⟨id, alarm⟩, hraised, hrow⟩ := (Option.any_eq_true _ _).1 hlast
  simp only [Bool.and_eq_true, decide_eq_true_eq, Option.isNone_iff_eq_none] at hrow
  obtain ⟨rfl, hrow⟩ := hrow
  exact ⟨calledAgain, flushed, 1, alarm, rfl, stops_flushed, faultless_flushed, hraised, by decide +kernel, hrow⟩

end NodeRun
end TraceRollup
