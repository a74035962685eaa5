import TraceRollup.Proofs.Holding
import TraceRollup.Proofs.Registration

/-!
# Subjects do not mix

A record is about a subject, in a time bucket, and its id tells both (`RecordKind.id_eq_iff`). What is kept
under an id is therefore kept for one subject: totals, snapshots, rows and shares of a batch are those of its
own records, whatever else goes through the same stages (`RecordKind.subjects_apart`).
-/

namespace TraceRollup

/-! ### Subjects and ids -/

inductive Subject
  | service (id : Int32)
  | calls (front behind : Int32)
  | agent (id : Int32)
  | alarm (scope : AlarmScope) (source : Int32) (kind : AlarmKind)
  deriving DecidableEq

namespace RecordKind

def subject : (k : RecordKind) → k.Carrier → Subject
  | .serviceStats, m => .service m.service
  | .callSummary, m => .calls m.front m.behind
  | .heartbeat, m => .agent m.instanceId
  | .alarm, m => .alarm m.scope m.source m.kind

theorem id_eq_iff (k : RecordKind) (a b : k.Carrier) :
    Rollup.id a = Rollup.id b ↔ Rollup.bucket a = Rollup.bucket b ∧ k.subject a = k.subject b := by
  constructor
  · intro h
    cases k with
    | serviceStats =>
      obtain ⟨hbucket, hservice⟩ := ServiceStats.subject_of_id h
      exact ⟨hbucket, congrArg Subject.service hservice⟩
    | callSummary =>
      obtain ⟨hbucket, hfront, hbehind⟩ := CallSummary.subject_of_id h
      exact ⟨hbucket, congrArg₂ Subject.calls hfront hbehind⟩
    | heartbeat =>
      obtain ⟨hbucket, hinstance⟩ := Heartbeat.subject_of_id h
      exact ⟨hbucket, congrArg Subject.agent hinstance⟩
    | alarm =>
      obtain ⟨hbucket, hscope, hsource, hkind⟩ := Alarm.subject_of_id h
      exact ⟨hbucket, (Subject.alarm.injEq ..).mpr ⟨hscope, hsource, hkind⟩⟩
  · rintro ⟨hbucket, hsubject⟩
    cases k with
    | serviceStats =>
      have hservice := Subject.service.inj hsubject
      show ServiceStats.id a = ServiceStats.id b
      rw [ServiceStats.id, ServiceStats.id, show a.bucket = b.bucket from hbucket, hservice]
    | callSummary =>
      obtain ⟨hfront, hbehind⟩ := Subject.calls.inj hsubject
      show CallSummary.id a = CallSummary.id b
      rw [CallSummary.id, CallSummary.id, show a.bucket = b.bucket from hbucket, hfront, hbehind]
    | heartbeat =>
      have hinstance := Subject.agent.inj hsubject
      show Heartbeat.id a = Heartbeat.id b
      rw [Heartbeat.id, Heartbeat.id, show a.bucket = b.bucket from hbucket, hinstance]
    | alarm =>
      obtain ⟨hscope, hsource, hkind⟩ := Subject.alarm.inj hsubject
      show Alarm.id a = Alarm.id b
      rw [Alarm.id, Alarm.id, show a.bucket = b.bucket from hbucket, hscope, hsource, hkind]

/-- The record is about the same subject as `r`, in the same bucket. -/
def about (k : RecordKind) (r a : k.Carrier) : Bool :=
  decide (Rollup.bucket a = Rollup.bucket r ∧ k.subject a = k.subject r)

theorem about_eq (k : RecordKind) (r : k.Carrier) : k.about r = fun a => decide (Rollup.id a = Rollup.id r) := by
  funext a
  exact decide_eq_decide.2 (k.id_eq_iff a r).symm

end RecordKind

/-- What stands in front of the first underscore of a scoped name is a number, whatever is in the name. -/
theorem NameRegistry.scopedName_eq_iff {a b : Int32} {s t : String} :
    scopedName a s = scopedName b t ↔ a = b ∧ s = t := by
  constructor
  · intro h
    obtain ⟨happlication, hname⟩ :=
      split_at_underscore (Decimal.underscore_notMem_int _) (Decimal.underscore_notMem_int _) h
    exact ⟨Int32.toInt_inj.1 (Decimal.int_injective happlication), hname⟩
  · rintro ⟨rfl, rfl⟩
    rfl

def Snapshot.hasId {α : Type} [Rollup α] (id : String) (s : Snapshot α) : Bool := decide (Rollup.id s.record = id)

/-! ### Totals -/

namespace Accumulator
variable {α : Type} [Rollup α] {id : String} {a b : Accumulator α} {now : Instant}

/-- Two accumulators that hold the same under an id, and evict at the same times. -/
structure AlikeAt (id : String) (a b : Accumulator α) : Prop where
  window : a.window = b.window
  lastEviction : a.lastEviction = b.lastEviction
  total : a.totals.get? id = b.totals.get? id
  keyed : a.Keyed ∧ b.Keyed

theorem alikeAt_start (window : Duration) (id : String) : AlikeAt id ({ window } : Accumulator α) { window } :=
  ⟨rfl, rfl, rfl, (fun _ _ h => by cases h), fun _ _ h => by cases h⟩

theorem AlikeAt.evictIfDue (h : a.AlikeAt id b) (now : Instant) :
    (a.evictIfDue now).AlikeAt id (b.evictIfDue now) := by
  have hkeyed := And.intro (h.keyed.1.evictIfDue now) (h.keyed.2.evictIfDue now)
  unfold Accumulator.evictIfDue at hkeyed ⊢
  have hdue : a.evictionDue now = b.evictionDue now := by rw [evictionDue, h.lastEviction, evictionDue]
  rw [hdue] at hkeyed ⊢
  split
  · rename_i hd
    simp only [hd, if_true] at hkeyed
    refine ⟨h.window, rfl, ?_, hkeyed⟩
    simp only [evict, isLate, Dict.get?_filter, h.total, h.window]
  · exact h

variable [LawfulKey α]

theorem AlikeAt.accept (h : a.AlikeAt id b) {record : α} (hid : Rollup.id record = id) (now : Instant) :
    (a.accept record now).1 = (b.accept record now).1 ∧
      (a.accept record now).2.AlikeAt id (b.accept record now).2 := by
  have hkeyed := And.intro (h.keyed.1.accept record now).1 (h.keyed.2.accept record now).1
  have htotal := h.total
  rw [← hid] at htotal
  unfold Accumulator.accept at hkeyed ⊢
  have hlate : a.isLate now record = b.isLate now record := by rw [isLate, h.window, isLate]
  rw [hlate, htotal] at hkeyed ⊢
  split
  · exact ⟨rfl, h⟩
  · rename_i hlive
    simp only [hlive, Bool.false_eq_true, if_false] at hkeyed
    refine ⟨rfl, h.window, h.lastEviction, ?_, hkeyed⟩
    rw [Dict.get?_set, Dict.get?_set, h.total]

/-- A record of another id leaves the total as it is. -/
theorem AlikeAt.accept_other (h : a.AlikeAt id b) {record : α} (hid : Rollup.id record ≠ id) (now : Instant) :
    (a.accept record now).2.AlikeAt id b := by
  have hkeyed := (h.keyed.1.accept record now).1
  unfold Accumulator.accept at hkeyed ⊢
  split
  · exact h
  · rename_i hlive
    simp only [hlive, Bool.false_eq_true, if_false] at hkeyed
    refine ⟨h.window, h.lastEviction, ?_, hkeyed, h.keyed.2⟩
    rw [Dict.get?_set, if_neg (Ne.symm hid), h.total]

/-- The answers under an id are those that its own records would have got alone. -/
theorem AlikeAt.acceptAll (h : a.AlikeAt id b) (now : Instant) (batch : List (Snapshot α)) :
    (acceptAll now a batch).1.snapshots.filter (Snapshot.hasId id) =
        (acceptAll now b (batch.filter (Snapshot.hasId id))).1.snapshots ∧
      (acceptAll now a batch).2.AlikeAt id (acceptAll now b (batch.filter (Snapshot.hasId id))).2 := by
  induction batch generalizing a b with
  | nil => exact ⟨rfl, h⟩
  | cons s rest ih =>
    have htotal := (h.keyed.1.accept s.record now).2
    by_cases hid : Rollup.id s.record = id
    · obtain ⟨hanswer, hstep⟩ := h.accept hid now
      obtain ⟨hanswers, hrest⟩ := ih hstep
      rw [List.filter_cons_of_pos (show s.hasId id = true from decide_eq_true hid)]
      simp only [Accumulator.acceptAll, ← hanswer]
      cases hfirst : (a.accept s.record now).1 with
      | none => exact ⟨hanswers, hrest⟩
      | some total =>
        have hsame : Snapshot.hasId id ⟨s.origin, total⟩ = true := decide_eq_true ((htotal total hfirst).trans hid)
        refine ⟨?_, hrest⟩
        rw [List.filter_cons_of_pos hsame, hanswers]
    · obtain ⟨hanswers, hrest⟩ := ih (h.accept_other hid now)
      have hneg : ¬ s.hasId id = true := fun heq => hid (of_decide_eq_true heq)
      rw [List.filter_cons_of_neg hneg]
      simp only [Accumulator.acceptAll]
      cases hfirst : (a.accept s.record now).1 with
      | none => exact ⟨hanswers, hrest⟩
      | some total =>
        have hother : ¬ Snapshot.hasId id ⟨s.origin, total⟩ = true := fun heq =>
          hid ((htotal total hfirst).symm.trans (of_decide_eq_true heq))
        refine ⟨?_, hrest⟩
        rw [List.filter_cons_of_neg hother, hanswers]

/-- The answers to batches that come one after another. -/
def answersTo (a : Accumulator α) : List (List (Snapshot α) × Instant) → List (List (Snapshot α))
  | [] => []
  | batch :: rest =>
    let r := a.acceptBatch batch.1 batch.2
    r.1.snapshots :: answersTo r.2 rest

theorem AlikeAt.answersTo (h : a.AlikeAt id b) (batches : List (List (Snapshot α) × Instant)) :
    (a.answersTo batches).map (List.filter (Snapshot.hasId id)) =
      b.answersTo (batches.map fun x => (x.1.filter (Snapshot.hasId id), x.2)) := by
  induction batches generalizing a b with
  | nil => rfl
  | cons batch rest ih =>
    obtain ⟨hanswers, hrest⟩ := (h.evictIfDue batch.2).acceptAll batch.2 batch.1
    rw [List.map_cons, Accumulator.answersTo, Accumulator.answersTo, List.map_cons]
    exact congrArg₂ List.cons hanswers (ih hrest)

end Accumulator

/-! ### Snapshots and rows -/

namespace Ledger
variable {α : Type} [Rollup α] {l : Ledger α} {now : Instant}

/-- What a ledger holds is held under its own id. -/
structure Keyed (l : Ledger α) : Prop where
  buffer : ∀ key b, l.buffer.get? key = some b → Rollup.id b = key.2
  baselines : ∀ key b, l.baselines.get? key = some b → Rollup.id b = key.2

theorem Keyed.acceptBatch (h : l.Keyed) (batch : List (Snapshot α)) (now : Instant) :
    (l.acceptBatch batch now).2.Keyed := by
  refine List.foldlRecOn (motive := Keyed) batch _ h fun l hl s _ => ?_
  unfold accept
  split
  · exact hl
  · refine ⟨fun key b hb => ?_, hl.baselines⟩
    rw [Dict.get?_set] at hb
    split at hb
    · rename_i hkey
      cases hb
      rw [hkey]
    · exact hl.buffer key b hb

theorem Keyed.flush (h : l.Keyed) (store : Store) (now : Instant) : (l.flush store now).ledger.Keyed := by
  cases hretention : l.retention? with
  | none =>
    rw [Ledger.flush, hretention]
    exact h
  | some d =>
    obtain ⟨_, _, _, _, -, hwrite, -⟩ := progress_write (l.nodup_due now d) l.batchSize l.baselines store
    rw [flush_eq hretention]
    refine ⟨fun key b hb => (by cases hb), fun key b hb => ?_⟩
    have hkept := Writing.get?_of_keep hb
    rw [hwrite.kept] at hkept
    rcases mem_of_baselinesAfter (l.nodup_due now d) hkept with ⟨hdue, -⟩ | hbase
    · exact h.buffer key b (mem_live.1 hdue).1
    · exact h.baselines key b hbase

/-- The row of an id is made of the snapshots of that id. -/
theorem Keyed.freshRow (h : l.Keyed) (d : Duration) (stored : Option Json) (id : String) :
    freshRow? ((l.due now d).filter fun e => decide (Rollup.id e.2 = id)) l.baselines stored id =
      freshRow? (l.due now d) l.baselines stored id := by
  have hentries : entriesOf ((l.due now d).filter fun e => decide (Rollup.id e.2 = id)) id =
      entriesOf (l.due now d) id := by
    rw [entriesOf, List.filter_filter]
    refine List.filter_congr fun e he => ?_
    rw [h.buffer e.1 e.2 (mem_live.1 he).1, Bool.and_self]
  rw [freshRow?, hentries, freshRow?]

/-- However a flush ends, a row stays as it was or is made of snapshots of its own id. -/
theorem Keyed.row_flush (h : l.Keyed) (store : Store) (now : Instant) (id : String) :
    ((l.flush store now).store.table (Rollup.tag α)).get? id = (store.table (Rollup.tag α)).get? id ∨
      ∃ d row, l.retention? = some d ∧
        freshRow? ((l.due now d).filter fun e => decide (Rollup.id e.2 = id)) l.baselines (storedRow α store id) id =
          some row ∧
        ((l.flush store now).store.table (Rollup.tag α)).get? id = some (Rollup.encode row) := by
  cases hretention : l.retention? with
  | none =>
    rw [Ledger.flush, hretention]
    exact Or.inl rfl
  | some d =>
    obtain ⟨_, _, rows, _, -, hwrite, -⟩ := progress_write (l.nodup_due now d) l.batchSize l.baselines store
    rw [flush_eq hretention]
    dsimp only
    rw [hwrite.table]
    rcases Table.get?_upsert (store.table (Rollup.tag α)) (rows.map fun r => (r.1, Rollup.encode r.2)) id with
      ⟨row, hrow, hget⟩ | ⟨-, hget⟩
    · obtain ⟨r, hr, heq⟩ := List.mem_map.1 hrow
      cases heq
      exact Or.inr ⟨d, r.2, rfl, (h.freshRow d _ _).trans (hwrite.fresh r hr), hget⟩
    · exact Or.inl hget

/-- What is buffered under an id comes from its own snapshots. -/
theorem buffered_filter (l : Ledger α) (batch : List (Snapshot α)) (now : Instant) (origin id : String) :
    (l.acceptBatch batch now).2.buffered? origin id =
      (l.acceptBatch (batch.filter (Snapshot.hasId id)) now).2.buffered? origin id := by
  have htakes : LedgerRun.takes l.window now (batch.filter (Snapshot.hasId id)) (origin, id) =
      LedgerRun.takes l.window now batch (origin, id) := by
    rw [LedgerRun.takes, List.filter_filter, LedgerRun.takes]
    refine congrArg (List.map _) (List.filter_congr fun s _ => ?_)
    by_cases hid : Rollup.id s.record = id
    · simp only [Snapshot.hasId, hid, decide_true, Bool.and_true]
    · simp only [Snapshot.hasId, hid, decide_false, Bool.and_false, Prod.mk.injEq, and_false]
  rw [buffered?, LedgerRun.buffer_acceptBatch, buffered?, LedgerRun.buffer_acceptBatch, htakes]

theorem keyed_run (r : LedgerRun α) (h : r.ledger.Keyed) (events : List (LedgerEvent α)) :
    (r.run events).ledger.Keyed := by
  refine List.foldlRecOn (motive := fun r : LedgerRun α => r.ledger.Keyed) events _ h fun r hr e _ => ?_
  cases e with
  | accept batch now => exact hr.acceptBatch batch now
  | flush now => exact hr.flush r.store now
  | elsewhere other => exact hr

end Ledger

/-! ### Shares of a batch -/

namespace Dispatcher
variable {α : Type} [Rollup α]

/-- Of snapshots that are treated alike either all are picked or none. -/
theorem filter_hasId {q : Snapshot α → Bool} {id : String} {picked : Prop} [Decidable picked]
    (h : ∀ s : Snapshot α, Rollup.id s.record = id → (q s = true ↔ picked)) (batch : List (Snapshot α)) :
    (batch.filter q).filter (Snapshot.hasId id) = if picked then batch.filter (Snapshot.hasId id) else [] := by
  rw [List.filter_filter]
  split
  · rename_i hpicked
    refine List.filter_congr fun s _ => ?_
    by_cases hid : Rollup.id s.record = id
    · rw [(h s hid).2 hpicked, Bool.and_true]
    · simp only [Snapshot.hasId, hid, decide_false, Bool.false_and]
  · rename_i hpicked
    refine List.filter_eq_nil_iff.2 fun s _ hs => hpicked ?_
    obtain ⟨hid, hq⟩ := Bool.and_eq_true_iff.1 hs
    exact (h s (of_decide_eq_true hid)).1 hq

theorem foreignOwner_of_id {hash : PointHash} {d : Dispatcher} {ring : HashRing} {s t : Snapshot α}
    (h : Rollup.id s.record = Rollup.id t.record) : d.foreignOwner? hash ring s = d.foreignOwner? hash ring t := by
  rw [foreignOwner?, Rollup.routingKey, h, foreignOwner?, Rollup.routingKey]

/-- All records of an id stay, or all go to one node, each as often as it came and in order. -/
theorem split_hasId (hash : PointHash) (d : Dispatcher) (ring : HashRing) (batch : List (Snapshot α))
    (t : Snapshot α) :
    (d.split hash ring batch).kept.filter (Snapshot.hasId (Rollup.id t.record)) =
        (if d.foreignOwner? hash ring t = none then batch.filter (Snapshot.hasId (Rollup.id t.record)) else []) ∧
      ∀ node, (lettersTo node (letters (d.bundles hash ring batch))).filter (Snapshot.hasId (Rollup.id t.record)) =
        if d.foreignOwner? hash ring t = some node then batch.filter (Snapshot.hasId (Rollup.id t.record)) else [] := by
  constructor
  · rw [split_eq]
    exact filter_hasId (fun s hid => by rw [foreignOwner_of_id hid, Option.isNone_iff_eq_none]) batch
  · intro node
    rw [lettersTo_bundles]
    exact filter_hasId (fun s hid => by rw [foreignOwner_of_id hid, decide_eq_true_eq]) batch

end Dispatcher

/-! ### Names -/

namespace NameRegistry

/-- Nothing changes that is known or stored about a name. -/
structure Naming.Untouched (space : NameSpace) (name : String) (n m : Naming) : Prop where
  known : m.registry.known? space name = n.registry.known? space name
  stored : m.names.find? space.name name = n.names.find? space.name name

namespace Naming
variable {space : NameSpace} {name other : String}

theorem known_remember (h : other ≠ name) (r : NameRegistry) (id : Int32) :
    (r.remember space name id).2.known? space other = r.known? space other := by
  rw [known?_remember, if_neg fun heq => h (Prod.mk.inj heq.1).2]

theorem untouched_resolve (h : other ≠ name) (n : Naming) (space : NameSpace) :
    n.Untouched space other (n.resolve space name).2 := by
  obtain ⟨hcontents, -⟩ := n.store.findName_spec space.name name
  have hnames : ∀ r, n.Untouched space other ⟨r, (n.store.findName space.name name).2⟩ ↔
      r.known? space other = n.registry.known? space other := fun r =>
    ⟨fun hr => hr.known, fun hr => ⟨hr, by rw [names, hcontents, names]⟩⟩
  unfold resolve
  split
  · exact ⟨rfl, rfl⟩
  · split
    · rename_i hfound
      rw [hfound] at hnames
      exact (hnames n.registry).2 rfl
    · rename_i hfound
      rw [hfound] at hnames
      exact (hnames n.registry).2 rfl
    · rename_i hfound
      rw [hfound] at hnames
      split
      · exact (hnames n.registry).2 rfl
      · exact (hnames _).2 (known_remember h n.registry _)

theorem untouched_register (h : other ≠ name) (n : Naming) (space : NameSpace) :
    n.Untouched space other (n.register space name).2 := by
  obtain ⟨hnames, -⟩ := n.store.createName_spec space.name name
  have hstored : (n.store.createName space.name name).2.contents.names.find? space.name other =
      n.names.find? space.name other := by
    rcases hnames with heq | heq
    · rw [heq, names]
    · rw [heq, NameTable.find?_create, if_neg fun hkey => h (Prod.mk.inj hkey).2, names]
  unfold register
  split
  · rename_i hcreated
    rw [hcreated] at hstored
    exact ⟨rfl, hstored⟩
  · rename_i hcreated
    rw [hcreated] at hstored
    split
    · exact ⟨rfl, hstored⟩
    · exact ⟨known_remember h n.registry _, hstored⟩

/-- Asking for a name leaves all other names of its space alone. -/
theorem untouched_obtain (h : other ≠ name) (n : Naming) : n.Untouched space other (n.obtain space name).2 := by
  have hresolve := untouched_resolve h n space
  unfold obtain
  split
  · rename_i hfound
    rw [hfound] at hresolve
    exact hresolve
  · rename_i hfound
    rw [hfound] at hresolve
    exact hresolve
  · rename_i m hfound
    rw [hfound] at hresolve
    have hregister := untouched_register h m space
    exact ⟨hregister.known.trans hresolve.known, hregister.stored.trans hresolve.stored⟩

end Naming

/-- The application and the name that are asked for, with the space that they are asked for in. -/
def Request.scoped? : Request → Option (NameSpace × Int32 × String)
  | .serviceId application name => some (.serviceName, application, name)
  | .instanceId application name => some (.agentInstance, application, name)
  | .resolve _ _ | .obtain _ _ | .applicationId _ | .addressId _ => none

theorem Request.of_scoped {q : Request} {space : NameSpace} {application : Int32} {name : String}
    (h : q.scoped? = some (space, application, name)) : q.space = space ∧ q.name = scopedName application name := by
  cases q with
  | serviceId _ _ | instanceId _ _ =>
    cases h
    exact ⟨rfl, rfl⟩
  | resolve _ _ | obtain _ _ | applicationId _ | addressId _ => cases h

end NameRegistry

namespace Registration
variable {s : Registration} {c d : Nat × NameRegistry.Call} {space : NameSpace} {a b : Int32} {v w : String}

/-- Who asks for the same name of the same application gets the same id, and nobody else does. -/
theorem Converged.ids_apart (h : s.Converged) (hc : c ∈ s.calls) (hd : d ∈ s.calls)
    (hcs : c.2.request.scoped? = some (space, a, v)) (hds : d.2.request.scoped? = some (space, b, w)) {i j : Int32}
    (hi : c.2.progress = .answered (.ok (some i))) (hj : d.2.progress = .answered (.ok (some j))) :
    i = j ↔ a = b ∧ v = w := by
  obtain ⟨hcspace, hcname⟩ := NameRegistry.Request.of_scoped hcs
  obtain ⟨hdspace, hdname⟩ := NameRegistry.Request.of_scoped hds
  constructor
  · rintro rfl
    have hfirst := h.stored c hc i hi
    have hsecond := h.stored d hd i hj
    rw [hcspace, hcname] at hfirst
    rw [hdspace, hdname] at hsecond
    exact NameRegistry.scopedName_eq_iff.1 (h.apart _ _ _ i hfirst hsecond)
  · rintro ⟨rfl, rfl⟩
    exact (h.same c hc d hd (hcspace.trans hdspace.symm) (hcname.trans hdname.symm) i j hi hj).1

end Registration

/-! ### Subjects side by side -/

namespace RecordKind

theorem about_record (k : RecordKind) (r : k.Carrier) :
    (fun s : Snapshot k.Carrier => k.about r s.record) = Snapshot.hasId (Rollup.id r) := by
  funext s
  rw [about_eq]
  rfl

/-- Ids are equal exactly if buckets and subjects are, and scoped names exactly if applications and names are. So
nothing that happens to other records tells in what happens to those about one subject in one bucket. They get the
answers of an accumulator that took no others; what a ledger holds under their id is theirs, and a flush makes their
row of nothing else; a dispatcher keeps all of them or sends all of them to one node. And of two scoped names, asking
for one leaves all that is known or stored about the other, and they never get one id. -/
theorem subjects_apart (k : RecordKind) (r : k.Carrier) :
    (∀ a : k.Carrier, Rollup.id a = Rollup.id r ↔ Rollup.bucket a = Rollup.bucket r ∧ k.subject a = k.subject r) ∧
    (∀ (a b : Int32) (s t : String), NameRegistry.scopedName a s = NameRegistry.scopedName b t ↔ a = b ∧ s = t) ∧
    (∀ (window : Duration) (batches : List (List (Snapshot k.Carrier) × Instant)),
      (Accumulator.answersTo { window } batches).map (List.filter fun s => k.about r s.record) =
        Accumulator.answersTo { window } (batches.map fun x => (x.1.filter fun s => k.about r s.record, x.2))) ∧
    (∀ (pipeline : PipelineId) (window : Duration) (batchSize : Nat) (start : Store)
        (events : List (LedgerEvent k.Carrier)),
      let l := ((LedgerRun.create pipeline window batchSize start).run events).ledger
      (∀ batch now origin, (l.acceptBatch batch now).2.buffered? origin (Rollup.id r) =
        (l.acceptBatch (batch.filter fun s => k.about r s.record) now).2.buffered? origin (Rollup.id r)) ∧
      (∀ origin b, l.baselines.get? (origin, Rollup.id r) = some b → k.about r b = true) ∧
      ∀ store now,
        ((l.flush store now).store.table k.tag).get? (Rollup.id r) = (store.table k.tag).get? (Rollup.id r) ∨
        ∃ d row, l.retention? = some d ∧
          Ledger.freshRow? ((l.due now d).filter fun e => k.about r e.2) l.baselines
            (Ledger.storedRow k.Carrier store (Rollup.id r)) (Rollup.id r) = some row ∧
          ((l.flush store now).store.table k.tag).get? (Rollup.id r) = some (Rollup.encode row)) ∧
    (∀ (hash : PointHash) (d : Dispatcher) (ring : HashRing) (batch : List (Snapshot k.Carrier)),
      let own := batch.filter fun s => k.about r s.record
      let owner := d.foreignOwner? hash ring (⟨d.here, r⟩ : Snapshot k.Carrier)
      ((d.split hash ring batch).kept.filter fun s => k.about r s.record) = (if owner = none then own else []) ∧
      ∀ node, ((Dispatcher.lettersTo node (Dispatcher.letters (d.bundles hash ring batch))).filter
        fun s => k.about r s.record) = if owner = some node then own else []) ∧
    (∀ (n : NameRegistry.Naming) (a b : Int32) (s t : String), (b, t) ≠ (a, s) →
      n.Untouched .serviceName (NameRegistry.scopedName b t) (n.serviceId a s).2 ∧
      n.Untouched .agentInstance (NameRegistry.scopedName b t) (n.instanceId a s).2) ∧
    ∀ moves : List RegistrationMove,
      (∀ space, ((Registration.run moves).store.contents.nameSpace space).length < 2147483648) →
      ∀ c ∈ (Registration.run moves).calls, ∀ d ∈ (Registration.run moves).calls, ∀ space a b v w,
        c.2.request.scoped? = some (space, a, v) → d.2.request.scoped? = some (space, b, w) → ∀ i j,
        c.2.progress = .answered (.ok (some i)) → d.2.progress = .answered (.ok (some j)) →
        (i = j ↔ a = b ∧ v = w) := by
  have hnames : ∀ (a b : Int32) (s t : String),
      NameRegistry.scopedName a s = NameRegistry.scopedName b t ↔ a = b ∧ s = t := fun _ _ _ _ =>
    NameRegistry.scopedName_eq_iff
  have hentries : (fun e : Ledger.Entry k.Carrier => k.about r e.2) =
      fun e => decide (Rollup.id e.2 = Rollup.id r) := by
    funext e
    rw [about_eq]
  rw [about_record, hentries]
  refine ⟨fun a => k.id_eq_iff a r, hnames, fun window batches => ?_, fun pipeline window batchSize start events => ?_,
    fun hash d ring batch => d.split_hasId hash ring batch ⟨d.here, r⟩, fun n a b s t hne => ?_,
    fun moves hfew c hc d hd space a b v w hcs hds i j hi hj => ?_⟩
  · exact (Accumulator.alikeAt_start window (Rollup.id r)).answersTo batches
  · have hkeyed : (((LedgerRun.create pipeline window batchSize start).run events).ledger : Ledger k.Carrier).Keyed :=
      Ledger.keyed_run _ ⟨(fun _ _ h => by cases h), fun _ _ h => by cases h⟩ events
    refine ⟨fun batch now origin => Ledger.buffered_filter _ batch now origin _, fun origin b hb => ?_,
      fun store now => hkeyed.row_flush store now _⟩
    rw [about_eq]
    exact decide_eq_true (hkeyed.baselines _ b hb)
  · have hother : NameRegistry.scopedName b t ≠ NameRegistry.scopedName a s := by
      intro heq
      obtain ⟨happlication, hname⟩ := (hnames b a t s).1 heq
      exact hne (Prod.ext happlication hname)
    exact ⟨NameRegistry.Naming.untouched_obtain hother n, NameRegistry.Naming.untouched_obtain hother n⟩
  · exact ((Registration.faithful_run moves).converged hfew).ids_apart hc hd hcs hds hi hj

/-- Two services whose scoped names differ only in where the first underscore stands. -/
def lookalikes : List RegistrationMove :=
  [.make 0 (.serviceId 1 "2_a"), .make 1 (.serviceId 12 "a"), .step 0, .step 0, .step 1, .step 1, .step 1, .step 1,
    .step 0, .step 0]

theorem subjects_apart_lookalikes :
    let r : CallSummary := ⟨-1, 2, ⟨201801011234⟩, 0, 0, 0, 0, 0, 0, 0⟩
    let run := Registration.run lookalikes
    Rollup.id { r with behind := -2 } ≠ Rollup.id r ∧
      NameRegistry.scopedName 1 "2_a" ≠ NameRegistry.scopedName 12 "a" ∧
      (∀ space, (run.store.contents.nameSpace space).length < 2147483648) ∧
      (∃ c ∈ run.calls, ∃ d ∈ run.calls, ∃ i j, c.2.progress = .answered (.ok (some i)) ∧
        d.2.progress = .answered (.ok (some j)) ∧ c.2.request = .serviceId 1 "2_a" ∧ d.2.request = .serviceId 12 "a" ∧
        i ≠ j) ∧
      (⟨{}, .fresh⟩ : NameRegistry.Naming).Untouched .serviceName (NameRegistry.scopedName 12 "a")
        (NameRegistry.Naming.serviceId ⟨{}, .fresh⟩ 1 "2_a").2 := by
  intro r run
  have hfew : ∀ space, (run.store.contents.nameSpace space).length < 2147483648 := by
    intro space
    have htotal : run.names.ids.toList.length = 2 := by decide +kernel
    have hle := List.length_filterMap_le
      (fun e : (String × String) × Int32 => if e.1.1 = space then some (e.1.2, e.2) else none) run.names.ids.toList
    exact Nat.lt_of_le_of_lt (hle.trans_eq htotal) (by decide)
  obtain ⟨hid, hscoped, -, -, -, hnames, hids⟩ := subjects_apart .callSummary r
  refine ⟨fun heq => ?_, fun heq => ?_, hfew, ?_, (hnames _ 1 12 "2_a" "a" (by decide)).1⟩
  · exact absurd ((hid _).1 heq).2 (by decide)
  · exact absurd ((hscoped 1 12 "2_a" "a").1 heq).1 (by decide)
  · obtain ⟨c, hc, hcr, hci⟩ : ∃ c ∈ run.calls, c.2.request = .serviceId 1 "2_a" ∧
        c.2.progress = .answered (.ok (some 2)) := ⟨_, List.mem_cons_self, rfl, rfl⟩
    obtain ⟨d, hd, hdr, hdi⟩ : ∃ d ∈ run.calls, d.2.request = .serviceId 12 "a" ∧
        d.2.progress = .answered (.ok (some 1)) := ⟨_, List.mem_cons_of_mem _ List.mem_cons_self, rfl, rfl⟩
    refine ⟨c, hc, d, hd, 2, 1, hci, hdi, hcr, hdr, fun heq => ?_⟩
    have happlication := (hids lookalikes hfew c hc d hd .serviceName 1 12 "2_a" "a" (by rw [hcr]; rfl)
      (by rw [hdr]; rfl) 2 1 hci hdi).1 heq
    exact absurd happlication.1 (by decide)

end RecordKind
end TraceRollup
