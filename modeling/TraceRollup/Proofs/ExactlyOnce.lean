import TraceRollup.Proofs.Statistics

/-!
# Exactly once

A ledger that alone writes its table takes in snapshots and is flushed, in any order and with
any faults of the store. `LedgerRun` keeps what was taken in and what was written beside the
ledger. If the snapshots of every origin are running totals, then in every state each row is
the merge of the last snapshots written (`LedgerRun.row_eq_mergeAll`).
-/

namespace TraceRollup

/-! ### Chains -/

/-- Snapshots of one key, each of which follows those before it. -/
structure Account.Chain {α V : Type} [Rollup α] [AddCommMonoid V] (A : Account α V) (id : String)
    (xs : List α) : Prop where
  of : ∀ x ∈ xs, A.Of id x
  again : ∀ x ∈ xs, A.Follows x x
  follows : xs.Pairwise A.Follows

theorem Account.Chain.sublist {α V : Type} [Rollup α] [AddCommMonoid V] {A : Account α V} {id : String}
    {xs ys : List α} (h : A.Chain id ys) (hs : xs.Sublist ys) : A.Chain id xs where
  of x hx := h.of x (hs.subset hx)
  again x hx := h.again x (hs.subset hx)
  follows := h.follows.sublist hs

/-- Snapshots that are totals of more and more of some calls, or of as many as before. -/
def Totals {α : Type} [Rollup α] (calls snapshots : List α) : Prop :=
  ∃ counts : List Nat, counts.Pairwise (· ≤ ·) ∧ (∀ n ∈ counts, 1 ≤ n ∧ n ≤ calls.length) ∧
    snapshots.map some = counts.map fun n => Rollup.mergeAll (calls.take n)

theorem Totals.grown {α : Type} [Rollup α] {calls snapshots : List α} (h : Totals calls snapshots) :
    (∀ x ∈ snapshots, Grown calls x x) ∧ snapshots.Pairwise (Grown calls) := by
  obtain ⟨counts, hmono, hbounds, hsnapshots⟩ := h
  induction counts generalizing snapshots with
  | nil =>
    have hnil : snapshots = [] := List.map_eq_nil_iff.1 hsnapshots
    rw [hnil]
    exact ⟨fun x hx => absurd hx List.not_mem_nil, List.Pairwise.nil⟩
  | cons n counts ih =>
    cases snapshots with
    | nil => cases hsnapshots
    | cons s rest =>
      simp only [List.map_cons, List.cons.injEq] at hsnapshots
      obtain ⟨hs, hrest⟩ := hsnapshots
      obtain ⟨hn, hmono⟩ := List.pairwise_cons.1 hmono
      have hbn := hbounds n (List.mem_cons_self ..)
      have hbrest := fun m hm => hbounds m (List.mem_cons_of_mem n hm)
      obtain ⟨hagain, hpair⟩ := ih hmono hbrest hrest
      refine ⟨?_, List.pairwise_cons.2 ⟨?_, hpair⟩⟩
      · intro x hx
        rcases List.mem_cons.1 hx with rfl | hx
        · exact ⟨n, n, hbn.1, Nat.le_refl n, hbn.2, hs.symm, hs.symm⟩
        · exact hagain x hx
      · intro x hx
        have hxs : some x ∈ counts.map fun n => Rollup.mergeAll (calls.take n) := by
          rw [← hrest]
          exact List.mem_map_of_mem hx
        obtain ⟨m, hm, hxm⟩ := List.mem_map.1 hxs
        exact ⟨n, m, hbn.1, hn m hm, (hbrest m hm).2, hs.symm, hxm⟩

theorem Totals.chain {α V : Type} [Rollup α] [AddCommMonoid V] [LawfulKey α] {A : Account α V} {id : String}
    {calls snapshots : List α} (h : Totals calls snapshots) (hc : ∀ c ∈ calls, A.Of id c)
    (hf : ∀ base now, Grown calls base now → A.Follows base now) : A.Chain id snapshots := by
  obtain ⟨hagain, hpair⟩ := h.grown
  exact ⟨fun x hx => ((hagain x hx).cases hc).1, fun x hx => hf x x (hagain x hx), hpair.imp fun hg => hf _ _ hg⟩

/-- What stands and what is buffered of each origin come from a chain, in this order. -/
def Trails {α : Type} (W : Standing α) (buffer : Dict OriginKey α) (trail : OriginKey → List α) : Prop :=
  ∀ k, ((W k).toList ++ (buffer.get? k).toList).Sublist (trail k)

namespace Trails
variable {α : Type} {W : Standing α} {buffer : Dict OriginKey α} {trail : OriginKey → List α}

theorem mono {more : OriginKey → List α} (h : Trails W buffer trail) (hs : ∀ k, (trail k).Sublist (more k)) :
    Trails W buffer more := fun k => (h k).trans (hs k)

theorem set (h : Trails W buffer trail) (k : OriginKey) (b : α) :
    Trails W (buffer.set k b) fun j => if j = k then trail j ++ [b] else trail j := by
  intro j
  simp only [Dict.get?_set]
  by_cases hj : j = k
  · rw [if_pos hj, if_pos hj]
    exact ((List.sublist_append_left _ _).trans (h j)).append (List.Sublist.refl [b])
  · rw [if_neg hj, if_neg hj]
    exact h j

theorem advance (h : Trails W buffer trail) (ids : List String) :
    Trails (W.advance buffer.toList ids) Dict.empty trail := by
  intro k
  rw [Dict.get?_empty, Option.toList_none, List.append_nil]
  unfold Standing.advance
  split
  · have hk := h k
    have hget : Entries.find k buffer.toList = buffer.get? k := rfl
    rw [hget]
    cases hb : buffer.get? k with
    | none =>
      rw [hb] at hk
      exact (List.sublist_append_left _ _).trans hk
    | some b =>
      rw [hb] at hk
      exact (List.sublist_append_right _ _).trans hk
  · exact (List.sublist_append_left _ _).trans (h k)

variable {V : Type} [Rollup α] [AddCommMonoid V] {A : Account α V}

theorem ready (h : Trails W buffer trail) (hc : ∀ k, A.Chain k.2 (trail k)) : Ready A W buffer := by
  have chain : ∀ k b, buffer.get? k = some b → A.Chain k.2 ((W k).toList ++ [b]) := by
    intro k b hb
    have hk := h k
    rw [hb] at hk
    exact (hc k).sublist hk
  constructor
  · exact fun k b hb => (chain k b hb).of b (List.mem_append_right _ (List.mem_singleton_self b))
  · intro k b w hb hw
    have hf := (chain k b hb).follows
    rw [hw] at hf
    exact (List.pairwise_append.1 hf).2.2 w (List.mem_singleton_self w) b (List.mem_singleton_self b)
  · exact fun k b hb => (chain k b hb).again b (List.mem_append_right _ (List.mem_singleton_self b))

end Trails

/-! ### Runs of a ledger -/

/-- What happens to a ledger and its store. -/
inductive LedgerEvent (α : Type)
  | accept (batch : List (Snapshot α)) (now : Instant)
  | flush (now : Instant)
  /-- Others use the store. They may change all of it but the table. -/
  | elsewhere (store : Store)

def LedgerEvent.flushTime? {α : Type} : LedgerEvent α → Option Instant
  | .flush now => some now
  | .accept _ _ | .elsewhere _ => none

/-- A ledger with its store, the snapshots that it took in and those written last. -/
structure LedgerRun (α : Type) where
  ledger : Ledger α
  store : Store
  taken : OriginKey → List α := fun _ => []
  written : Standing α := fun _ => none

/-- Another store with the table of this one. -/
def Store.withTableOf (s other : Store) (table : String) : Store :=
  { other with contents := { other.contents with tables := other.contents.tables.set table (s.table table) } }

theorem Store.table_withTableOf (s other : Store) (table : String) :
    (s.withTableOf other table).table table = s.table table := by
  simp only [withTableOf, Store.table, Contents.table, Dict.get?_set_self, Option.getD_some]

namespace LedgerRun
variable {α : Type} [Rollup α]

def create (pipeline : PipelineId) (window : Duration) (batchSize : Nat) (store : Store) : LedgerRun α :=
  { ledger := .create pipeline window batchSize, store }

/-- The snapshots of a batch that are of an origin and id, and not late. -/
def takes (window : Duration) (now : Instant) (batch : List (Snapshot α)) (k : OriginKey) : List α :=
  (batch.filter fun s => !(Rollup.bucket s.record).isExpired now window && decide ((s.origin, Rollup.id s.record) = k)).map
    Snapshot.record

def step (r : LedgerRun α) : LedgerEvent α → LedgerRun α
  | .accept batch now =>
    { r with
      ledger := (r.ledger.acceptBatch batch now).2
      taken := fun k => r.taken k ++ takes r.ledger.window now batch k }
  | .flush now =>
    let f := r.ledger.flush r.store now
    { r with
      ledger := f.ledger
      store := f.store
      written := r.written.advance r.ledger.buffer.toList (writesIn (Rollup.tag α) (f.store.callsSince r.store)) }
  | .elsewhere other => { r with store := r.store.withTableOf other (Rollup.tag α) }

def run (r : LedgerRun α) (events : List (LedgerEvent α)) : LedgerRun α := events.foldl step r

/-! ### Taking snapshots in -/

theorem window_acceptBatch (l : Ledger α) (batch : List (Snapshot α)) (now : Instant) :
    (l.acceptBatch batch now).2.window = l.window ∧ (l.acceptBatch batch now).2.batchSize = l.batchSize ∧
      (l.acceptBatch batch now).2.baselines = l.baselines := by
  unfold Ledger.acceptBatch
  induction batch generalizing l with
  | nil => exact ⟨rfl, rfl, rfl⟩
  | cons s rest ih =>
    rw [List.foldl_cons]
    have h := ih (Ledger.accept now l s)
    have hs : (Ledger.accept now l s).window = l.window ∧ (Ledger.accept now l s).batchSize = l.batchSize ∧
        (Ledger.accept now l s).baselines = l.baselines := by
      unfold Ledger.accept
      split <;> exact ⟨rfl, rfl, rfl⟩
    rw [hs.1, hs.2.1, hs.2.2] at h
    exact h

theorem trails_acceptBatch {W : Standing α} {l : Ledger α} {trail : OriginKey → List α} (h : Trails W l.buffer trail)
    (batch : List (Snapshot α)) (now : Instant) :
    Trails W (l.acceptBatch batch now).2.buffer fun k => trail k ++ takes l.window now batch k := by
  unfold Ledger.acceptBatch
  induction batch generalizing l trail with
  | nil => exact h.mono fun k => List.sublist_append_left _ _
  | cons s rest ih =>
    rw [List.foldl_cons]
    cases hlate : (Rollup.bucket s.record).isExpired now l.window with
    | true =>
      have hs : Ledger.accept now l s = l := by
        rw [Ledger.accept, if_pos hlate]
      rw [hs]
      refine (ih h).mono fun k => ?_
      simp only [takes, List.filter_cons, hlate, Bool.not_true, Bool.false_and, if_neg Bool.false_ne_true]
      exact List.Sublist.refl _
    | false =>
      have hs : Ledger.accept now l s =
          { l with buffer := l.buffer.set (s.origin, Rollup.id s.record) s.record } := by
        rw [Ledger.accept, if_neg (by rw [hlate]; exact Bool.false_ne_true)]
      rw [hs]
      refine (ih (h.set _ _)).mono fun k => ?_
      simp only [takes, List.filter_cons, hlate, Bool.not_false, Bool.true_and]
      by_cases hk : (s.origin, Rollup.id s.record) = k
      · rw [if_pos hk.symm, if_pos (decide_eq_true hk), List.map_cons, List.append_assoc, List.singleton_append]
      · rw [if_neg (Ne.symm hk), if_neg (by rw [decide_eq_true_eq]; exact hk)]

theorem taken_step (r : LedgerRun α) (e : LedgerEvent α) (k : OriginKey) : r.taken k <+: (r.step e).taken k := by
  cases e with
  | accept batch now => exact List.prefix_append _ _
  | flush now => exact List.prefix_refl _
  | elsewhere other => exact List.prefix_refl _

theorem taken_run (r : LedgerRun α) (events : List (LedgerEvent α)) (k : OriginKey) :
    r.taken k <+: (r.run events).taken k := by
  induction events generalizing r with
  | nil => exact List.prefix_refl _
  | cons e rest ih => exact (r.taken_step e k).trans (ih (r.step e))

/-! ### Flushing -/

/-- How long baselines are remembered. -/
def retention (l : Ledger α) : Duration := l.retention?.getD .zero

/-- Without a bound for its memory a ledger is never flushed. -/
theorem step_flush_none {r : LedgerRun α} {now : Instant} (h : r.ledger.retention? = none) :
    r.step (.flush now) = r := by
  have hflush : r.ledger.flush r.store now = ⟨[], some .overflow, r.ledger, r.store⟩ := by
    rw [Ledger.flush, h]
  have hcalls : r.store.callsSince r.store = [] := by
    rw [Store.callsSince, Nat.sub_self, List.take_zero]
  simp only [step, hflush, hcalls]
  rw [show writesIn (Rollup.tag α) [] = [] from rfl, Standing.advance_nil]

theorem ledger_flush (store : Store) (now : Instant) {l : Ledger α} {d : Duration} (h : l.retention? = some d) :
    (l.flush store now).ledger.buffer = Dict.empty ∧ (l.flush store now).ledger.window = l.window ∧
      (l.flush store now).ledger.batchSize = l.batchSize := by
  rw [Ledger.flush, h]
  exact ⟨rfl, rfl, rfl⟩

theorem settings_step (r : LedgerRun α) (e : LedgerEvent α) :
    (r.step e).ledger.window = r.ledger.window ∧ (r.step e).ledger.batchSize = r.ledger.batchSize := by
  cases e with
  | accept batch now =>
    obtain ⟨hwindow, hbatch, -⟩ := window_acceptBatch r.ledger batch now
    exact ⟨hwindow, hbatch⟩
  | elsewhere other => exact ⟨rfl, rfl⟩
  | flush now =>
    cases hret : r.ledger.retention? with
    | none =>
      rw [step_flush_none hret]
      exact ⟨rfl, rfl⟩
    | some d => exact (ledger_flush r.store now hret).2

theorem settings_run (r : LedgerRun α) (events : List (LedgerEvent α)) :
    (r.run events).ledger.window = r.ledger.window ∧ (r.run events).ledger.batchSize = r.ledger.batchSize := by
  induction events generalizing r with
  | nil => exact ⟨rfl, rfl⟩
  | cons e rest ih =>
    obtain ⟨hwindow, hbatch⟩ := r.settings_step e
    exact ⟨(ih (r.step e)).1.trans hwindow, (ih (r.step e)).2.trans hbatch⟩

theorem trails_step {r : LedgerRun α} (h : Trails r.written r.ledger.buffer r.taken) (e : LedgerEvent α) :
    Trails (r.step e).written (r.step e).ledger.buffer (r.step e).taken := by
  cases e with
  | accept batch now => exact trails_acceptBatch h batch now
  | elsewhere other => exact h
  | flush now =>
    cases hret : r.ledger.retention? with
    | none =>
      rw [step_flush_none hret]
      exact h
    | some d =>
      simp only [step, (ledger_flush _ _ hret).1]
      exact h.advance _

theorem trails_run {r : LedgerRun α} (h : Trails r.written r.ledger.buffer r.taken) (events : List (LedgerEvent α)) :
    Trails (r.run events).written (r.run events).ledger.buffer (r.run events).taken := by
  induction events generalizing r with
  | nil => exact h
  | cons e rest ih => exact ih (trails_step h e)

omit [Rollup α] in
theorem trails_create (pipeline : PipelineId) (window : Duration) (batchSize : Nat) (store : Store) :
    Trails (create (α := α) pipeline window batchSize store).written
      (create (α := α) pipeline window batchSize store).ledger.buffer
      (create (α := α) pipeline window batchSize store).taken :=
  fun _ => List.nil_sublist _

omit [Rollup α] in
/-- Only origins that had snapshots taken in have any written. -/
theorem covers_of_taken {r : LedgerRun α} (h : Trails r.written r.ledger.buffer r.taken) {id : String}
    {origins : List String} (hd : origins.Nodup) (hall : ∀ o, r.taken (o, id) ≠ [] → o ∈ origins) :
    r.written.Covers id origins := by
  refine ⟨hd, fun o ho => hall o fun hnil => ho ?_⟩
  have hk := h (o, id)
  rw [hnil, List.sublist_nil, List.append_eq_nil_iff, Option.toList_eq_nil_iff] at hk
  exact hk.1

/-! ### The books of a run -/

/-- The books are kept, as of the last flush. -/
structure Kept {V : Type} [AddCommMonoid V] (A : Account α V) (last : Instant) (r : LedgerRun α) : Prop where
  trails : Trails r.written r.ledger.buffer r.taken
  books : Books A last (retention r.ledger) r.written r.ledger.baselines (r.store.table (Rollup.tag α))
  batch : 0 < r.ledger.batchSize

variable {V : Type} [AddCommMonoid V] {A : Account α V} {last now : Instant} {r : LedgerRun α}

theorem Kept.mem_taken (h : Kept A last r) {id : String} {origins : List String} {x : α}
    (hx : x ∈ r.written.under id origins) : ∃ o, x ∈ r.taken (o, id) := by
  obtain ⟨o, _, hW⟩ := List.mem_filterMap.1 hx
  refine ⟨o, (h.trails (o, id)).subset ?_⟩
  rw [hW]
  exact List.mem_append_left _ (List.mem_singleton_self x)

theorem Kept.create {pipeline : PipelineId} {window : Duration} {batchSize : Nat} {store : Store}
    (hempty : store.table (Rollup.tag α) = Dict.empty) : Kept A .epoch (create pipeline window batchSize store) where
  trails := trails_create pipeline window batchSize store
  books := by
    show Books A _ _ _ _ (store.table (Rollup.tag α))
    rw [hempty]
    exact Books.empty
  batch := Nat.le_max_right batchSize 1

theorem Kept.accept (h : Kept A last r) (batch : List (Snapshot α)) : Kept A last (r.step (.accept batch now)) := by
  obtain ⟨hwindow, hbatch, hbaselines⟩ := window_acceptBatch r.ledger batch now
  refine ⟨trails_step h.trails _, ?_, ?_⟩
  · have hret : retention (r.ledger.acceptBatch batch now).2 = retention r.ledger := by
      show (r.ledger.acceptBatch batch now).2.window.double?.getD .zero = _
      rw [hwindow]
      rfl
    simp only [step, hret, hbaselines]
    exact h.books
  · show 0 < (r.ledger.acceptBatch batch now).2.batchSize
    rw [hbatch]
    exact h.batch

theorem Kept.elsewhere (h : Kept A last r) (other : Store) : Kept A last (r.step (.elsewhere other)) := by
  refine ⟨h.trails, ?_, h.batch⟩
  simp only [step, Store.table_withTableOf]
  exact h.books

variable [Cumulative α]

theorem Kept.flush (h : Kept A last r) (hchain : ∀ k, A.Chain k.2 (r.taken k)) (hl : last.InEra) (hn : now.InEra)
    (hle : last.nanos ≤ now.nanos) : Kept A now (r.step (.flush now)) := by
  have hbooks := h.books.mono hl hn hle
  cases hret : r.ledger.retention? with
  | none =>
    rw [step_flush_none hret]
    exact ⟨h.trails, hbooks, h.batch⟩
  | some d =>
    have hd : retention r.ledger = d := by
      rw [retention, hret, Option.getD_some]
    rw [hd] at hbooks
    obtain ⟨added, hf⟩ := hbooks.flush hret (h.trails.ready hchain) h.batch
    obtain ⟨_, hwindow, hbatch⟩ := ledger_flush r.store now hret
    refine ⟨trails_step h.trails _, ?_, ?_⟩
    · have hd' : retention (r.step (.flush now)).ledger = d := by
        rw [← hd]
        show (r.ledger.flush r.store now).ledger.window.double?.getD .zero = _
        rw [hwindow]
        rfl
      rw [hd']
      simp only [step, Store.callsSince_append hf.history]
      exact hf.books
    · show 0 < (r.ledger.flush r.store now).ledger.batchSize
      rw [hbatch]
      exact h.batch

def flushTimes (events : List (LedgerEvent α)) : List Instant := events.filterMap LedgerEvent.flushTime?

theorem Kept.run {events : List (LedgerEvent α)} (h : Kept A last r)
    (hchain : ∀ k, A.Chain k.2 ((r.run events).taken k)) (hl : last.InEra)
    (hera : ∀ t ∈ flushTimes events, t.InEra ∧ last.nanos ≤ t.nanos)
    (hclock : (flushTimes events).Pairwise fun s t => s.nanos ≤ t.nanos) : ∃ t, Kept A t (r.run events) := by
  induction events generalizing r last with
  | nil => exact ⟨last, h⟩
  | cons e rest ih =>
    have htaken : ∀ k, A.Chain k.2 (r.taken k) :=
      fun k => (hchain k).sublist (r.taken_run (e :: rest) k).sublist
    cases e with
    | accept batch now => exact ih (h.accept batch) hchain hl hera hclock
    | elsewhere other => exact ih (h.elsewhere other) hchain hl hera hclock
    | flush now =>
      have htimes : flushTimes (.flush now :: rest) = now :: flushTimes rest := rfl
      rw [htimes] at hera hclock
      obtain ⟨hn, hle⟩ := hera now (List.mem_cons_self ..)
      obtain ⟨hlater, hrest⟩ := List.pairwise_cons.1 hclock
      exact ih (h.flush htaken hl hn hle) hchain hn
        (fun t ht => ⟨(hera t (List.mem_cons_of_mem _ ht)).1, hlater t ht⟩) hrest

/-- A row is read as the merge of what stands. -/
theorem Kept.row (h : Kept A last r) {id : String} {origins : List String} (hcov : r.written.Covers id origins) :
    (Rollup.mergeAll (r.written.under id origins) = none ∧ (r.store.table (Rollup.tag α)).get? id = none) ∨
      ∃ m row, Rollup.mergeAll (r.written.under id origins) = some m ∧
        (r.store.table (Rollup.tag α)).get? id = some (Rollup.encode row) ∧ A.Of id m ∧ A.Of id row ∧
        A.read m = A.read row := by
  have hof : ∀ x ∈ r.written.under id origins, A.Of id x := by
    intro x hx
    obtain ⟨o, _, hW⟩ := List.mem_filterMap.1 hx
    exact h.books.standing (o, id) x hW
  cases hrow : (r.store.table (Rollup.tag α)).get? id with
  | none =>
    have hnil : r.written.under id origins = [] :=
      List.filterMap_eq_nil_iff.2 fun o _ => h.books.absent id hrow o
    rw [hnil]
    exact Or.inl ⟨rfl, rfl⟩
  | some j =>
    obtain ⟨row, rfl, hr⟩ := h.books.row id j hrow
    have hne : r.written.under id origins ≠ [] := by
      obtain ⟨o, ho⟩ := hr.stands
      obtain ⟨w, hw⟩ := Option.ne_none_iff_exists'.1 ho
      exact List.ne_nil_of_mem (List.mem_filterMap.2 ⟨o, hcov.all o ho, hw⟩)
    obtain ⟨m, hm, hmof, hsum⟩ := Account.mergeAll_spec hne hof
    exact Or.inr ⟨m, row, hm, rfl, hmof, hr.of, hsum.trans (hr.balance origins hcov).symm⟩

end LedgerRun

/-- In every state of every run, whatever calls of the store fail, the row under an id is the
merge of the last snapshots written of all origins, in any order of the origins. -/
theorem LedgerRun.row_eq_mergeAll (k : RecordKind) (hk : Rollup.mode k.Carrier = .additive) (pipeline : PipelineId)
    (window : Duration) (batchSize : Nat) (store : Store) (hempty : store.table k.tag = Dict.empty)
    (events : List (LedgerEvent k.Carrier)) (hera : ∀ t ∈ flushTimes events, t.InEra)
    (hclock : (flushTimes events).Pairwise fun s t => s.nanos ≤ t.nanos) (application : Int32 → Int32)
    (htotals : ∀ key, ∃ calls : List k.Carrier,
      (∀ c ∈ calls, k.IsCall c ∧ Rollup.id c = key.2 ∧ k.OfApplication application c) ∧
        calls.length < 9223372036854775808 ∧
        Totals calls (((create pipeline window batchSize store).run events).taken key))
    (id : String) (origins : List String)
    (hcov : ((create pipeline window batchSize store).run events).written.Covers id origins) :
    (((create pipeline window batchSize store).run events).store.table k.tag).get? id =
      (Rollup.mergeAll (((create pipeline window batchSize store).run events).written.under id origins)).map
        Rollup.encode := by
  have hera' : ∀ t ∈ flushTimes events, t.InEra ∧ Instant.epoch.nanos ≤ t.nanos := fun t ht => ⟨hera t ht, (hera t ht).1⟩
  cases k with
  | heartbeat => cases hk
  | alarm => cases hk
  | callSummary =>
    have hchain : ∀ key, (Counted.account CallSummary).Chain key.2
        (((create pipeline window batchSize store).run events).taken key) := by
      intro key
      obtain ⟨calls, hcalls, _, ht⟩ := htotals key
      exact ht.chain (fun c hc => Counted.sound_call (hcalls c hc).1 (hcalls c hc).2.1)
        fun _ _ hg => Counted.follows hg fun c hc => ⟨(hcalls c hc).1, (hcalls c hc).2.1⟩
    obtain ⟨t, hkept⟩ := (Kept.create hempty).run hchain Instant.inEra_epoch hera' hclock
    rcases hkept.row hcov with ⟨hnone, hrow⟩ | ⟨m, row, hm, hrow, hof, hof', hread⟩
    · exact hrow.trans (by rw [hnone]; rfl)
    · rw [hm, CallSummary.eq_of_read hof hof' hread]
      exact hrow
  | serviceStats =>
    have hchain : ∀ key, (ServiceStats.account application).Chain key.2
        (((create pipeline window batchSize store).run events).taken key) := by
      intro key
      obtain ⟨calls, hcalls, hlen, ht⟩ := htotals key
      exact ht.chain (fun c hc => ServiceStats.sound_call (hcalls c hc).1 (hcalls c hc).2.1 (hcalls c hc).2.2)
        fun _ _ hg => ServiceStats.follows hg hlen hcalls
    obtain ⟨t, hkept⟩ := (Kept.create hempty).run hchain Instant.inEra_epoch hera' hclock
    rcases hkept.row hcov with ⟨hnone, hrow⟩ | ⟨m, row, hm, hrow, hof, hof', hread⟩
    · exact hrow.trans (by rw [hnone]; rfl)
    · have hcalls : ∀ x ∈ ((create pipeline window batchSize store).run events).written.under id origins,
          0 < (ServiceStats.calls x).toInt := by
        intro x hx
        obtain ⟨o, ho⟩ := hkept.mem_taken hx
        obtain ⟨calls, hcalls, _, ht⟩ := htotals (o, id)
        obtain ⟨n, _, _, _, _, hn, _⟩ := ht.grown.1 x ho
        exact ServiceStats.calls_pos_mergeAll (fun c hc => (hcalls c (List.mem_of_mem_take hc)).1.calls_pos) hn
      have hpos := ServiceStats.calls_pos_mergeAll hcalls hm
      have hnonzero : m.calls ≠ 0 := by
        intro hz
        rw [hz, Int64.toInt_zero] at hpos
        omega
      rw [hm, ServiceStats.eq_of_read hof hof' hnonzero hread]
      exact hrow

/-! ### Two origins -/

/-- A call of service 1, which took 100 ms. -/
def ServiceStats.oneCall : ServiceStats := .ofCall 1 1 ⟨201801011234⟩ 100 false "trace"

namespace LedgerRun

/-- Two origins send a call each, one of them twice. -/
def twoOrigins : LedgerRun ServiceStats :=
  (create ⟨2⟩ (.ofSeconds 600) 2000 .fresh).run
    [.accept [⟨"a", .oneCall⟩, ⟨"b", .oneCall⟩, ⟨"a", .oneCall⟩] .epoch, .flush .epoch]

theorem taken_twoOrigins (key : OriginKey) :
    twoOrigins.taken key = if key = ("a", ServiceStats.oneCall.id) then [.oneCall, .oneCall]
      else if key = ("b", ServiceStats.oneCall.id) then [.oneCall] else [] := by
  have hlive : (Rollup.bucket ServiceStats.oneCall).isExpired .epoch (.ofSeconds 600) = false := by decide +kernel
  have hid : Rollup.id ServiceStats.oneCall = ServiceStats.oneCall.id := rfl
  have hab : ¬ ("b" : String) = "a" := by decide
  show takes (.ofSeconds 600) .epoch [⟨"a", ServiceStats.oneCall⟩, ⟨"b", ServiceStats.oneCall⟩, ⟨"a", ServiceStats.oneCall⟩] key = _
  simp only [takes, List.filter_cons, hlive, Bool.not_false, Bool.true_and, hid, List.filter_nil, decide_eq_true_eq]
  by_cases ha : key = ("a", ServiceStats.oneCall.id)
  · subst ha
    simp [hab]
  · by_cases hb : key = ("b", ServiceStats.oneCall.id)
    · subst hb
      simp [Ne.symm hab]
    · simp [ha, hb, Ne.symm ha, Ne.symm hb]

theorem row_twoOrigins :
    (twoOrigins.store.table RecordKind.serviceStats.tag).get? ServiceStats.oneCall.id =
      (Rollup.mergeAll (twoOrigins.written.under ServiceStats.oneCall.id ["b", "a"])).map Rollup.encode := by
  refine row_eq_mergeAll .serviceStats rfl ⟨2⟩ (.ofSeconds 600) 2000 .fresh rfl
    [.accept [⟨"a", ServiceStats.oneCall⟩, ⟨"b", ServiceStats.oneCall⟩, ⟨"a", ServiceStats.oneCall⟩] .epoch,
      .flush .epoch] ?_ ?_ (fun s => s) ?_ _ _ ?_
  · intro t ht
    rw [List.mem_singleton.1 ht]
    exact Instant.inEra_epoch
  · exact List.pairwise_singleton _ _
  · intro key
    have hcall : ∀ c ∈ [ServiceStats.oneCall], c.IsCall ∧ c.id = ServiceStats.oneCall.id ∧ c.application = c.service := by
      intro c hc
      rw [List.mem_singleton.1 hc]
      exact ⟨⟨1, 1, _, 100, false, _, rfl⟩, rfl, rfl⟩
    have htaken := taken_twoOrigins key
    by_cases ha : key = ("a", ServiceStats.oneCall.id)
    · rw [if_pos ha] at htaken
      refine ⟨[ServiceStats.oneCall], ha ▸ hcall, by decide, ?_⟩
      show Totals [ServiceStats.oneCall] (twoOrigins.taken key)
      rw [htaken]
      exact ⟨[1, 1], by decide, by decide, rfl⟩
    · rw [if_neg ha] at htaken
      by_cases hb : key = ("b", ServiceStats.oneCall.id)
      · rw [if_pos hb] at htaken
        refine ⟨[ServiceStats.oneCall], hb ▸ hcall, by decide, ?_⟩
        show Totals [ServiceStats.oneCall] (twoOrigins.taken key)
        rw [htaken]
        exact ⟨[1], by decide, by decide, rfl⟩
      · rw [if_neg hb] at htaken
        refine ⟨[], fun c hc => absurd hc List.not_mem_nil, by decide, ?_⟩
        show Totals [] (twoOrigins.taken key)
        rw [htaken]
        exact ⟨[], List.Pairwise.nil, fun n hn => absurd hn List.not_mem_nil, rfl⟩
  · refine covers_of_taken (trails_run (trails_create _ _ _ _) _) (by decide) fun o ho => ?_
    have htaken := taken_twoOrigins (o, ServiceStats.oneCall.id)
    by_cases ha : o = "a"
    · rw [ha]
      decide
    · by_cases hb : o = "b"
      · rw [hb]
        decide
      · rw [if_neg (by simp [ha]), if_neg (by simp [hb])] at htaken
        exact absurd htaken ho

end LedgerRun
end TraceRollup
