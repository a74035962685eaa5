import Mathlib.Algebra.Group.Prod
import TraceRollup.Proofs.Calls

/-!
# Totals of service calls

The statistics of a service as a whole: counters, the least and the greatest duration, and the
slowest traces are each a monoid, and so is their product (`ServiceStats.account`). A total
follows the earlier totals of the same calls while the calls can be counted
(`ServiceStats.follows`); beyond that a new least duration may go unseen.
-/

namespace TraceRollup

/-! ### Extremes -/

/-- The least or the greatest of some durations, if there are any. -/
@[ext] structure Extreme (choose : Int64 → Int64 → Int64) where
  value : Option Int64

namespace Extreme
variable {choose : Int64 → Int64 → Int64}

instance : Zero (Extreme choose) := ⟨⟨none⟩⟩
instance : Add (Extreme choose) := ⟨fun a b => ⟨Option.merge choose a.value b.value⟩⟩

theorem value_add (a b : Extreme choose) : (a + b).value = Option.merge choose a.value b.value := rfl

instance [Std.Associative choose] [Std.Commutative choose] : AddCommMonoid (Extreme choose) where
  add_assoc a b c := Extreme.ext ((Option.associative_merge choose).assoc a.value b.value c.value)
  zero_add a := Extreme.ext Option.merge_none_left
  add_zero a := Extreme.ext Option.merge_none_right
  add_comm a b := Extreme.ext ((Option.commutative_merge choose).comm a.value b.value)
  nsmul := nsmulRec

theorem add_self [Std.IdempotentOp choose] (a : Extreme choose) : a + a = a :=
  Extreme.ext ((Option.idempotentOp_merge choose).idempotent a.value)

theorem toInt_min (a b : Int64) : (min a b).toInt = min a.toInt b.toInt := by
  show (if a ≤ b then a else b).toInt = _
  split
  · rename_i h
    rw [Int64.le_iff_toInt_le] at h
    omega
  · rename_i h
    rw [Int64.le_iff_toInt_le] at h
    omega

instance : Std.Associative (min : Int64 → Int64 → Int64) where
  assoc a b c := by
    apply Int64.toInt_inj.1
    simp only [toInt_min]
    omega

instance : Std.Commutative (min : Int64 → Int64 → Int64) where
  comm a b := by
    apply Int64.toInt_inj.1
    simp only [toInt_min]
    omega

instance : Std.IdempotentOp (min : Int64 → Int64 → Int64) where
  idempotent a := by
    apply Int64.toInt_inj.1
    simp only [toInt_min]
    omega

instance : Std.Associative (max : Int64 → Int64 → Int64) := ⟨SlowTrace.max_assoc⟩
instance : Std.Commutative (max : Int64 → Int64 → Int64) := ⟨SlowTrace.max_comm⟩
instance : Std.IdempotentOp (max : Int64 → Int64 → Int64) := ⟨SlowTrace.max_self⟩

end Extreme

/-- The slowest of some traces. -/
@[ext] structure Slowest where
  traces : List SlowTrace
  top : SlowTrace.topTraces traces = traces

namespace Slowest
open SlowTrace

def of (ts : List SlowTrace) : Slowest := ⟨topTraces ts, topTraces_topTraces ts⟩

instance : Zero Slowest := ⟨⟨[], by simp [topTraces, longest]⟩⟩
instance : Add Slowest := ⟨fun a b => of (a.traces ++ b.traces)⟩

theorem traces_zero : (0 : Slowest).traces = [] := rfl
theorem traces_add (a b : Slowest) : (a + b).traces = topTraces (a.traces ++ b.traces) := rfl

theorem of_append (xs ys : List SlowTrace) : of (xs ++ ys) = of xs + of ys := by
  ext1
  rw [traces_add]
  simp only [of]
  rw [topTraces_append, topTraces_append_right]

instance : AddCommMonoid Slowest where
  add_assoc a b c := by
    ext1
    simp only [traces_add]
    rw [topTraces_append, topTraces_append_right, List.append_assoc]
  zero_add a := by
    ext1
    rw [traces_add, traces_zero, List.nil_append, a.top]
  add_zero a := by
    ext1
    rw [traces_add, traces_zero, List.append_nil, a.top]
  add_comm a b := by
    ext1
    rw [traces_add, traces_add, topTraces_comm]
  nsmul := nsmulRec

theorem add_self (a : Slowest) : a + a = a := by
  ext1
  rw [traces_add]
  refine Eq.trans (topTraces_congr fun id => ?_) a.top
  rw [peak_append, longer_self]

end Slowest

/-! ### Calls of services -/

namespace ServiceStats

def IsCall (m : ServiceStats) : Prop :=
  ∃ service application bucket millis isError traceId, m = ofCall service application bucket millis isError traceId

/-- The counters in order: calls, failed calls, and the sum of durations. -/
def tally (m : ServiceStats) : Nat → Int64
  | 0 => m.calls
  | 1 => m.errorCalls
  | 2 => m.durationSum
  | _ => 0

theorem tally_call {m : ServiceStats} (h : m.IsCall) (i : Nat) : 0 ≤ (m.tally i).toInt := by
  obtain ⟨service, application, bucket, millis, isError, traceId, rfl⟩ := h
  match i with
  | 0 =>
    show 0 ≤ (1 : Int64).toInt
    decide
  | 1 => exact CallSummary.toInt_band _
  | 2 =>
    show 0 ≤ (max millis 0).toInt
    rw [SlowTrace.toInt_max, Int64.toInt_zero]
    omega
  | _ + 3 =>
    show 0 ≤ (0 : Int64).toInt
    decide

theorem tally_merge (a b : ServiceStats) (i : Nat) : (merge a b).tally i = Counter.add (a.tally i) (b.tally i) := by
  match i with
  | 0 | 1 | 2 => rfl
  | _ + 3 =>
    show (0 : Int64) = Counter.add 0 0
    decide

theorem tally_since {now base : ServiceStats} (hle : ∀ i, (base.tally i).toInt ≤ (now.tally i).toInt)
    (hb : ∀ i, 0 ≤ (base.tally i).toInt) : ∃ d, since? now base = some d ∧ d.id = now.id ∧
      ∀ i, (d.tally i).toInt = (now.tally i).toInt - (base.tally i).toInt := by
  obtain ⟨d₀, h₀, e₀, _⟩ := Clamped.ofCounter_advance (hb 0) (hle 0)
  obtain ⟨d₁, h₁, e₁, _⟩ := Clamped.ofCounter_advance (hb 1) (hle 1)
  obtain ⟨d₂, h₂, e₂, _⟩ := Clamped.ofCounter_advance (hb 2) (hle 2)
  simp only [tally] at h₀ h₁ h₂
  have hsince : since? now base = some { now with calls := d₀, errorCalls := d₁, durationSum := d₂ } := by
    unfold since? advance
    rw [h₀, h₁, h₂]
    rfl
  refine ⟨_, hsince, rfl, fun i => ?_⟩
  match i with
  | 0 => exact e₀
  | 1 => exact e₁
  | 2 => exact e₂
  | _ + 3 =>
    show (0 : Int64).toInt = (0 : Int64).toInt - (0 : Int64).toInt
    decide

/-- A difference keeps everything but the counters. -/
theorem of_since {now base d : ServiceStats} (h : since? now base = some d) :
    d = { now with calls := d.calls, errorCalls := d.errorCalls, durationSum := d.durationSum } := by
  unfold since? advance at h
  cases h₀ : Counter.advance now.calls base.calls with
  | error stop => cases stop <;> rw [h₀] at h <;> cases h; rfl
  | ok d₀ =>
    cases h₁ : Counter.advance now.errorCalls base.errorCalls with
    | error stop => cases stop <;> rw [h₀, h₁] at h <;> cases h; rfl
    | ok d₁ =>
      cases h₂ : Counter.advance now.durationSum base.durationSum with
      | error stop => cases stop <;> rw [h₀, h₁, h₂] at h <;> cases h; rfl
      | ok d₂ =>
        rw [h₀, h₁, h₂] at h
        cases h
        rfl

instance : Cumulative ServiceStats where
  mode_additive := rfl
  decode?_encode := decode?_encode

instance : Counted ServiceStats where
  IsCall := IsCall
  tally := tally
  tally_call h i := tally_call h i
  tally_merge := tally_merge
  tally_since := tally_since

/-! ### Statistics as a whole -/

/-- The least duration, which only counts when there are calls. -/
def least (m : ServiceStats) : Extreme min := ⟨if m.calls = 0 then none else some m.minDuration⟩

def greatest (m : ServiceStats) : Extreme max := ⟨some m.maxDuration⟩
def slowest (m : ServiceStats) : Slowest := .of m.slowTraces

theorem least_merge {a b : ServiceStats} (ha : 0 ≤ a.calls.toInt) (hb : 0 ≤ b.calls.toInt) :
    (merge a b).least = a.least + b.least := by
  have hsum := Counter.toInt_add a.calls b.calls
  have hzero : ∀ c : Int64, c = 0 ↔ c.toInt = 0 := fun c => by rw [← Int64.toInt_inj, Int64.toInt_zero]
  have hbound := a.calls.toInt_lt
  ext1
  rw [Extreme.value_add]
  simp only [least, merge, mergeMin, hzero, Int64.lt_iff_toInt_lt, Int64.toInt_zero]
  by_cases ha' : a.calls.toInt = 0
  · by_cases hb' : b.calls.toInt = 0
    · rw [if_pos (by omega), if_pos ha', if_pos hb', Option.merge_none_left]
    · rw [if_neg (by omega), if_pos ha', if_pos ha', if_neg hb', Option.merge_none_left]
  · rw [if_neg (by omega), if_neg ha', if_neg ha']
    by_cases hb' : b.calls.toInt = 0
    · rw [if_neg (by omega), if_pos hb', Option.merge_none_right]
    · rw [if_pos (by omega), if_neg hb', Option.merge_some_some]

/-- Statistics of services that always come with the same application. -/
structure Sound (application : Int32 → Int32) (m : ServiceStats) : Prop where
  counters : ∀ i, 0 ≤ (m.tally i).toInt
  application : m.application = application m.service
  slowTraces : SlowTrace.topTraces m.slowTraces = m.slowTraces

/-- The account of whole statistics. -/
def account (application : Int32 → Int32) :
    Account ServiceStats ((Nat → Clamped) × Extreme min × Extreme max × Slowest) where
  Sound := Sound application
  read m := ((Counted.account ServiceStats).read m, m.least, m.greatest, m.slowest)
  sound_merge ha hb hid := {
    counters := (Counted.account ServiceStats).sound_merge ha.counters hb.counters hid
    application := ha.application
    slowTraces := SlowTrace.topTraces_topTraces _ }
  read_merge {a b} ha hb hid := by
    have hslowest : (merge a b).slowest = a.slowest + b.slowest := by
      show Slowest.of (SlowTrace.topTraces (a.slowTraces ++ b.slowTraces)) = _
      rw [slowest, slowest, ← Slowest.of_append]
      exact Slowest.ext (SlowTrace.topTraces_topTraces _)
    simp only [Prod.mk_add_mk, Prod.mk.injEq]
    exact ⟨(Counted.account ServiceStats).read_merge ha.counters hb.counters hid,
      least_merge (ha.counters 0) (hb.counters 0), rfl, hslowest⟩

theorem sound_call {application : Int32 → Int32} {id : String} {m : ServiceStats} (h : m.IsCall) (hid : m.id = id)
    (happ : m.application = application m.service) : (account application).Of id m := by
  refine ⟨hid, tally_call h, happ, ?_⟩
  obtain ⟨service, application, bucket, millis, isError, traceId, rfl⟩ := h
  simp [ofCall, SlowTrace.topTraces, SlowTrace.longest, SlowTrace.keepLongest, SlowTrace.kept]

theorem sum_fst (application : Int32 → Int32) (ms : List ServiceStats) :
    ((ms.map (account application).read).sum).1 = (ms.map (Counted.account ServiceStats).read).sum := by
  induction ms with
  | nil => rfl
  | cons m rest ih =>
    rw [List.map_cons, List.sum_cons, List.map_cons, List.sum_cons, ← ih]
    rfl

/-- Every call is counted, as far as the counter goes. -/
theorem calls_sum {calls : List ServiceStats} (h : ∀ c ∈ calls, c.IsCall) :
    ((calls.map (Counted.account ServiceStats).read).sum 0).count = min 9223372036854775807 calls.length := by
  induction calls with
  | nil => rfl
  | cons c rest ih =>
    obtain ⟨service, application, bucket, millis, isError, traceId, rfl⟩ := h c (List.mem_cons_self ..)
    have hone : (Clamped.ofCounter (1 : Int64)).count = 1 := by decide
    have hrest := ih fun d hd => h d (List.mem_cons_of_mem _ hd)
    rw [List.map_cons, List.sum_cons, Pi.add_apply, Clamped.count_add, hrest]
    show min 9223372036854775807 ((Clamped.ofCounter (1 : Int64)).count + _) = _
    rw [hone, List.length_cons]
    omega

/-- Below the largest count every call is counted. -/
theorem toInt_calls {m : ServiceStats} {calls : List ServiceStats} (hm : 0 ≤ m.calls.toInt)
    (hcalls : ∀ c ∈ calls, c.IsCall) (hlen : calls.length < 9223372036854775808)
    (hsum : (Counted.account ServiceStats).read m = (calls.map (Counted.account ServiceStats).read).sum) :
    m.calls.toInt = calls.length := by
  have hcount : (Clamped.ofCounter m.calls).count = min 9223372036854775807 calls.length :=
    (congrArg Clamped.count (congrFun hsum 0)).trans (calls_sum hcalls)
  have hread := Clamped.toInt_of_ofCounter hm
  omega

/-- A difference has the least duration of the later total, unless it counts no calls. -/
theorem least_since {now base d : ServiceStats} {growth : Extreme min} (h : since? now base = some d)
    (hnone : d.calls = 0 → base = now) (hsome : d.calls ≠ 0 → now.calls ≠ 0)
    (hleast : now.least = base.least + growth) : base.least + d.least = now.least := by
  by_cases hzero : d.calls = 0
  · have hd : d.least = 0 := by
      ext1
      simp only [least, if_pos hzero]
      rfl
    rw [hd, add_zero, hnone hzero]
  · have hd : d.least = now.least := by
      ext1
      simp only [least, if_neg hzero, if_neg (hsome hzero)]
      rw [of_since h]
    rw [hd, hleast, ← add_assoc, Extreme.add_self]

theorem extremes_since {now base d : ServiceStats} (h : since? now base = some d) :
    d.greatest = now.greatest ∧ d.slowest = now.slowest := by
  have hkeep := of_since h
  refine ⟨?_, ?_⟩
  · rw [greatest, hkeep]
    rfl
  · rw [slowest, hkeep]
    rfl

theorem sound_since {application : Int32 → Int32} {now base d : ServiceStats} (hn : Sound application now)
    (h : since? now base = some d) (hcounters : ∀ i, 0 ≤ (d.tally i).toInt) : Sound application d := by
  have hkeep := of_since h
  refine ⟨hcounters, ?_, ?_⟩
  · rw [hkeep]
    exact hn.application
  · rw [hkeep]
    exact hn.slowTraces

theorem follows {application : Int32 → Int32} {id : String} {calls : List ServiceStats} {base now : ServiceStats}
    (h : Grown calls base now) (hlen : calls.length < 9223372036854775808)
    (hc : ∀ c ∈ calls, c.IsCall ∧ c.id = id ∧ c.application = application c.service) :
    (account application).Follows base now := by
  obtain ⟨hb, hn, first, more, _, hle, hmem, hsame, hfirst, hsum⟩ :=
    h.cases (A := account application) fun c hcm => sound_call (hc c hcm).1 (hc c hcm).2.1 (hc c hcm).2.2
  have hfirst₀ := congrArg Prod.fst hfirst
  have hsum₀ := congrArg Prod.fst hsum
  rw [sum_fst] at hfirst₀
  rw [Prod.fst_add, sum_fst] at hsum₀
  obtain ⟨d, hd, hof, hread, hdiff⟩ := Counted.follows_of_add ⟨hb.1, hb.2.counters⟩ ⟨hn.1, hn.2.counters⟩ hsum₀
  have hcalls : ∀ c ∈ first ++ more, c.IsCall := fun c hcm => (hc c (hmem c hcm)).1
  have hbase : base.calls.toInt = first.length := by
    rw [List.length_append] at hle
    exact toInt_calls (hb.2.counters 0) (fun c hcm => hcalls c (List.mem_append_left _ hcm)) (by omega) hfirst₀
  have hnow : now.calls.toInt = (first ++ more).length := by
    refine toInt_calls (hn.2.counters 0) hcalls (by omega) ?_
    rw [List.map_append, List.sum_append, ← hfirst₀]
    exact hsum₀
  have hgrown : d.calls.toInt = more.length := by
    have hd₀ : d.calls.toInt = now.calls.toInt - base.calls.toInt := hdiff 0
    rw [List.length_append] at hnow
    omega
  obtain ⟨growth, hgrowth⟩ : ∃ growth, growth = (more.map (account application).read).sum := ⟨_, rfl⟩
  rw [← hgrowth] at hsum
  have hleast : now.least = base.least + growth.2.1 := congrArg (fun v => v.2.1) hsum
  have hgreatest : now.greatest = base.greatest + growth.2.2.1 := congrArg (fun v => v.2.2.1) hsum
  have hslowest : now.slowest = base.slowest + growth.2.2.2 := congrArg (fun v => v.2.2.2) hsum
  have hdleast : base.least + d.least = now.least := by
    refine least_since hd (fun hzero => hsame ?_) (fun hnonzero hnone => hnonzero ?_) hleast
    · rw [hzero, Int64.toInt_zero] at hgrown
      exact List.length_eq_zero_iff.1 (by omega)
    · rw [hnone, Int64.toInt_zero, List.length_append] at hnow
      rw [← Int64.toInt_inj, Int64.toInt_zero]
      omega
  obtain ⟨hdgreatest, hdslowest⟩ := extremes_since hd
  refine ⟨d, hd, ⟨hof.1, sound_since hn.2 hd hof.2⟩, ?_⟩
  show ((Counted.account ServiceStats).read base + (Counted.account ServiceStats).read d, base.least + d.least,
    base.greatest + d.greatest, base.slowest + d.slowest) = _
  rw [hread, hdleast, hdgreatest, hdslowest, hgreatest, hslowest, ← add_assoc, ← add_assoc, Extreme.add_self,
    Slowest.add_self, ← hgreatest, ← hslowest]
  rfl

theorem IsCall.calls_pos {m : ServiceStats} (h : m.IsCall) : 0 < m.calls.toInt := by
  obtain ⟨service, application, bucket, millis, isError, traceId, rfl⟩ := h
  show 0 < (1 : Int64).toInt
  decide

theorem calls_pos_mergeAll {ms : List ServiceStats} {m : ServiceStats} (h : ∀ x ∈ ms, 0 < x.calls.toInt)
    (hm : Rollup.mergeAll ms = some m) : 0 < m.calls.toInt := by
  have key : ∀ (ms : List ServiceStats) (t : ServiceStats), 0 < t.calls.toInt → (∀ x ∈ ms, 0 < x.calls.toInt) →
      0 < (ms.foldl Rollup.merge t).calls.toInt := by
    intro ms
    induction ms with
    | nil => exact fun t ht _ => ht
    | cons x rest ih =>
      intro t ht hms
      refine ih _ ?_ fun y hy => hms y (List.mem_cons_of_mem _ hy)
      show 0 < (Counter.add t.calls x.calls).toInt
      have hx := hms x (List.mem_cons_self ..)
      rw [Counter.toInt_add]
      omega
  cases ms with
  | nil => cases hm
  | cons x rest =>
    cases hm
    exact key rest x (h x (List.mem_cons_self ..)) fun y hy => h y (List.mem_cons_of_mem _ hy)

/-- Statistics with calls are known by their key and what they are read as. -/
theorem eq_of_read {application : Int32 → Int32} {id : String} {a b : ServiceStats}
    (ha : (account application).Of id a) (hb : (account application).Of id b) (hcalls : a.calls ≠ 0)
    (h : (account application).read a = (account application).read b) : a = b := by
  obtain ⟨hbucket, hservice⟩ := subject_of_id (ha.1.trans hb.1.symm)
  have hcounts := congrArg Prod.fst h
  have hleast : a.least = b.least := congrArg (fun v => v.2.1) h
  have hgreatest : a.greatest = b.greatest := congrArg (fun v => v.2.2.1) h
  have hslowest : a.slowest = b.slowest := congrArg (fun v => v.2.2.2) h
  have ht : ∀ i, a.tally i = b.tally i := fun i =>
    Clamped.ofCounter_inj (ha.2.counters i) (hb.2.counters i) (congrFun hcounts i)
  have h₀ : a.calls = b.calls := ht 0
  have h₁ : a.errorCalls = b.errorCalls := ht 1
  have h₂ : a.durationSum = b.durationSum := ht 2
  have happ : a.application = b.application := by
    rw [ha.2.application, hb.2.application, hservice]
  have hmin : a.minDuration = b.minDuration := by
    have hv := congrArg Extreme.value hleast
    simp only [least, if_neg hcalls, if_neg (h₀ ▸ hcalls)] at hv
    exact Option.some.inj hv
  have hmax : a.maxDuration = b.maxDuration := Option.some.inj (congrArg Extreme.value hgreatest)
  have htraces : a.slowTraces = b.slowTraces := by
    rw [← ha.2.slowTraces, ← hb.2.slowTraces]
    exact congrArg Slowest.traces hslowest
  cases a
  cases b
  simp only at hbucket hservice h₀ h₁ h₂ happ hmin hmax htraces
  simp only [hbucket, hservice, h₀, h₁, h₂, happ, hmin, hmax, htraces]

end ServiceStats
/-! ### Calls of either kind -/

namespace RecordKind

def IsCall : (k : RecordKind) → k.Carrier → Prop
  | .callSummary, m => CallSummary.IsCall m
  | .serviceStats, m => ServiceStats.IsCall m
  | .heartbeat, _ | .alarm, _ => False

def tally : (k : RecordKind) → k.Carrier → Nat → Int64
  | .callSummary, m => CallSummary.tally m
  | .serviceStats, m => ServiceStats.tally m
  | .heartbeat, _ | .alarm, _ => fun _ => 0

/-- A service is of the application that it always comes with. -/
def OfApplication (application : Int32 → Int32) : (k : RecordKind) → k.Carrier → Prop
  | .serviceStats, m => ServiceStats.application m = application (ServiceStats.service m)
  | .callSummary, _ | .heartbeat, _ | .alarm, _ => True

end RecordKind
end TraceRollup
