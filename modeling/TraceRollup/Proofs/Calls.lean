import Mathlib.Algebra.Group.Pi.Basic
import TraceRollup.Proofs.Books
import TraceRollup.Proofs.SlowTraces

/-!
# Totals of calls

Records that are made of single calls only grow when more calls are merged into them, so
every total follows the earlier totals of the same calls, as far as its counters go
(`Counted.follows`). A summary of calls between applications is nothing but counters.
-/

namespace TraceRollup

/-! ### Records of counted calls -/

/-- Records of calls with counters that merging adds up. -/
class Counted (α : Type) [Rollup α] where
  IsCall : α → Prop
  /-- The counters, by position. -/
  tally : α → Nat → Int64
  tally_call : ∀ {a : α}, IsCall a → ∀ i, 0 ≤ (tally a i).toInt
  tally_merge : ∀ (a b : α) (i : Nat), tally (Rollup.merge a b) i = Counter.add (tally a i) (tally b i)
  tally_since : ∀ {now base : α}, (∀ i, (tally base i).toInt ≤ (tally now i).toInt) →
    (∀ i, 0 ≤ (tally base i).toInt) →
    ∃ d, Rollup.since? now base = some d ∧ Rollup.id d = Rollup.id now ∧
      ∀ i, (tally d i).toInt = (tally now i).toInt - (tally base i).toInt

namespace Counted
variable {α : Type} [Rollup α] [Counted α]

/-- The account of the counters alone. -/
def account (α : Type) [Rollup α] [Counted α] : Account α (Nat → Clamped) where
  Sound a := ∀ i, 0 ≤ (tally a i).toInt
  read a i := Clamped.ofCounter (tally a i)
  sound_merge ha hb _ i := by
    rw [tally_merge]
    exact (Clamped.ofCounter_add (ha i) (hb i)).1
  read_merge ha hb _ := by
    funext i
    rw [tally_merge]
    exact (Clamped.ofCounter_add (ha i) (hb i)).2

def counted (i : Nat) (xs : List α) : Int := xs.foldr (fun a n => (tally a i).toInt + n) 0

theorem counted_nonneg {xs : List α} (h : ∀ x ∈ xs, IsCall x) (i : Nat) : 0 ≤ counted i xs := by
  induction xs with
  | nil => exact Int.le_refl 0
  | cons x rest ih =>
    have hx := tally_call (h x (List.mem_cons_self ..)) i
    have hrest := ih fun y hy => h y (List.mem_cons_of_mem _ hy)
    simp only [counted, List.foldr_cons] at hrest ⊢
    omega

theorem counted_sublist {xs ys : List α} (hs : xs.Sublist ys) (h : ∀ y ∈ ys, IsCall y) (i : Nat) :
    counted i xs ≤ counted i ys := by
  induction hs with
  | slnil => exact Int.le_refl _
  | cons y _ ih =>
    have hy := tally_call (h y (List.mem_cons_self ..)) i
    have hrest := ih fun z hz => h z (List.mem_cons_of_mem _ hz)
    simp only [counted, List.foldr_cons] at hrest ⊢
    omega
  | cons_cons y _ ih =>
    have hrest := ih fun z hz => h z (List.mem_cons_of_mem _ hz)
    simp only [counted, List.foldr_cons] at hrest ⊢
    omega

/-- What calls are read as is their sum, as far as a counter goes. -/
theorem count_sum {xs : List α} (h : ∀ x ∈ xs, IsCall x) (i : Nat) :
    (((xs.map (account α).read).sum i).count : Int) = min 9223372036854775807 (counted i xs) := by
  induction xs with
  | nil => rfl
  | cons x rest ih =>
    have hx := tally_call (h x (List.mem_cons_self ..)) i
    have hrest := ih fun y hy => h y (List.mem_cons_of_mem _ hy)
    have hnonneg : 0 ≤ counted i rest := counted_nonneg (fun y hy => h y (List.mem_cons_of_mem _ hy)) i
    have hread : ((account α).read x i).count = (tally x i).toInt.toNat := rfl
    rw [List.map_cons, List.sum_cons, Pi.add_apply, Clamped.count_add, hread]
    simp only [counted, List.foldr_cons] at hrest hnonneg ⊢
    omega

theorem sound_call {id : String} {a : α} (h : IsCall a) (hid : Rollup.id a = id) : (account α).Of id a :=
  ⟨hid, tally_call h⟩

/-- A total that has grown has a difference to what it was, which makes up for the growth. -/
theorem follows_of_add {id : String} {base now : α} {growth : Nat → Clamped} (hb : (account α).Of id base)
    (hn : (account α).Of id now) (hsum : (account α).read now = (account α).read base + growth) :
    ∃ d, Rollup.since? now base = some d ∧ (account α).Of (Rollup.id now) d ∧
      (account α).read base + (account α).read d = (account α).read now ∧
      ∀ i, (tally d i).toInt = (tally now i).toInt - (tally base i).toInt := by
  have hle : ∀ i, (tally base i).toInt ≤ (tally now i).toInt := by
    intro i
    have hi := congrArg Clamped.count (congrFun hsum i)
    have hbound := (Clamped.ofCounter (tally base i)).bounded
    have hbase := Clamped.toInt_of_ofCounter (hb.2 i)
    have hnow := Clamped.toInt_of_ofCounter (hn.2 i)
    change (Clamped.ofCounter (tally now i)).count =
      min 9223372036854775807 ((Clamped.ofCounter (tally base i)).count + (growth i).count) at hi
    omega
  obtain ⟨d, hd, hid, hdiff⟩ := tally_since hle hb.2
  refine ⟨d, hd, ⟨hid, fun i => ?_⟩, ?_, hdiff⟩
  · have h := hdiff i
    have hi := hle i
    omega
  · funext i
    ext
    have h := hdiff i
    have hbase := hb.2 i
    have hi := hle i
    have hlt := (tally now i).toInt_lt
    change min 9223372036854775807 ((tally base i).toInt.toNat + (tally d i).toInt.toNat) = (tally now i).toInt.toNat
    omega

end Counted

/-! ### Totals of the calls of one key -/

/-- Earlier and later totals of the same calls. -/
def Grown {α : Type} [Rollup α] (calls : List α) (base now : α) : Prop :=
  ∃ m n, 1 ≤ m ∧ m ≤ n ∧ n ≤ calls.length ∧ Rollup.mergeAll (calls.take m) = some base ∧
    Rollup.mergeAll (calls.take n) = some now

/-- The later total is the earlier one with more calls, if not the same. -/
theorem Grown.cases {α V : Type} [Rollup α] [AddCommMonoid V] [LawfulKey α] {A : Account α V} {id : String}
    {calls : List α} {base now : α} (h : Grown calls base now) (hc : ∀ c ∈ calls, A.Of id c) :
    A.Of id base ∧ A.Of id now ∧ ∃ first more, first ≠ [] ∧ (first ++ more).length ≤ calls.length ∧
      (∀ c ∈ first ++ more, c ∈ calls) ∧ (more = [] → base = now) ∧ A.read base = (first.map A.read).sum ∧
      A.read now = A.read base + (more.map A.read).sum := by
  obtain ⟨m, n, hm, hmn, hn, hbase, hnow⟩ := h
  have spec : ∀ {j : Nat} {t : α}, 1 ≤ j → j ≤ calls.length → Rollup.mergeAll (calls.take j) = some t →
      A.Of id t ∧ A.read t = ((calls.take j).map A.read).sum := by
    intro j t hj hlen ht
    have hne : calls.take j ≠ [] := by
      rw [Ne, List.take_eq_nil_iff, ← List.length_eq_zero_iff]
      omega
    obtain ⟨t', ht', hof, hsum⟩ := Account.mergeAll_spec hne fun c hcm => hc c (List.mem_of_mem_take hcm)
    rw [ht] at ht'
    cases ht'
    exact ⟨hof, hsum⟩
  have hsplit : calls.take m ++ (calls.take n).drop m = calls.take n := by
    have htake := List.take_append_drop m (calls.take n)
    rwa [List.take_take, Nat.min_eq_left hmn] at htake
  obtain ⟨hofb, hsumb⟩ := spec hm (by omega) hbase
  obtain ⟨hofn, hsumn⟩ := spec (by omega) hn hnow
  refine ⟨hofb, hofn, calls.take m, (calls.take n).drop m, ?_, ?_, ?_, ?_, hsumb, ?_⟩
  · rw [Ne, List.take_eq_nil_iff, ← List.length_eq_zero_iff]
    omega
  · rw [hsplit, List.length_take]
    omega
  · rw [hsplit]
    exact fun c hcm => List.mem_of_mem_take hcm
  · intro hnil
    rw [hnil, List.append_nil] at hsplit
    rw [hsplit, hnow] at hbase
    exact (Option.some.inj hbase).symm
  · rw [hsumn, hsumb, ← List.sum_append, ← List.map_append, hsplit]

theorem Counted.follows {α : Type} [Rollup α] [Counted α] [LawfulKey α] {id : String} {calls : List α}
    {base now : α} (h : Grown calls base now) (hc : ∀ c ∈ calls, IsCall c ∧ Rollup.id c = id) :
    (account α).Follows base now := by
  obtain ⟨hb, hn, _, _, _, _, _, _, _, hsum⟩ :=
    h.cases (A := account α) fun c hcm => sound_call (hc c hcm).1 (hc c hcm).2
  obtain ⟨d, hd, hof, hread, _⟩ := follows_of_add hb hn hsum
  exact ⟨d, hd, hof, hread⟩

/-! ### Calls between applications -/

namespace CallSummary

def IsCall (m : CallSummary) : Prop := ∃ front behind bucket millis isError, m = ofCall front behind bucket millis isError

/-- The counters in order: calls by duration, errors, calls, and the sum of durations. -/
def tally (m : CallSummary) : Nat → Int64
  | 0 => m.withinOne
  | 1 => m.withinThree
  | 2 => m.withinFive
  | 3 => m.slower
  | 4 => m.errors
  | 5 => m.calls
  | 6 => m.costSum
  | _ => 0

theorem toInt_band (b : Bool) : 0 ≤ (if b then (1 : Int64) else 0).toInt := by
  cases b <;> decide

theorem tally_call {m : CallSummary} (h : m.IsCall) (i : Nat) : 0 ≤ (m.tally i).toInt := by
  obtain ⟨front, behind, bucket, millis, isError, rfl⟩ := h
  match i with
  | 0 => exact toInt_band _
  | 1 => exact toInt_band _
  | 2 => exact toInt_band _
  | 3 => exact toInt_band _
  | 4 => exact toInt_band _
  | 5 =>
    show 0 ≤ (1 : Int64).toInt
    decide
  | 6 =>
    show 0 ≤ (max millis 0).toInt
    rw [SlowTrace.toInt_max, Int64.toInt_zero]
    omega
  | _ + 7 =>
    show 0 ≤ (0 : Int64).toInt
    decide

theorem tally_merge (a b : CallSummary) (i : Nat) : (merge a b).tally i = Counter.add (a.tally i) (b.tally i) := by
  match i with
  | 0 | 1 | 2 | 3 | 4 | 5 | 6 => rfl
  | _ + 7 =>
    show (0 : Int64) = Counter.add 0 0
    decide

theorem tally_since {now base : CallSummary} (hle : ∀ i, (base.tally i).toInt ≤ (now.tally i).toInt)
    (hb : ∀ i, 0 ≤ (base.tally i).toInt) : ∃ d, since? now base = some d ∧ d.id = now.id ∧
      ∀ i, (d.tally i).toInt = (now.tally i).toInt - (base.tally i).toInt := by
  obtain ⟨d₀, h₀, e₀, _⟩ := Clamped.ofCounter_advance (hb 0) (hle 0)
  obtain ⟨d₁, h₁, e₁, _⟩ := Clamped.ofCounter_advance (hb 1) (hle 1)
  obtain ⟨d₂, h₂, e₂, _⟩ := Clamped.ofCounter_advance (hb 2) (hle 2)
  obtain ⟨d₃, h₃, e₃, _⟩ := Clamped.ofCounter_advance (hb 3) (hle 3)
  obtain ⟨d₄, h₄, e₄, _⟩ := Clamped.ofCounter_advance (hb 4) (hle 4)
  obtain ⟨d₅, h₅, e₅, _⟩ := Clamped.ofCounter_advance (hb 5) (hle 5)
  obtain ⟨d₆, h₆, e₆, _⟩ := Clamped.ofCounter_advance (hb 6) (hle 6)
  simp only [tally] at h₀ h₁ h₂ h₃ h₄ h₅ h₆
  have hsince : since? now base = some { now with
      withinOne := d₀, withinThree := d₁, withinFive := d₂, slower := d₃, errors := d₄, calls := d₅, costSum := d₆ } := by
    unfold since? advance
    rw [h₀, h₁, h₂, h₃, h₄, h₅, h₆]
    rfl
  refine ⟨_, hsince, rfl, fun i => ?_⟩
  match i with
  | 0 => exact e₀
  | 1 => exact e₁
  | 2 => exact e₂
  | 3 => exact e₃
  | 4 => exact e₄
  | 5 => exact e₅
  | 6 => exact e₆
  | _ + 7 =>
    show (0 : Int64).toInt = (0 : Int64).toInt - (0 : Int64).toInt
    decide

instance : Cumulative CallSummary where
  mode_additive := rfl
  decode?_encode := decode?_encode

instance : Counted CallSummary where
  IsCall := IsCall
  tally := tally
  tally_call h i := tally_call h i
  tally_merge := tally_merge
  tally_since := tally_since

/-- A summary is known by its key and its counters. -/
theorem eq_of_read {id : String} {a b : CallSummary} (ha : (Counted.account CallSummary).Of id a)
    (hb : (Counted.account CallSummary).Of id b)
    (h : (Counted.account CallSummary).read a = (Counted.account CallSummary).read b) : a = b := by
  obtain ⟨hbucket, hfront, hbehind⟩ := subject_of_id (ha.1.trans hb.1.symm)
  have ht : ∀ i, a.tally i = b.tally i := fun i => Clamped.ofCounter_inj (ha.2 i) (hb.2 i) (congrFun h i)
  have h₀ := ht 0
  have h₁ := ht 1
  have h₂ := ht 2
  have h₃ := ht 3
  have h₄ := ht 4
  have h₅ := ht 5
  have h₆ := ht 6
  simp only [tally] at h₀ h₁ h₂ h₃ h₄ h₅ h₆
  cases a
  cases b
  simp only at hbucket hfront hbehind h₀ h₁ h₂ h₃ h₄ h₅ h₆
  simp only [hbucket, hfront, hbehind, h₀, h₁, h₂, h₃, h₄, h₅, h₆]

end CallSummary

end TraceRollup
