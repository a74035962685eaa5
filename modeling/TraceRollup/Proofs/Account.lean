import Mathlib.Algebra.BigOperators.Group.List.Basic
import Mathlib.Data.List.Nodup
import TraceRollup.Proofs.Keys

/-!
# Accounts

An account reads records as elements of a commutative monoid, so that merging is addition and
the order in which records come together does not matter (`Account.mergeAll_spec`). A total
follows an earlier one when what it holds beyond that makes up the difference
(`Account.Follows`). `Clamped` reads counters, which stop at the largest 64-bit number.
-/

namespace TraceRollup

/-! ### Clamped counts -/

/-- A count that stops at the largest 64-bit number. -/
@[ext] structure Clamped where
  count : Nat
  bounded : count ≤ 9223372036854775807

namespace Clamped

instance : Zero Clamped := ⟨⟨0, by omega⟩⟩
instance : Add Clamped := ⟨fun a b => ⟨min 9223372036854775807 (a.count + b.count), by omega⟩⟩

theorem count_zero : (0 : Clamped).count = 0 := rfl
theorem count_add (a b : Clamped) : (a + b).count = min 9223372036854775807 (a.count + b.count) := rfl

instance : AddCommMonoid Clamped where
  add_assoc a b c := by
    ext
    simp only [count_add]
    omega
  zero_add a := by
    ext
    have h := a.bounded
    simp only [count_add, count_zero]
    omega
  add_zero a := by
    ext
    have h := a.bounded
    simp only [count_add, count_zero]
    omega
  add_comm a b := by
    ext
    simp only [count_add]
    omega
  nsmul := nsmulRec

/-- The reading of a counter that is not negative. -/
def ofCounter (c : Int64) : Clamped := ⟨c.toInt.toNat, by
  have h := c.toInt_lt
  omega⟩

theorem toInt_of_ofCounter {c : Int64} (h : 0 ≤ c.toInt) : c.toInt = (ofCounter c).count := by
  simp only [ofCounter]
  omega

theorem ofCounter_inj {a b : Int64} (ha : 0 ≤ a.toInt) (hb : 0 ≤ b.toInt) (h : ofCounter a = ofCounter b) :
    a = b := by
  apply Int64.toInt_inj.1
  rw [toInt_of_ofCounter ha, toInt_of_ofCounter hb, h]

theorem ofCounter_add {a b : Int64} (ha : 0 ≤ a.toInt) (hb : 0 ≤ b.toInt) :
    0 ≤ (Counter.add a b).toInt ∧ ofCounter (Counter.add a b) = ofCounter a + ofCounter b := by
  have h := Counter.toInt_add a b
  refine ⟨by omega, ?_⟩
  ext
  simp only [count_add, ofCounter]
  omega

/-- A counter that has not fallen back has a difference, which makes up for what it has gained. -/
theorem ofCounter_advance {now base : Int64} (hb : 0 ≤ base.toInt) (h : base.toInt ≤ now.toInt) :
    ∃ d, Counter.advance now base = .ok d ∧ d.toInt = now.toInt - base.toInt ∧
      ofCounter base + ofCounter d = ofCounter now := by
  have hlt := now.toInt_lt
  have hnot : ¬ now < base := by
    rw [Int64.lt_iff_toInt_lt]
    omega
  refine ⟨Int64.ofInt (now.toInt - base.toInt), ?_, ?_, ?_⟩
  · simp only [Counter.advance, if_neg hnot, if_pos (show now.toInt - base.toInt ≤ 9223372036854775807 by omega)]
  · rw [Int64.toInt_ofInt_of_le (by omega) (by omega)]
  · ext
    simp only [count_add, ofCounter]
    rw [Int64.toInt_ofInt_of_le (by omega) (by omega)]
    omega

end Clamped

/-! ### Accounts -/

/-- A reading of the records of a kind under which merging is addition. -/
structure Account (α : Type) [Rollup α] (V : Type) [AddCommMonoid V] where
  Sound : α → Prop
  read : α → V
  sound_merge : ∀ {a b : α}, Sound a → Sound b → Rollup.id a = Rollup.id b → Sound (Rollup.merge a b)
  read_merge : ∀ {a b : α}, Sound a → Sound b → Rollup.id a = Rollup.id b →
    read (Rollup.merge a b) = read a + read b

namespace Account
variable {α V : Type} [Rollup α] [AddCommMonoid V]

/-- A sound record of a key. -/
def Of (A : Account α V) (id : String) (a : α) : Prop := Rollup.id a = id ∧ A.Sound a

/-- What the later total holds beyond the earlier one makes up the difference. -/
def Follows (A : Account α V) (base now : α) : Prop :=
  ∃ d, Rollup.since? now base = some d ∧ A.Of (Rollup.id now) d ∧ A.read base + A.read d = A.read now

variable [LawfulKey α] {A : Account α V} {id : String}

theorem Of.merge {a b : α} (ha : A.Of id a) (hb : A.Of id b) :
    A.Of id (Rollup.merge a b) ∧ A.read (Rollup.merge a b) = A.read a + A.read b := by
  have hid : Rollup.id a = Rollup.id b := ha.1.trans hb.1.symm
  refine ⟨⟨?_, A.sound_merge ha.2 hb.2 hid⟩, A.read_merge ha.2 hb.2 hid⟩
  rw [LawfulKey.id_merge]
  exact ha.1

theorem foldl_merge_spec {xs : List α} {a : α} (ha : A.Of id a) (hxs : ∀ x ∈ xs, A.Of id x) :
    A.Of id (xs.foldl Rollup.merge a) ∧
      A.read (xs.foldl Rollup.merge a) = A.read a + (xs.map A.read).sum := by
  induction xs generalizing a with
  | nil => exact ⟨ha, (add_zero _).symm⟩
  | cons x rest ih =>
    obtain ⟨hm, hread⟩ := ha.merge (hxs x (List.mem_cons_self ..))
    obtain ⟨hof, hsum⟩ := ih hm fun y hy => hxs y (List.mem_cons_of_mem _ hy)
    refine ⟨hof, ?_⟩
    rw [List.foldl_cons, hsum, hread, List.map_cons, List.sum_cons, add_assoc]

/-- Merging records of one key adds up what they are read as. -/
theorem mergeAll_spec {xs : List α} (hne : xs ≠ []) (hxs : ∀ x ∈ xs, A.Of id x) :
    ∃ m, Rollup.mergeAll xs = some m ∧ A.Of id m ∧ A.read m = (xs.map A.read).sum := by
  cases xs with
  | nil => exact absurd rfl hne
  | cons a rest =>
    obtain ⟨hof, hsum⟩ := foldl_merge_spec (hxs a (List.mem_cons_self ..))
      fun y hy => hxs y (List.mem_cons_of_mem _ hy)
    exact ⟨_, rfl, hof, by rw [hsum, List.map_cons, List.sum_cons]⟩

end Account
end TraceRollup
