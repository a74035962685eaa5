import Mathlib.Data.List.Basic
import TraceRollup.Rollup.Kind

/-!
# Keys

A key starts with the digits of its bucket and an underscore. Digits hold no underscore, so a
key tells its bucket and its subject (`bucket_and_subject`): records with one key are of one
bucket and merging leaves the key as it is, for records of every kind (`LawfulKey`).
-/

namespace TraceRollup

/-! ### Decimal text -/

namespace Decimal

theorem nat_injective {m n : Nat} (h : Nat.repr m = Nat.repr n) : m = n := by
  have hd := congrArg String.toList h
  rw [Nat.toList_repr, Nat.toList_repr] at hd
  have hv := congrArg (fun cs => Nat.ofDigitChars 10 cs 0) hd
  simpa only [Nat.ofDigitChars_ten_toDigits] using hv

theorem underscore_notMem_nat (n : Nat) : '_' ∉ (Nat.repr n).toList := by
  rw [Nat.toList_repr]
  exact Nat.underscore_not_in_toDigits

theorem dash_notMem_nat (n : Nat) : '-' ∉ (Nat.repr n).toList := by
  intro h
  rw [Nat.toList_repr] at h
  have hd := Nat.isDigit_of_mem_toDigits (by decide) (by decide) h
  exact absurd hd (by decide)

theorem underscore_notMem_int (i : Int) : '_' ∉ (Int.repr i).toList := by
  rw [Int.repr_eq_if]
  split
  · exact underscore_notMem_nat _
  · rw [String.toList_append, List.mem_append, not_or]
    exact ⟨by decide, underscore_notMem_nat _⟩

/-- A number without a sign never reads like one with a sign. -/
theorem nat_ne_dash (m n : Nat) : Nat.repr m ≠ "-" ++ Nat.repr n := by
  intro h
  apply dash_notMem_nat m
  rw [h, String.toList_append, List.mem_append]
  exact Or.inl (by decide)

theorem int_injective {i j : Int} (h : Int.repr i = Int.repr j) : i = j := by
  rw [Int.repr_eq_if, Int.repr_eq_if] at h
  split at h
  · split at h
    · have hn := nat_injective h
      omega
    · exact absurd h (nat_ne_dash _ _)
  · split at h
    · exact absurd h.symm (nat_ne_dash _ _)
    · have hd := congrArg String.toList h
      rw [String.toList_append, String.toList_append, List.append_cancel_left_eq] at hd
      have hn := nat_injective (String.toList_inj.1 hd)
      omega

end Decimal

/-! ### Bucket and subject -/

/-- The first underscore divides a text in one way only. -/
theorem split_at_underscore {a b s t : String} (ha : '_' ∉ a.toList) (hb : '_' ∉ b.toList)
    (h : a ++ "_" ++ s = b ++ "_" ++ t) : a = b ∧ s = t := by
  have hl := congrArg String.toList h
  have hu : "_".toList = ['_'] := by decide
  simp only [String.toList_append, hu, List.append_assoc, List.singleton_append] at hl
  rw [List.append_eq_append_iff] at hl
  rcases hl with ⟨mid, hmid, hrest⟩ | ⟨mid, hmid, hrest⟩
  · cases mid with
    | nil =>
      rw [List.append_nil] at hmid
      simp only [List.nil_append, List.cons.injEq, true_and] at hrest
      exact ⟨(String.toList_inj.1 hmid).symm, String.toList_inj.1 hrest⟩
    | cons c rest =>
      simp only [List.cons_append, List.cons.injEq] at hrest
      exact absurd (by rw [hmid, ← hrest.1]; simp) hb
  · cases mid with
    | nil =>
      rw [List.append_nil] at hmid
      simp only [List.nil_append, List.cons.injEq, true_and] at hrest
      exact ⟨String.toList_inj.1 hmid, (String.toList_inj.1 hrest).symm⟩
    | cons c rest =>
      simp only [List.cons_append, List.cons.injEq] at hrest
      exact absurd (by rw [hmid, ← hrest.1]; simp) ha

theorem bucket_and_subject {b c : TimeBucket} {s t : String}
    (h : toString b ++ "_" ++ s = toString c ++ "_" ++ t) : b = c ∧ s = t := by
  have hb : toString b = Nat.repr b.value.toNat := rfl
  have hc : toString c = Nat.repr c.value.toNat := rfl
  rw [hb, hc] at h
  obtain ⟨hbc, hst⟩ := split_at_underscore (Decimal.underscore_notMem_nat _) (Decimal.underscore_notMem_nat _) h
  refine ⟨?_, hst⟩
  cases b
  cases c
  exact congrArg TimeBucket.mk (UInt64.toNat_inj.1 (Decimal.nat_injective hbc))

namespace ServiceStats

theorem subject_of_id {a b : ServiceStats} (h : a.id = b.id) : a.bucket = b.bucket ∧ a.service = b.service := by
  obtain ⟨hb, hs⟩ := bucket_and_subject h
  exact ⟨hb, Int32.toInt_inj.1 (Decimal.int_injective hs)⟩

end ServiceStats

namespace CallSummary

theorem subject_of_id {a b : CallSummary} (h : a.id = b.id) :
    a.bucket = b.bucket ∧ a.front = b.front ∧ a.behind = b.behind := by
  unfold id at h
  simp only [String.append_assoc] at h
  rw [← String.append_assoc, ← @String.append_assoc (toString b.bucket)] at h
  obtain ⟨hb, hs⟩ := bucket_and_subject h
  rw [← String.append_assoc, ← String.append_assoc] at hs
  obtain ⟨hf, hh⟩ := split_at_underscore (Decimal.underscore_notMem_int _) (Decimal.underscore_notMem_int _) hs
  exact ⟨hb, Int32.toInt_inj.1 (Decimal.int_injective hf), Int32.toInt_inj.1 (Decimal.int_injective hh)⟩

end CallSummary

namespace Heartbeat

theorem subject_of_id {a b : Heartbeat} (h : a.id = b.id) : a.bucket = b.bucket ∧ a.instanceId = b.instanceId := by
  obtain ⟨hb, hs⟩ := bucket_and_subject h
  exact ⟨hb, Int32.toInt_inj.1 (Decimal.int_injective hs)⟩

end Heartbeat

namespace Alarm

theorem subject_of_id {a b : Alarm} (h : a.id = b.id) :
    a.bucket = b.bucket ∧ a.scope = b.scope ∧ a.source = b.source ∧ a.kind = b.kind := by
  have hscope : ∀ s : AlarmScope, '_' ∉ s.name.toList := by
    intro s
    cases s <;> decide
  unfold id at h
  simp only [String.append_assoc] at h
  rw [← String.append_assoc, ← @String.append_assoc (toString b.bucket)] at h
  obtain ⟨hb, hs⟩ := bucket_and_subject h
  rw [← String.append_assoc, ← @String.append_assoc b.scope.name] at hs
  obtain ⟨hname, hrest⟩ := split_at_underscore (hscope a.scope) (hscope b.scope) hs
  rw [← String.append_assoc, ← @String.append_assoc (toString b.source.toInt)] at hrest
  obtain ⟨hsource, hkind⟩ :=
    split_at_underscore (Decimal.underscore_notMem_int _) (Decimal.underscore_notMem_int _) hrest
  refine ⟨hb, ?_, Int32.toInt_inj.1 (Decimal.int_injective hsource), ?_⟩
  · have hinjective : ∀ s t : AlarmScope, s.name = t.name → s = t := by
      intro s t
      cases s <;> cases t <;> decide
    exact hinjective a.scope b.scope hname
  · have hinjective : ∀ s t : AlarmKind, s.name = t.name → s = t := by
      intro s t
      cases s <;> cases t <;> decide
    exact hinjective a.kind b.kind hkind

end Alarm

/-! ### Records of every kind -/

/-- Records whose key tells their bucket, and keep it when others are folded into them. -/
class LawfulKey (α : Type) [Rollup α] : Prop where
  id_merge : ∀ a b : α, Rollup.id (Rollup.merge a b) = Rollup.id a
  bucket_of_id : ∀ {a b : α}, Rollup.id a = Rollup.id b → Rollup.bucket a = Rollup.bucket b

instance : LawfulKey ServiceStats where
  id_merge _ _ := rfl
  bucket_of_id h := (ServiceStats.subject_of_id h).1

instance : LawfulKey CallSummary where
  id_merge _ _ := rfl
  bucket_of_id h := (CallSummary.subject_of_id h).1

instance : LawfulKey Heartbeat where
  id_merge _ _ := rfl
  bucket_of_id h := (Heartbeat.subject_of_id h).1

instance : LawfulKey Alarm where
  id_merge a b := by
    show (Alarm.merge a b).id = a.id
    unfold Alarm.merge
    split <;> rfl
  bucket_of_id h := (Alarm.subject_of_id h).1

instance (k : RecordKind) : LawfulKey k.Carrier := by
  cases k
  · exact inferInstanceAs (LawfulKey CallSummary)
  · exact inferInstanceAs (LawfulKey ServiceStats)
  · exact inferInstanceAs (LawfulKey Heartbeat)
  · exact inferInstanceAs (LawfulKey Alarm)

end TraceRollup
