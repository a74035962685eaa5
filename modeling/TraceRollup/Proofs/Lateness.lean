import TraceRollup.Proofs.Expiry

/-!
# Lateness in real time

With a year of four digits the length of a bucket gives its granularity back
(`TimeBucket.granularity?_ofMillis`), so a bucket and the cutoff are compared unit by unit. A bucket is late exactly when its unit started
before the unit in which the window starts (`TimeBucket.isExpired_iff_startOf_lt`).
-/

namespace TraceRollup

/-! ### Units of time -/

namespace Granularity

/-- The start of the unit that contains an instant. Days of UTC start at whole multiples of a
day from the epoch, and every other unit divides the day. -/
def startOf (g : Granularity) (t : Instant) : Instant :=
  ⟨t.nanos / (g.unitMillis * 1000000) * (g.unitMillis * 1000000)⟩

theorem startOf_lt_iff (g : Granularity) (s t : Instant) :
    (g.startOf s).nanos < (g.startOf t).nanos ↔
      s.nanos / 1000000 / g.unitMillis < t.nanos / 1000000 / g.unitMillis := by
  have hunit := g.unitMillis_pos
  have hpos : (0 : Int) < g.unitMillis * 1000000 := by omega
  simp only [startOf]
  rw [Int.mul_lt_mul_right hpos, Int.mul_comm, Int.ediv_ediv_of_nonneg (by decide),
    Int.ediv_ediv_of_nonneg (by decide)]

end Granularity

namespace TimeBucket

/-- The milliseconds of the years 1000 to 9999. -/
def FourDigitYear (m : Int) : Prop :=
  Date.yearStart 1000 * 86400000 ≤ m ∧ m < Date.yearStart 10000 * 86400000

instance (m : Int) : Decidable (FourDigitYear m) := inferInstanceAs (Decidable (_ ∧ _))

theorem granularity?_ofMillis {m : Int64} (h : FourDigitYear m.toInt) (g : Granularity) :
    (ofMillis m g).granularity? = some g := by
  have hy := year_ofMillis h.1 h.2
  have hparts := CivilTime.parts_ofMillis m.toInt
  have hval := toNat_ofMillis (by omega) hy.2 g
  unfold CivilTime.encode at hval
  unfold granularity?
  cases g with
  | day =>
    simp only at hval ⊢
    rw [if_pos (by omega)]
  | hour =>
    simp only at hval ⊢
    rw [if_neg (by omega), if_pos (by omega)]
  | minute =>
    simp only at hval ⊢
    rw [if_neg (by omega), if_neg (by omega), if_pos (by omega)]
  | second =>
    simp only at hval ⊢
    rw [if_neg (by omega), if_neg (by omega), if_neg (by omega), if_pos (by omega)]

theorem isExpired_ofMillis {m : Int64} (hm : FourDigitYear m.toInt) {now : Instant} (hnow : now.InEra)
    (w : Duration) (g : Granularity) :
    (ofMillis m g).isExpired now w = true ↔
      (g.startOf (Instant.ofMillis m)).nanos < (g.startOf (now.back w)).nanos := by
  have hy := year_ofMillis hm.1 hm.2
  have hval := toNat_ofMillis (by omega) hy.2 g
  have hcut := toNat_cutoff (w := w) hnow g
  have hdigits := CivilTime.encode_lt_iff m.toInt ((now.back w).nanos / 1000000) g
  have hmillis : (Instant.ofMillis m).nanos / 1000000 = m.toInt := by
    simp only [Instant.ofMillis]
    omega
  unfold isExpired
  simp only [granularity?_ofMillis hm g, decide_eq_true_eq]
  rw [UInt64.lt_iff_toNat_lt, Granularity.startOf_lt_iff, hmillis, ← hdigits]
  omega

/-- Lateness agrees with real time: a bucket of a timestamp `t` is late exactly when the unit of
`t` started before the one in which the window starts. No timestamp inside the window is late,
and what is late stays late. -/
theorem isExpired_iff_startOf_lt (g : Granularity) (t : Int64) (now : Instant) (w : Duration)
    (ht : FourDigitYear t.toInt) (hnow : now.InEra) :
    ((ofMillis t g).isExpired now w = true ↔
      (g.startOf (Instant.ofMillis t)).nanos < (g.startOf ⟨max 0 (now.nanos - w.nanos)⟩).nanos) ∧
    (0 ≤ t.toInt → now.nanos - w.nanos ≤ (Instant.ofMillis t).nanos →
      (ofMillis t g).isExpired now w = false) ∧
    (∀ (b : TimeBucket) (later : Instant), later.InEra → now.nanos ≤ later.nanos →
      b.isExpired now w = true → b.isExpired later w = true) := by
  have hiff := isExpired_ofMillis ht hnow w g
  refine ⟨hiff, ?_, fun _ _ hlater hle h => isExpired_mono hnow hlater hle h⟩
  intro h0 hin
  have horder : max 0 (now.nanos - w.nanos) ≤ (Instant.ofMillis t).nanos := by
    simp only [Instant.ofMillis] at hin ⊢
    omega
  have hunits := Int.ediv_le_ediv (show (0 : Int) < g.unitMillis by have := g.unitMillis_pos; omega)
    (Int.ediv_le_ediv (show (0 : Int) < 1000000 by decide) horder)
  rw [Bool.eq_false_iff]
  intro hlate
  have hlt := (Granularity.startOf_lt_iff ..).1 (hiff.1 hlate)
  simp only [Instant.back] at hlt
  omega

/-- A call of 12:34 is late at 12:56 for a window of ten minutes; one of 12:46 is not. -/
theorem isExpired_iff_startOf_lt_minute :
    (ofMillis 1514810096789 .minute).isExpired ⟨1514811416789000000⟩ (.ofSeconds 600) = true ∧
      (ofMillis 1514810817789 .minute).isExpired ⟨1514811416789000000⟩ (.ofSeconds 600) = false :=
  ⟨(isExpired_iff_startOf_lt .minute 1514810096789 ⟨1514811416789000000⟩ (.ofSeconds 600)
      (by decide) ⟨by decide, by decide⟩).1.2 (by decide),
    (isExpired_iff_startOf_lt .minute 1514810817789 ⟨1514811416789000000⟩ (.ofSeconds 600)
      (by decide) ⟨by decide, by decide⟩).2.1 (by decide) (by decide)⟩

end TimeBucket
end TraceRollup
