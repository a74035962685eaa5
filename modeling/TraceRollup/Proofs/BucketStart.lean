import TraceRollup.Proofs.Lateness

/-!
# From a bucket back to its time

Every day has a valid date, and the date tells the day (`Date.toDay_ofDay`). So the digits of a bucket
can be read back: they are the time at which its unit starts (`TimeBucket.start?_ofMillis`).
Buckets of one granularity are in the order of the times that they contain, and two times share a
bucket only within one unit (`TimeBucket.ofMillis_faithful`).
-/

namespace TraceRollup

/-! ### Days and their dates -/

namespace Date

/-- The month is found whose days the offset falls into. -/
theorem monthAndDay_spec (lens : List Nat) (month : Nat) {offset : Nat} (ho : offset < lens.foldr (· + ·) 0) :
    ∃ i < lens.length, (monthAndDay lens month offset).1 = month + i ∧
      1 ≤ (monthAndDay lens month offset).2 ∧ (monthAndDay lens month offset).2 ≤ lens.getD i 0 ∧
        (lens.take i).foldr (· + ·) 0 + (monthAndDay lens month offset).2 = offset + 1 := by
  induction lens generalizing month offset with
  | nil => simp at ho
  | cons len rest ih =>
    simp only [List.foldr_cons] at ho
    unfold monthAndDay
    split
    · rename_i hlt
      refine ⟨0, by simp, rfl, ?_, ?_, ?_⟩
      · simp only
        omega
      · simp only [List.getD_cons_zero]
        omega
      · simp
    · rename_i hge
      obtain ⟨i, hi, hmonth, hpos, hle, hsum⟩ := ih (month + 1) (show offset - len < rest.foldr (· + ·) 0 by omega)
      refine ⟨i + 1, by simpa using hi, by omega, hpos, by simpa using hle, ?_⟩
      simp only [List.take_succ_cons, List.foldr_cons]
      omega

/-- A day of a year falls into a month of it. -/
theorem ofDay_spec (day : Int) : ∃ i < 12, (ofDay day).month = i + 1 ∧ 1 ≤ (ofDay day).day ∧
    (ofDay day).day ≤ (monthLengths (isLeap (yearOf day))).getD i 0 ∧
      ((monthLengths (isLeap (yearOf day))).take i).foldr (· + ·) 0 + (ofDay day).day =
        (day - yearStart (yearOf day)).toNat + 1 := by
  have ho := offset_lt day
  rw [← sum_monthLengths] at ho
  obtain ⟨i, hi, hmonth, hrest⟩ := monthAndDay_spec _ 1 ho
  exact ⟨i, hi, hmonth.trans (Nat.add_comm 1 i), hrest⟩

theorem isValid_ofDay (day : Int) : (ofDay day).isValid = true := by
  obtain ⟨i, hi, hmonth, hpos, hle, _⟩ := ofDay_spec day
  have hyear : (ofDay day).year = yearOf day := rfl
  simp only [isValid, daysInMonth, hmonth, hyear, Nat.add_one_ne_zero, if_false, Nat.add_sub_cancel, Bool.and_eq_true,
    decide_eq_true_eq]
  omega

theorem toDay_ofDay (day : Int) : (ofDay day).toDay = day := by
  obtain ⟨i, hi, hmonth, hpos, _, hsum⟩ := ofDay_spec day
  have hyear : (ofDay day).year = yearOf day := rfl
  have hstart := (yearStart_yearOf day).1
  simp only [toDay, monthStart, hmonth, hyear, Nat.add_sub_cancel]
  omega

end Date

/-! ### Times and their digits -/

namespace CivilTime

theorem isValid_ofMillis (m : Int) : (ofMillis m).isValid = true := by
  obtain ⟨_, hhour, hminute, hsecond⟩ := parts_ofMillis m
  have hdate : (ofMillis m).date.isValid = true := Date.isValid_ofDay _
  simp only [isValid, hdate, Bool.true_and, Bool.and_eq_true, decide_eq_true_eq]
  omega

/-- A time tells the second in which a millisecond lies. -/
theorem toMillis_ofMillis (m : Int) : (ofMillis m).toMillis = m / 1000 * 1000 := by
  simp only [toMillis, ofMillis, Date.toDay_ofDay]
  omega

/-- The parts of a time below a unit are zero. -/
def Starts (t : CivilTime) : Granularity → Prop
  | .second => True
  | .minute => t.second = 0
  | .hour => t.minute = 0 ∧ t.second = 0
  | .day => t.hour = 0 ∧ t.minute = 0 ∧ t.second = 0

theorem starts_ofMillis (m : Int) (g : Granularity) : (ofMillis (m / g.unitMillis * g.unitMillis)).Starts g := by
  cases g <;> simp only [Starts, ofMillis, Granularity.unitMillis] <;> omega

end CivilTime

namespace TimeBucket

/-- The digits of a time at which a unit starts are read back. -/
theorem civilTime_of_encode {b : TimeBucket} {t : CivilTime} {g : Granularity} (hyear : 0 ≤ t.date.year)
    (hdate : t.date.month < 100 ∧ t.date.day < 100) (htime : t.hour < 100 ∧ t.minute < 100 ∧ t.second < 100)
    (hstarts : t.Starts g) (hb : (b.value.toNat : Int) = t.encode g) : b.civilTime g = t := by
  obtain ⟨⟨year, month, day⟩, hour, minute, second⟩ := t
  obtain ⟨n, rfl⟩ := Int.eq_ofNat_of_zero_le hyear
  simp only [CivilTime.encode] at hb
  cases g with
  | day =>
    obtain ⟨rfl, rfl, rfl⟩ := hstarts
    simp only [civilTime, CivilTime.mk.injEq, Date.mk.injEq, and_true]
    simp only at hb hdate
    omega
  | hour =>
    obtain ⟨rfl, rfl⟩ := hstarts
    simp only [civilTime, CivilTime.mk.injEq, Date.mk.injEq, and_true]
    simp only at hb hdate htime
    omega
  | minute =>
    obtain rfl := hstarts
    simp only [civilTime, CivilTime.mk.injEq, Date.mk.injEq, and_true]
    simp only at hb hdate htime
    omega
  | second =>
    simp only [civilTime, CivilTime.mk.injEq, Date.mk.injEq]
    simp only at hb hdate htime
    omega

/-- The bucket of a time in the years 1000 to 9999 starts with the unit that contains the time. -/
theorem start?_ofMillis {m : Int64} (h : FourDigitYear m.toInt) (g : Granularity) :
    (ofMillis m g).start? = some (Int64.ofInt (m.toInt / g.unitMillis * g.unitMillis)) := by
  have hy := year_ofMillis h.1 h.2
  have hval := toNat_ofMillis (by omega) hy.2 g
  have hunit := g.unitMillis_pos
  generalize hstart : m.toInt / g.unitMillis * g.unitMillis = start
  have hcode : (CivilTime.ofMillis start).encode g = (CivilTime.ofMillis m.toInt).encode g :=
    hstart ▸ CivilTime.encode_start _ g
  have hstarts : (CivilTime.ofMillis start).Starts g := hstart ▸ CivilTime.starts_ofMillis _ g
  obtain ⟨hdate, hhour, hminute, hsecond⟩ := CivilTime.parts_ofMillis start
  have hwhole : start / 1000 * 1000 = start := by
    rw [← hstart]
    cases g <;> simp only [Granularity.unitMillis] <;> omega
  have hday : start / 86400000 = m.toInt / 86400000 := by
    rw [← hstart]
    cases g <;> simp only [Granularity.unitMillis] <;> omega
  have hyear : (CivilTime.ofMillis start).date.year = (CivilTime.ofMillis m.toInt).date.year := by
    simp only [CivilTime.ofMillis, hday]
  have htime : (ofMillis m g).civilTime g = CivilTime.ofMillis start :=
    civilTime_of_encode (by omega) (by omega) (by omega) hstarts (hval.trans hcode.symm)
  have hvalid := CivilTime.isValid_ofMillis start
  simp only [start?, granularity?_ofMillis h g, Option.bind_eq_bind, Option.bind_some, htime, hvalid, if_true,
    CivilTime.toMillis_ofMillis, hwhole]

/-! ### Buckets as an encoding of time -/

/-- The date of a millisecond can be told. -/
def Told (m : Int64) : Prop := yearIsTold (CivilTime.ofMillis m.toInt).date.year = true

instance (m : Int64) : Decidable (Told m) := inferInstanceAs (Decidable (_ = true))

theorem ofMillis_mono {s t : Int64} (hs : Told s) (ht : Told t) (hst : s ≤ t) (g : Granularity) :
    (ofMillis s g).value ≤ (ofMillis t g).value := by
  have hle : s.toInt ≤ t.toInt := Int64.le_iff_toInt_le.1 hst
  have hyears : (CivilTime.ofMillis s.toInt).date.year ≤ (CivilTime.ofMillis t.toInt).date.year :=
    Date.yearOf_mono (show s.toInt / 86400000 ≤ t.toInt / 86400000 by omega)
  rw [UInt64.le_iff_toNat_le]
  by_cases hneg : (CivilTime.ofMillis s.toInt).date.year < 0
  · have hzero : (ofMillis s g).value.toNat = 0 := by
      simp only [ofMillis, hneg, true_or, if_true]
      rfl
    omega
  · have hcodes := CivilTime.encode_ofMillis_mono hle g
    have hvs := toNat_ofMillis_of_told (m := s) (by omega) hs g
    have hvt := toNat_ofMillis_of_told (m := t) (by omega) ht g
    omega

/-- From the year 0 on a bucket holds the times of one unit and no others. -/
theorem ofMillis_eq_iff {s t : Int64} (hs : Told s) (ht : Told t) (hys : 0 ≤ (CivilTime.ofMillis s.toInt).date.year)
    (hyt : 0 ≤ (CivilTime.ofMillis t.toInt).date.year) (g : Granularity) :
    ofMillis s g = ofMillis t g ↔ s.toInt / g.unitMillis = t.toInt / g.unitMillis := by
  have hvs := toNat_ofMillis_of_told hys hs g
  have hvt := toNat_ofMillis_of_told hyt ht g
  have hlt := CivilTime.encode_lt_iff s.toInt t.toInt g
  have hgt := CivilTime.encode_lt_iff t.toInt s.toInt g
  constructor
  · intro heq
    rw [heq] at hvs
    omega
  · intro hunit
    have hval : (ofMillis s g).value = (ofMillis t g).value := UInt64.toNat_inj.1 (by omega)
    exact congrArg TimeBucket.mk hval

/-- The start of a unit in whole milliseconds. -/
theorem startOf_ofMillis (m : Int64) (g : Granularity) :
    (g.startOf (Instant.ofMillis m)).nanos = m.toInt / g.unitMillis * g.unitMillis * 1000000 := by
  simp only [Granularity.startOf, Instant.ofMillis]
  cases g <;> simp only [Granularity.unitMillis] <;> omega

/-- Buckets are in the order of the times that they contain, and from the year 0 on two times share
a bucket exactly when they lie in one unit of time. In the years 1000 to 9999 a bucket tells its
granularity, and the millisecond at which its unit starts. -/
theorem ofMillis_faithful (g : Granularity) (s t : Int64) :
    (Told s → Told t → s ≤ t → (ofMillis s g).value ≤ (ofMillis t g).value) ∧
    (Told s → Told t → 0 ≤ (CivilTime.ofMillis s.toInt).date.year → 0 ≤ (CivilTime.ofMillis t.toInt).date.year →
      (ofMillis s g = ofMillis t g ↔ g.startOf (Instant.ofMillis s) = g.startOf (Instant.ofMillis t))) ∧
    (FourDigitYear t.toInt → (ofMillis t g).granularity? = some g ∧
      ∃ first, (ofMillis t g).start? = some first ∧ Instant.ofMillis first = g.startOf (Instant.ofMillis t)) := by
  refine ⟨fun hs ht hst => ofMillis_mono hs ht hst g, fun hs ht hys hyt => ?_, fun h => ?_⟩
  · rw [ofMillis_eq_iff hs ht hys hyt, Instant.mk.injEq, startOf_ofMillis, startOf_ofMillis]
    cases g <;> simp only [Granularity.unitMillis] <;> omega
  · refine ⟨granularity?_ofMillis h g, _, start?_ofMillis h g, ?_⟩
    have first : Date.yearStart 1000 = -354285 := by decide
    have last : Date.yearStart 10000 = 2932897 := by decide
    have hlo : Int64.minValue.toInt = -9223372036854775808 := by decide
    have hhi : Int64.maxValue.toInt = 9223372036854775807 := by decide
    have hrange : -9223372036854775808 ≤ t.toInt / g.unitMillis * g.unitMillis ∧
        t.toInt / g.unitMillis * g.unitMillis ≤ 9223372036854775807 := by
      unfold FourDigitYear at h
      cases g <;> simp only [Granularity.unitMillis] <;> omega
    have hstart : (Int64.ofInt (t.toInt / g.unitMillis * g.unitMillis)).toInt =
        t.toInt / g.unitMillis * g.unitMillis :=
      Int64.toInt_ofInt_of_le (by omega) (by omega)
    rw [Instant.mk.injEq, startOf_ofMillis, Instant.ofMillis, hstart]

/-- Times of the years 9999 and 10000, and two times of one minute. -/
theorem ofMillis_faithful_newYear :
    (ofMillis 253402300799999 .minute).value ≤ (ofMillis 253402300800000 .minute).value ∧
      ofMillis 1514810096789 .minute = ofMillis 1514810040000 .minute ∧
      (ofMillis 1514810096789 .minute).granularity? = some .minute :=
  ⟨(ofMillis_faithful .minute 253402300799999 253402300800000).1 (by decide) (by decide) (by decide),
    ((ofMillis_faithful .minute 1514810096789 1514810040000).2.1 (by decide) (by decide) (by decide) (by decide)).2
      (by decide),
    ((ofMillis_faithful .minute 1514810040000 1514810096789).2.2 (by decide)).1⟩

end TimeBucket
end TraceRollup
