import Mathlib.Algebra.Group.Nat.Defs
import TraceRollup.Proofs.BucketStart
import TraceRollup.Proofs.Keys

/-!
# Which buckets are times

A bucket spells a time when its decimal digits are those of a year of four digits and of a month, a day
and so on of two digits each, all of them in their ranges (`TimeBucket.Spells`). Exactly such a bucket has a
start, which is where the clock shows the time that it spells; from there the bucket is found again
(`TimeBucket.start?_exact`).
-/

namespace TraceRollup

/-! ### Digits -/

namespace Decimal

/-- The digits of a number, with zeros in front up to a width. -/
def padded (width n : Nat) : List Char := (Nat.toDigits 10 n).leftpad width '0'

theorem length_padded {width n : Nat} (hwidth : 0 < width) (h : n < 10 ^ width) : (padded width n).length = width := by
  have hlen := (Nat.length_toDigits_le_iff (b := 10) (by decide) hwidth).2 h
  rw [padded, List.length_leftpad, Nat.max_eq_left hlen]

theorem ofDigitChars_padded {width n : Nat} (hwidth : 0 < width) (h : n < 10 ^ width) (init : Nat) :
    Nat.ofDigitChars 10 (padded width n) init = 10 ^ width * init + n := by
  have hlen := (Nat.length_toDigits_le_iff (b := 10) (by decide) hwidth).2 h
  have hpow : 10 ^ (Nat.toDigits 10 n).length * 10 ^ (width - (Nat.toDigits 10 n).length) = 10 ^ width := by
    rw [← Nat.pow_add, Nat.add_sub_cancel' hlen]
  rw [padded, List.leftpad, Nat.ofDigitChars_append, Nat.ofDigitChars_replicate_zero,
    Nat.ofDigitChars_eq_ofDigitChars_zero, Nat.ofDigitChars_ten_toDigits, ← Nat.mul_assoc, hpow]

/-- A number without leading zeros goes on with two more digits. -/
theorem toDigits_append_padded {n d : Nat} (hn : 0 < n) (hd : d < 100) :
    Nat.toDigits 10 (n * 100 + d) = Nat.toDigits 10 n ++ padded 2 d := by
  have hpair : ∀ d < 100, padded 2 d = Nat.toDigits 10 (d / 10) ++ Nat.toDigits 10 (d % 10) := by decide
  have hsplit : n * 100 + d = 10 * (10 * n + d / 10) + d % 10 := by omega
  rw [hsplit, ← Nat.toDigits_append_toDigits (by decide) (by omega) (by omega),
    ← Nat.toDigits_append_toDigits (by decide) hn (by omega), hpair d hd, List.append_assoc]

theorem padded_four {n : Nat} (hlo : 1000 ≤ n) (hhi : n < 10000) : padded 4 n = Nat.toDigits 10 n := by
  have hupper := (Nat.length_toDigits_le_iff (b := 10) (n := n) (k := 4) (by decide) (by decide)).2 hhi
  have hlower := mt (Nat.length_toDigits_le_iff (b := 10) (n := n) (k := 3) (by decide) (by decide)).1 (by omega)
  have hlen : (Nat.toDigits 10 n).length = 4 := by omega
  rw [padded, List.leftpad, hlen]
  rfl

end Decimal

/-! ### Days of dates -/

namespace Date

theorem monthAndDay_of_start {lens : List Nat} (month : Nat) {i day : Nat} (hpos : 1 ≤ day)
    (hday : day ≤ lens.getD i 0) :
    monthAndDay lens month ((lens.take i).foldr (· + ·) 0 + (day - 1)) = (month + i, day) := by
  induction lens generalizing month i with
  | nil =>
    simp only [List.getD_nil] at hday
    omega
  | cons len rest ih =>
    cases i with
    | zero =>
      simp only [List.getD_cons_zero] at hday
      simp only [List.take_zero, List.foldr_nil, Nat.zero_add, monthAndDay, if_pos (show day - 1 < len by omega),
        Nat.add_zero, Prod.mk.injEq, true_and]
      omega
    | succ i =>
      simp only [List.getD_cons_succ] at hday
      have hrest := ih (month + 1) hday
      rw [List.take_succ_cons, List.foldr_cons, Nat.add_assoc, monthAndDay, if_neg (by omega),
        Nat.add_sub_cancel_left, hrest, Nat.add_right_comm, Nat.add_assoc]

theorem take_add_getD_le (lens : List Nat) (i : Nat) :
    (lens.take i).foldr (· + ·) 0 + lens.getD i 0 ≤ lens.foldr (· + ·) 0 := by
  induction lens generalizing i with
  | nil => simp
  | cons len rest ih =>
    cases i with
    | zero => simp
    | succ i =>
      have hrest := ih i
      simp only [List.take_succ_cons, List.getD_cons_succ, List.foldr_cons]
      omega

theorem ofDay_toDay {d : Date} (h : d.isValid = true) : ofDay d.toDay = d := by
  obtain ⟨year, month, day⟩ := d
  simp only [isValid, daysInMonth, Bool.and_eq_true, decide_eq_true_eq] at h
  obtain ⟨⟨⟨hmonth, -⟩, hpos⟩, hday⟩ := h
  rw [if_neg (by omega)] at hday
  have hmonthDay := monthAndDay_of_start 1 hpos hday
  have hwithin := take_add_getD_le (monthLengths (isLeap year)) (month - 1)
  rw [sum_monthLengths] at hwithin
  have hoffset : ((monthLengths (isLeap year)).take (month - 1)).foldr (· + ·) 0 + (day - 1) < daysInYear year := by
    omega
  have htoDay : (⟨year, month, day⟩ : Date).toDay =
      yearStart year + (((monthLengths (isLeap year)).take (month - 1)).foldr (· + ·) 0 + (day - 1) : Nat) := by
    simp only [toDay, monthStart]
    omega
  generalize ((monthLengths (isLeap year)).take (month - 1)).foldr (· + ·) 0 + (day - 1) = offset
    at hmonthDay hoffset htoDay
  have hnext := yearStart_succ year
  have hyear : yearOf (yearStart year + offset) = year := by
    have hbounds : year ≤ yearOf (yearStart year + offset) ∧ yearOf (yearStart year + offset) < year + 1 :=
      yearOf_bounds (by omega) (by omega)
    omega
  have hdays : (yearStart year + offset - yearStart year).toNat = offset := by omega
  simp only [ofDay, htoDay, hyear, hdays, hmonthDay, Nat.add_sub_cancel' hmonth]

end Date

/-! ### Times and the clock -/

namespace CivilTime

/-- The clock shows a valid time at the milliseconds that it tells, unless it is a leap second. -/
theorem ofMillis_toMillis {t : CivilTime} (h : t.isValid = true) (hsecond : t.second < 60) :
    ofMillis t.toMillis = t := by
  simp only [isValid, Bool.and_eq_true, decide_eq_true_eq] at h
  obtain ⟨⟨⟨hdate, hhour⟩, hminute⟩, -⟩ := h
  have hday : t.toMillis / 86400000 = t.date.toDay := by
    unfold toMillis
    omega
  obtain ⟨date, hour, minute, second⟩ := t
  simp only [ofMillis, hday, Date.ofDay_toDay hdate, CivilTime.mk.injEq, true_and]
  simp only [toMillis] at hsecond hhour hminute ⊢
  omega

/-- The year in four digits and the parts after it in two, down to a unit. -/
def written (t : CivilTime) (g : Granularity) : List Char :=
  let date := Decimal.padded 4 t.date.year.toNat ++ Decimal.padded 2 t.date.month ++ Decimal.padded 2 t.date.day
  match g with
  | .day => date
  | .hour => date ++ Decimal.padded 2 t.hour
  | .minute => date ++ Decimal.padded 2 t.hour ++ Decimal.padded 2 t.minute
  | .second => date ++ Decimal.padded 2 t.hour ++ Decimal.padded 2 t.minute ++ Decimal.padded 2 t.second

variable {t : CivilTime}

theorem parts_of_isValid (h : t.isValid = true) : 1 ≤ t.date.month ∧ t.date.month < 100 ∧ 1 ≤ t.date.day ∧
    t.date.day < 100 ∧ t.hour < 24 ∧ t.minute < 60 ∧ t.second ≤ 60 := by
  simp only [isValid, Date.isValid, Bool.and_eq_true, decide_eq_true_eq] at h
  obtain ⟨⟨⟨⟨⟨⟨hmonth, htwelve⟩, hpos⟩, hday⟩, hhour⟩, hminute⟩, hsecond⟩ := h
  have hlen : Date.daysInMonth t.date.year t.date.month ≤ 31 := by
    unfold Date.daysInMonth
    split
    · omega
    · rw [List.getD_eq_getElem?_getD]
      cases hget : (Date.monthLengths (Date.isLeap t.date.year))[t.date.month - 1]? with
      | none => exact Nat.zero_le _
      | some n => exact Date.monthLengths_le _ n (List.mem_of_getElem? hget)
  omega

theorem length_written (hyear : t.date.year < 10000) (h : t.isValid = true) (g : Granularity) :
    (t.written g).length = g.digits := by
  have hparts := parts_of_isValid h
  have hy : (Decimal.padded 4 t.date.year.toNat).length = 4 := Decimal.length_padded (by decide) (by omega)
  have htwo : ∀ n < 100, (Decimal.padded 2 n).length = 2 := fun n hn => Decimal.length_padded (by decide) hn
  unfold written
  cases g <;> simp only [List.length_append, hy, htwo t.date.month (by omega), htwo t.date.day (by omega),
    htwo t.hour (by omega), htwo t.minute (by omega), htwo t.second (by omega), Granularity.digits]

theorem ofDigitChars_written (hyear : 0 ≤ t.date.year ∧ t.date.year < 10000) (h : t.isValid = true) (g : Granularity) :
    (Nat.ofDigitChars 10 (t.written g) 0 : Int) = t.encode g := by
  have hparts := parts_of_isValid h
  have hy : Nat.ofDigitChars 10 (Decimal.padded 4 t.date.year.toNat) 0 = 10000 * 0 + t.date.year.toNat :=
    Decimal.ofDigitChars_padded (by decide) (by omega) 0
  have htwo : ∀ n < 100, ∀ init, Nat.ofDigitChars 10 (Decimal.padded 2 n) init = 100 * init + n :=
    fun n hn init => Decimal.ofDigitChars_padded (by decide) hn init
  unfold written encode
  cases g <;> simp only [Nat.ofDigitChars_append, hy, htwo t.date.month (by omega), htwo t.date.day (by omega),
    htwo t.hour (by omega), htwo t.minute (by omega), htwo t.second (by omega)] <;> omega

/-- From the year 1000 on the digits are those of the number that they denote. -/
theorem toDigits_encode (hyear : 1000 ≤ t.date.year ∧ t.date.year < 10000) (h : t.isValid = true) (g : Granularity) :
    Nat.toDigits 10 (t.encode g).toNat = t.written g := by
  have hparts := parts_of_isValid h
  obtain ⟨⟨⟨year, month, day⟩, hour, minute, second⟩, rfl⟩ : ∃ u, u = t := ⟨t, rfl⟩
  obtain ⟨y, rfl⟩ := Int.eq_ofNat_of_zero_le (show (0 : Int) ≤ year by simp only at hyear; omega)
  simp only at hyear hparts
  have hdate : Nat.toDigits 10 ((y * 100 + month) * 100 + day) =
      Decimal.padded 4 y ++ Decimal.padded 2 month ++ Decimal.padded 2 day := by
    rw [Decimal.toDigits_append_padded (by omega) (by omega), Decimal.toDigits_append_padded (by omega) (by omega),
      Decimal.padded_four (by omega) (by omega)]
  have hhour : Nat.toDigits 10 (((y * 100 + month) * 100 + day) * 100 + hour) =
      Decimal.padded 4 y ++ Decimal.padded 2 month ++ Decimal.padded 2 day ++ Decimal.padded 2 hour := by
    rw [Decimal.toDigits_append_padded (by omega) (by omega), hdate]
  have hminute : Nat.toDigits 10 ((((y * 100 + month) * 100 + day) * 100 + hour) * 100 + minute) =
      Decimal.padded 4 y ++ Decimal.padded 2 month ++ Decimal.padded 2 day ++ Decimal.padded 2 hour ++
        Decimal.padded 2 minute := by
    rw [Decimal.toDigits_append_padded (by omega) (by omega), hhour]
  simp only [encode, written, Int.toNat_natCast]
  cases g with
  | day => exact hdate
  | hour => exact hhour
  | minute => exact hminute
  | second =>
    rw [← hminute, ← Decimal.toDigits_append_padded (by omega) (by omega)]
    rfl

end CivilTime

/-! ### Buckets that spell a time -/

namespace TimeBucket

/-- The digits of the bucket are those of a valid time with a year of four digits. -/
structure Spells (b : TimeBucket) (g : Granularity) (t : CivilTime) : Prop where
  digits : (toString b).toList = t.written g
  year : 0 ≤ t.date.year ∧ t.date.year < 10000
  valid : t.isValid = true
  starts : t.Starts g

variable {b : TimeBucket} {g : Granularity} {t : CivilTime}

theorem toList_toString (b : TimeBucket) : (toString b).toList = Nat.toDigits 10 b.value.toNat := by
  show (Nat.repr b.value.toNat).toList = _
  rw [Nat.toList_repr]

theorem length_toString (b : TimeBucket) {k : Nat} (hk : 0 < k) :
    (toString b).length ≤ k ↔ b.value.toNat < 10 ^ k := by
  rw [← String.length_toList, toList_toString, Nat.length_toDigits_le_iff (by decide) hk]

theorem granularity?_eq_some_iff_digits : b.granularity? = some g ↔ (toString b).length = g.digits := by
  have hlen : ∀ k, 0 < k → ((toString b).length ≤ k ↔ b.value.toNat < 10 ^ k) := fun _ => b.length_toString
  have h7 := hlen 7 (by decide)
  have h8 := hlen 8 (by decide)
  have h9 := hlen 9 (by decide)
  have h10 := hlen 10 (by decide)
  have h11 := hlen 11 (by decide)
  have h12 := hlen 12 (by decide)
  have h13 := hlen 13 (by decide)
  have h14 := hlen 14 (by decide)
  unfold granularity?
  cases g <;> simp only [Granularity.digits] <;> split_ifs <;> simp <;> omega

theorem Spells.value (h : b.Spells g t) : (b.value.toNat : Int) = t.encode g := by
  rw [← CivilTime.ofDigitChars_written h.year h.valid g, ← h.digits, toList_toString, Nat.ofDigitChars_ten_toDigits]

theorem Spells.granularity (h : b.Spells g t) : b.granularity? = some g := by
  rw [granularity?_eq_some_iff_digits, ← String.length_toList, h.digits, CivilTime.length_written h.year.2 h.valid]

theorem Spells.civilTime (h : b.Spells g t) : b.civilTime g = t := by
  have hparts := CivilTime.parts_of_isValid h.valid
  exact civilTime_of_encode h.year.1 (by omega) (by omega) h.starts h.value

/-- A number with as many digits as a granularity asks for has a year of four digits. -/
theorem year_civilTime (h : b.granularity? = some g) :
    1000 ≤ (b.civilTime g).date.year ∧ (b.civilTime g).date.year < 10000 := by
  simp only [granularity?] at h
  unfold TimeBucket.civilTime
  split_ifs at h <;> cases h <;> simp only <;> omega

theorem encode_civilTime (b : TimeBucket) (g : Granularity) : (b.civilTime g).encode g = b.value.toNat := by
  unfold TimeBucket.civilTime CivilTime.encode
  cases g <;> simp only <;> omega

theorem starts_civilTime (b : TimeBucket) (g : Granularity) : (b.civilTime g).Starts g := by
  cases g <;> simp only [TimeBucket.civilTime, CivilTime.Starts, and_self]

/-- The digits of a granularity spell the time read off them, if that is valid. -/
theorem spells_civilTime (h : b.granularity? = some g) (hvalid : (b.civilTime g).isValid = true) :
    b.Spells g (b.civilTime g) := by
  have hyear := year_civilTime h
  refine ⟨?_, by omega, hvalid, b.starts_civilTime g⟩
  rw [← CivilTime.toDigits_encode hyear hvalid, encode_civilTime, toList_toString, Int.toNat_natCast]

theorem Spells.start? (h : b.Spells g t) : b.start? = some (Int64.ofInt t.toMillis) := by
  simp only [TimeBucket.start?, h.granularity, h.civilTime, h.valid, Option.bind_eq_bind, Option.bind_some, if_true]

/-- A year of four digits begins and ends within the days that 64 bits of milliseconds count. -/
theorem Spells.toInt_start (h : b.Spells g t) : (Int64.ofInt t.toMillis).toInt = t.toMillis := by
  have hlo : Int64.minValue.toInt = -9223372036854775808 := by decide
  have hhi : Int64.maxValue.toInt = 9223372036854775807 := by decide
  have hparts := CivilTime.parts_of_isValid h.valid
  have hdate : t.date.isValid = true := by
    have hvalid := h.valid
    simp only [CivilTime.isValid, Bool.and_eq_true] at hvalid
    exact hvalid.1.1.1
  have hyear := Date.yearStart_yearOf t.date.toDay
  have hof : Date.yearOf t.date.toDay = t.date.year := congrArg Date.year (Date.ofDay_toDay hdate)
  have hfirst := Date.yearStart_mono h.year.1
  have hlast := Date.yearStart_mono (show t.date.year + 1 ≤ 10000 by have := h.year.2; omega)
  have h0 : Date.yearStart 0 = -719528 := by decide
  have h10000 : Date.yearStart 10000 = 2932897 := by decide
  rw [hof] at hyear
  refine Int64.toInt_ofInt_of_le ?_ ?_ <;> unfold CivilTime.toMillis <;> omega

theorem exists_spells (h : b.start?.isSome = true) : ∃ g t, b.Spells g t := by
  unfold TimeBucket.start? at h
  cases hg : b.granularity? with
  | none => simp [hg] at h
  | some g =>
    by_cases hvalid : (b.civilTime g).isValid = true
    · exact ⟨g, _, spells_civilTime hg hvalid⟩
    · simp [hg, hvalid] at h

theorem Spells.startOf_of_dvd (h : b.Spells g t) {unit : Granularity} (hdvd : (unit.unitMillis : Int) ∣ t.toMillis) :
    unit.startOf (Instant.ofMillis (Int64.ofInt t.toMillis)) = Instant.ofMillis (Int64.ofInt t.toMillis) := by
  rw [Instant.mk.injEq, startOf_ofMillis, h.toInt_start, Int.ediv_mul_cancel hdvd, Instant.ofMillis, h.toInt_start]

theorem Spells.startOf (h : b.Spells g t) :
    g.startOf (Instant.ofMillis (Int64.ofInt t.toMillis)) = Instant.ofMillis (Int64.ofInt t.toMillis) := by
  have hstarts := h.starts
  apply h.startOf_of_dvd
  unfold CivilTime.Starts at hstarts
  cases g <;> simp only [Granularity.unitMillis, CivilTime.toMillis] at hstarts ⊢ <;> omega

theorem Spells.startOf_minute (h : b.Spells g t) (hsecond : t.second = 60) :
    Granularity.minute.startOf (Instant.ofMillis (Int64.ofInt t.toMillis)) =
      Instant.ofMillis (Int64.ofInt t.toMillis) := by
  apply h.startOf_of_dvd
  simp only [Granularity.unitMillis, CivilTime.toMillis]
  omega

/-- The bucket of a time that the clock shows is the one that spells it. -/
theorem Spells.ofMillis (h : b.Spells g t) {m : Int64} (hclock : CivilTime.ofMillis m.toInt = t) :
    ofMillis m g = b := by
  have hvalue := toNat_ofMillis (m := m) (by rw [hclock]; exact h.year.1) (by rw [hclock]; exact h.year.2) g
  rw [hclock, ← h.value] at hvalue
  have hsame : (TimeBucket.ofMillis m g).value = b.value := UInt64.toNat_inj.1 (by omega)
  exact congrArg TimeBucket.mk hsame

/-- A bucket has a start exactly when it spells a time. The start is where the clock shows that time, which
is then the first millisecond of a unit, and the bucket of the start is the bucket again. A leap second
starts with the next minute: at the first millisecond of the one after that which it stands in. -/
theorem start?_exact (b : TimeBucket) :
    (∀ g, b.granularity? = some g ↔ (toString b).length = g.digits) ∧
    (b.start?.isSome = true ↔ ∃ g t, b.Spells g t) ∧
    ∀ g t, b.Spells g t → b.granularity? = some g ∧ ∃ first : Int64, b.start? = some first ∧
      (t.second ≠ 60 → CivilTime.ofMillis first.toInt = t ∧
        g.startOf (Instant.ofMillis first) = Instant.ofMillis first ∧ ofMillis first g = b) ∧
      (t.second = 60 → CivilTime.ofMillis (first.toInt - 60000) = { t with second := 0 } ∧
        Granularity.minute.startOf (Instant.ofMillis first) = Instant.ofMillis first) := by
  refine ⟨fun g => granularity?_eq_some_iff_digits, ⟨exists_spells, fun ⟨g, t, h⟩ => by rw [h.start?]; rfl⟩,
    fun g t h => ⟨h.granularity, _, h.start?, fun hsecond => ?_, fun hsecond => ?_⟩⟩
  · have hparts := CivilTime.parts_of_isValid h.valid
    have hclock : CivilTime.ofMillis (Int64.ofInt t.toMillis).toInt = t := by
      rw [h.toInt_start]
      exact CivilTime.ofMillis_toMillis h.valid (by omega)
    exact ⟨hclock, h.startOf, h.ofMillis hclock⟩
  · have hvalid : ({ t with second := 0 } : CivilTime).isValid = true := by
      have hparts := h.valid
      simp only [CivilTime.isValid, Bool.and_eq_true, decide_eq_true_eq] at hparts ⊢
      exact ⟨hparts.1, by decide⟩
    have hminute : t.toMillis - 60000 = ({ t with second := 0 } : CivilTime).toMillis := by
      simp only [CivilTime.toMillis]
      omega
    refine ⟨?_, h.startOf_minute hsecond⟩
    rw [h.toInt_start, hminute]
    exact CivilTime.ofMillis_toMillis hvalid (Nat.zero_lt_succ 59)

/-- The last second of 2016 was a leap second: it starts where the minute after 23:59 does. -/
theorem start?_exact_leapSecond :
    (⟨20161231235960⟩ : TimeBucket).Spells .second ⟨⟨2016, 12, 31⟩, 23, 59, 60⟩ ∧
      (⟨201612312359⟩ : TimeBucket).Spells .minute ⟨⟨2016, 12, 31⟩, 23, 59, 0⟩ ∧
      (∃ first : Int64, (⟨20161231235960⟩ : TimeBucket).start? = some first ∧
        CivilTime.ofMillis (first.toInt - 60000) = ⟨⟨2016, 12, 31⟩, 23, 59, 0⟩ ∧
        Granularity.minute.startOf (Instant.ofMillis first) = Instant.ofMillis first) ∧
      ∃ first : Int64, (⟨201612312359⟩ : TimeBucket).start? = some first ∧ ofMillis first .minute = ⟨201612312359⟩ := by
  have hleap : (⟨20161231235960⟩ : TimeBucket).Spells .second ⟨⟨2016, 12, 31⟩, 23, 59, 60⟩ :=
    ⟨by decide, by decide, by decide, trivial⟩
  have hminute : (⟨201612312359⟩ : TimeBucket).Spells .minute ⟨⟨2016, 12, 31⟩, 23, 59, 0⟩ :=
    ⟨by decide, by decide, by decide, rfl⟩
  obtain ⟨-, last, hlast, -, hnext⟩ := (start?_exact ⟨20161231235960⟩).2.2 _ _ hleap
  obtain ⟨-, first, hfirst, hclock, -⟩ := (start?_exact ⟨201612312359⟩).2.2 _ _ hminute
  exact ⟨hleap, hminute, ⟨last, hlast, hnext rfl⟩, first, hfirst, (hclock (by decide)).2.2⟩

end TimeBucket
end TraceRollup
