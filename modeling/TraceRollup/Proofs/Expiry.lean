import TraceRollup.TimeBucket

/-!
# Expiry goes one way

Days in order have dates in order (`Date.code_ofDay_lt`), so the digits of one granularity are
ordered like the units they denote (`CivilTime.encode_lt_iff`). As the clock
goes on the cutoff therefore never goes back, and a bucket that has expired stays expired
(`TimeBucket.isExpired_mono`).
-/

namespace TraceRollup

/-! ### Dates in order -/

namespace Date

theorem yearStart_mono {x y : Int} (h : x ≤ y) : yearStart x ≤ yearStart y := by
  unfold yearStart
  omega

theorem yearOf_mono {a b : Int} (h : a ≤ b) : yearOf a ≤ yearOf b := by
  have ha := yearStart_yearOf a
  have hb := yearStart_yearOf b
  by_cases hlt : yearOf b < yearOf a
  · have hs := yearStart_mono (x := yearOf b + 1) (y := yearOf a) (by omega)
    omega
  · omega

/-- A day lies in one of the years from `x` to before `y` when it lies between their starts. -/
theorem yearOf_bounds {x y day : Int} (h0 : yearStart x ≤ day) (h1 : day < yearStart y) :
    x ≤ yearOf day ∧ yearOf day < y := by
  have hd := yearStart_yearOf day
  constructor
  · by_cases hlt : yearOf day < x
    · have hs := yearStart_mono (x := yearOf day + 1) (y := x) (by omega)
      omega
    · omega
  · by_cases hle : y ≤ yearOf day
    · have hs := yearStart_mono hle
      omega
    · omega

theorem monthLengths_le (leap : Bool) : ∀ n ∈ monthLengths leap, n ≤ 31 := by
  cases leap <;> decide

theorem sum_monthLengths (year : Int) : (monthLengths (isLeap year)).foldr (· + ·) 0 = daysInYear year := by
  unfold daysInYear
  cases isLeap year <;> rfl

theorem monthAndDay_bounds {lens : List Nat} (hl : ∀ n ∈ lens, n ≤ 31) (month : Nat) {offset : Nat}
    (ho : offset < lens.foldr (· + ·) 0) :
    month ≤ (monthAndDay lens month offset).1 ∧ (monthAndDay lens month offset).1 < month + lens.length ∧
      1 ≤ (monthAndDay lens month offset).2 ∧ (monthAndDay lens month offset).2 ≤ 31 := by
  induction lens generalizing month offset with
  | nil => simp at ho
  | cons len rest ih =>
    have hlen := hl len (List.mem_cons_self ..)
    simp only [List.foldr_cons] at ho
    unfold monthAndDay
    split
    · rename_i hlt
      simp only [List.length_cons]
      omega
    · rename_i hge
      have hrec := ih (fun n hn => hl n (List.mem_cons_of_mem _ hn)) (month + 1)
        (show offset - len < rest.foldr (· + ·) 0 by omega)
      simp only [List.length_cons]
      omega

/-- Later days of a year have later months, or later days of the same month. -/
theorem monthAndDay_lt {lens : List Nat} (hl : ∀ n ∈ lens, n ≤ 31) (month : Nat) {a b : Nat}
    (hab : a < b) (hb : b < lens.foldr (· + ·) 0) :
    (monthAndDay lens month a).1 * 100 + (monthAndDay lens month a).2 <
      (monthAndDay lens month b).1 * 100 + (monthAndDay lens month b).2 := by
  induction lens generalizing month a b with
  | nil => simp at hb
  | cons len rest ih =>
    have hlen := hl len (List.mem_cons_self ..)
    have hrest : ∀ n ∈ rest, n ≤ 31 := fun n hn => hl n (List.mem_cons_of_mem _ hn)
    simp only [List.foldr_cons] at hb
    unfold monthAndDay
    by_cases hb' : b < len
    · rw [if_pos hb', if_pos (show a < len by omega)]
      simp only
      omega
    · rw [if_neg hb']
      by_cases ha' : a < len
      · rw [if_pos ha']
        have hbounds := monthAndDay_bounds hrest (month + 1)
          (show b - len < rest.foldr (· + ·) 0 by omega)
        simp only
        omega
      · rw [if_neg ha']
        exact ih hrest (month + 1) (by omega) (by omega)

/-- The digits of a date as a number. -/
def code (d : Date) : Int := (d.year * 100 + d.month) * 100 + d.day

theorem offset_lt (day : Int) : (day - yearStart (yearOf day)).toNat < daysInYear (yearOf day) := by
  have h := yearStart_yearOf day
  have hs := yearStart_succ (yearOf day)
  omega

theorem ofDay_bounds (day : Int) : 1 ≤ (ofDay day).month ∧ (ofDay day).month ≤ 12 ∧
    1 ≤ (ofDay day).day ∧ (ofDay day).day ≤ 31 := by
  have ho := offset_lt day
  rw [← sum_monthLengths] at ho
  have h := monthAndDay_bounds (monthLengths_le _) 1 ho
  have hlen : (monthLengths (isLeap (yearOf day))).length = 12 := rfl
  rw [hlen] at h
  simp only [ofDay]
  omega

theorem code_ofDay_lt {a b : Int} (h : a < b) : (ofDay a).code < (ofDay b).code := by
  have ha := ofDay_bounds a
  have hb := ofDay_bounds b
  have hyear := yearOf_mono (Int.le_of_lt h)
  have hya : (ofDay a).year = yearOf a := rfl
  have hyb : (ofDay b).year = yearOf b := rfl
  unfold code
  by_cases hlt : yearOf a < yearOf b
  · omega
  · have heq : yearOf a = yearOf b := by omega
    have hsa := yearStart_yearOf a
    have ho := offset_lt b
    rw [← sum_monthLengths, ← heq] at ho
    have hmd := monthAndDay_lt (monthLengths_le (isLeap (yearOf a))) 1
      (a := (a - yearStart (yearOf a)).toNat) (b := (b - yearStart (yearOf a)).toNat) (by omega) ho
    simp only [ofDay, ← heq]
    omega

end Date

/-! ### Buckets in order -/

theorem Granularity.unitMillis_pos (g : Granularity) : 0 < g.unitMillis := by
  cases g <;> decide

namespace CivilTime

theorem parts_ofMillis (m : Int) :
    (1 ≤ (ofMillis m).date.month ∧ (ofMillis m).date.month ≤ 12 ∧
      1 ≤ (ofMillis m).date.day ∧ (ofMillis m).date.day ≤ 31) ∧
    (ofMillis m).hour < 24 ∧ (ofMillis m).minute < 60 ∧
      (ofMillis m).second < 60 := by
  refine ⟨Date.ofDay_bounds _, ?_⟩
  simp only [ofMillis]
  omega

theorem minuteCode_lt {a b : Nat} (h : a < b) : a / 60 * 100 + a % 60 < b / 60 * 100 + b % 60 := by
  omega

/-- Different seconds of a day have different times, and different minutes differ in them. -/
theorem timeCode_lt {a b : Nat} :
    (a / 60 < b / 60 → a / 3600 * 100 + a / 60 % 60 < b / 3600 * 100 + b / 60 % 60) ∧
      (a < b → (a / 3600 * 100 + a / 60 % 60) * 100 + a % 60 < (b / 3600 * 100 + b / 60 % 60) * 100 + b % 60) := by
  have ha : a / 3600 = a / 60 / 60 := by omega
  have hb : b / 3600 = b / 60 / 60 := by omega
  have hminute := minuteCode_lt (a := a / 60) (b := b / 60)
  rw [ha, hb]
  refine ⟨hminute, fun h => ?_⟩
  by_cases hlt : a / 60 < b / 60
  · have hm := hminute hlt
    omega
  · have heq : a / 60 = b / 60 := by omega
    omega

/-- The digits down to a unit do not see what is below it. -/
theorem encode_start (m : Int) (g : Granularity) :
    (ofMillis (m / g.unitMillis * g.unitMillis)).encode g = (ofMillis m).encode g := by
  have hday : m / g.unitMillis * g.unitMillis / 86400000 = m / 86400000 := by
    cases g <;> simp only [Granularity.unitMillis] <;> omega
  simp only [encode, ofMillis, hday]
  cases g <;> simp only [Granularity.unitMillis] <;> omega

theorem encode_lt {s t : Int} {g : Granularity} (h : s / g.unitMillis < t / g.unitMillis) :
    (ofMillis s).encode g < (ofMillis t).encode g := by
  have hs := parts_ofMillis s
  have ht := parts_ofMillis t
  have hcode : ∀ m : Int, ((ofMillis m).date.year * 100 + (ofMillis m).date.month) * 100 + (ofMillis m).date.day =
      (Date.ofDay (m / 86400000)).code := fun _ => rfl
  simp only [encode, hcode]
  by_cases hday : s / 86400000 < t / 86400000
  · have hc := Date.code_ofDay_lt hday
    cases g <;> simp only <;> omega
  · have heq : s / 86400000 = t / 86400000 := by
      cases g <;> simp only [Granularity.unitMillis] at h <;> omega
    have hcodes := timeCode_lt (a := (s % 86400000).toNat / 1000) (b := (t % 86400000).toNat / 1000)
    simp only [heq, ofMillis]
    cases g <;> simp only [Granularity.unitMillis] at h ⊢ <;> omega

theorem encode_ofMillis_mono {s t : Int} (h : s ≤ t) (g : Granularity) :
    (ofMillis s).encode g ≤ (ofMillis t).encode g := by
  have hunit : (0 : Int) < g.unitMillis := by have := g.unitMillis_pos; omega
  have hle := Int.ediv_le_ediv hunit h
  by_cases hlt : s / g.unitMillis < t / g.unitMillis
  · exact Int.le_of_lt (encode_lt hlt)
  · have heq : s / g.unitMillis = t / g.unitMillis := by omega
    have hsame : (ofMillis s).encode g = (ofMillis t).encode g := by rw [← encode_start s, ← encode_start t, heq]
    exact Int.le_of_eq hsame

theorem encode_lt_iff (s t : Int) (g : Granularity) :
    (ofMillis s).encode g < (ofMillis t).encode g ↔ s / g.unitMillis < t / g.unitMillis := by
  refine ⟨fun h => ?_, encode_lt⟩
  by_cases hle : t / g.unitMillis ≤ s / g.unitMillis
  · have hstart := encode_ofMillis_mono
      (Int.mul_le_mul_of_nonneg_right hle (show (0 : Int) ≤ g.unitMillis by omega)) g
    rw [encode_start, encode_start] at hstart
    omega
  · omega

end CivilTime

/-- The milliseconds of the years 1970 to 9999. -/
def millisTo9999 : Int := 253402300800000

example : millisTo9999 = Date.yearStart 10000 * 86400000 := by decide

namespace TimeBucket

theorem year_ofMillis {x y m : Int} (h0 : Date.yearStart x * 86400000 ≤ m)
    (h1 : m < Date.yearStart y * 86400000) :
    x ≤ (CivilTime.ofMillis m).date.year ∧ (CivilTime.ofMillis m).date.year < y :=
  Date.yearOf_bounds (show Date.yearStart x ≤ m / 86400000 by omega) (by omega)

/-- From the year 0 on a bucket is the number that the digits of its time denote, as long as the
date can be told. -/
theorem toNat_ofMillis_of_told {m : Int64} (h0 : 0 ≤ (CivilTime.ofMillis m.toInt).date.year)
    (htold : yearIsTold (CivilTime.ofMillis m.toInt).date.year = true) (g : Granularity) :
    ((ofMillis m g).value.toNat : Int) = (CivilTime.ofMillis m.toInt).encode g := by
  have hparts := CivilTime.parts_ofMillis m.toInt
  have hcond : ¬ ((CivilTime.ofMillis m.toInt).date.year < 0 ∨
      yearIsTold (CivilTime.ofMillis m.toInt).date.year = false) := by
    rw [htold]
    simp only [Bool.true_eq_false, or_false]
    omega
  simp only [yearIsTold, Bool.and_eq_true, decide_eq_true_eq] at htold
  have hcode : 0 ≤ (CivilTime.ofMillis m.toInt).encode g ∧
      (CivilTime.ofMillis m.toInt).encode g < 10000000000000000 := by
    unfold CivilTime.encode
    cases g <;> simp only <;> omega
  unfold ofMillis
  simp only [if_neg hcond, ofNat, UInt64.toNat_ofNat']
  omega

theorem toNat_ofMillis {m : Int64} (h0 : 0 ≤ (CivilTime.ofMillis m.toInt).date.year)
    (h1 : (CivilTime.ofMillis m.toInt).date.year < 10000) (g : Granularity) :
    ((ofMillis m g).value.toNat : Int) = (CivilTime.ofMillis m.toInt).encode g := by
  refine toNat_ofMillis_of_told h0 ?_ g
  simp only [yearIsTold, Bool.and_eq_true, decide_eq_true_eq]
  omega

end TimeBucket

namespace Instant

/-- The instant lies in the years 1970 to 9999. -/
def InEra (t : Instant) : Prop := 0 ≤ t.nanos ∧ t.nanos < millisTo9999 * 1000000

theorem inEra_epoch : epoch.InEra := ⟨by decide, by decide⟩

theorem toInt_millis {t : Instant} (h : t.InEra) : t.millis.toInt = t.nanos / 1000000 := by
  unfold InEra millisTo9999 at h
  have hlo : Int64.minValue.toInt = -9223372036854775808 := by decide
  have hhi : Int64.maxValue.toInt = 9223372036854775807 := by decide
  unfold millis Int64.ofIntClamp
  split
  · split
    · rw [Int64.toInt_ofIntLE]
      omega
    · omega
  · omega

theorem inEra_back {t : Instant} (h : t.InEra) (w : Duration) : (t.back w).InEra := by
  unfold InEra millisTo9999 back at *
  simp only
  omega

theorem year_millis {t : Instant} (h : t.InEra) :
    1970 ≤ (CivilTime.ofMillis t.millis.toInt).date.year ∧
      (CivilTime.ofMillis t.millis.toInt).date.year < 10000 := by
  have hm := toInt_millis h
  have first : Date.yearStart 1970 = 0 := by decide
  have last : Date.yearStart 10000 = 2932897 := by decide
  unfold InEra millisTo9999 at h
  apply TimeBucket.year_ofMillis
  · omega
  · omega

end Instant

namespace TimeBucket

/-- With a clock in the years 1970 to 9999 the cutoff is the bucket of the window's start. -/
theorem toNat_cutoff {t : Instant} {w : Duration} (h : t.InEra) (g : Granularity) :
    ((cutoff t w g).value.toNat : Int) = (CivilTime.ofMillis ((t.back w).nanos / 1000000)).encode g := by
  have hback := Instant.inEra_back h w
  have hy := Instant.year_millis hback
  rw [← Instant.toInt_millis hback]
  exact toNat_ofMillis (by omega) (by omega) g

theorem cutoff_mono {s t : Instant} {v w : Duration} (hs : s.InEra) (ht : t.InEra)
    (hback : (s.back v).nanos ≤ (t.back w).nanos) (g : Granularity) :
    (cutoff s v g).value ≤ (cutoff t w g).value := by
  have es := toNat_cutoff (w := v) hs g
  have et := toNat_cutoff (w := w) ht g
  have hle := CivilTime.encode_ofMillis_mono (s := (s.back v).nanos / 1000000)
    (t := (t.back w).nanos / 1000000) (by omega) g
  rw [UInt64.le_iff_toNat_le]
  omega

/-- Whatever has expired for one cutoff has expired for every later one. -/
theorem isExpired_of_back_le {b : TimeBucket} {s t : Instant} {v w : Duration} (hs : s.InEra) (ht : t.InEra)
    (hback : (s.back v).nanos ≤ (t.back w).nanos) (h : b.isExpired s v = true) : b.isExpired t w = true := by
  unfold isExpired at *
  cases hg : b.granularity? with
  | none => simp [hg] at h
  | some g =>
    simp only [hg, decide_eq_true_eq] at h ⊢
    exact UInt64.lt_of_lt_of_le h (cutoff_mono hs ht hback g)

/-- A bucket that has expired stays expired as the clock goes on. -/
theorem isExpired_mono {b : TimeBucket} {s t : Instant} {w : Duration} (hs : s.InEra) (ht : t.InEra)
    (hst : s.nanos ≤ t.nanos) (h : b.isExpired s w = true) : b.isExpired t w = true := by
  refine isExpired_of_back_le hs ht ?_ h
  simp only [Instant.back]
  omega

/-- What is inside the window when it is taken in is inside twice the window until the window
has gone by. -/
theorem not_isExpired_of_double {b : TimeBucket} {s t : Instant} {w d : Duration} (hs : s.InEra) (ht : t.InEra)
    (hd : w.double? = some d) (hst : t.nanos ≤ s.nanos + w.nanos) (h : b.isExpired s w = false) :
    b.isExpired t d = false := by
  cases he : b.isExpired t d with
  | false => rfl
  | true =>
    rw [Duration.double?_eq_some_iff] at hd
    have hlate := isExpired_of_back_le (v := d) (w := w) ht hs (by simp only [Instant.back]; omega) he
    rw [h] at hlate
    cases hlate

end TimeBucket
end TraceRollup
