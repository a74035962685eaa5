/-!
# The proleptic Gregorian calendar

Days are counted from 1970-01-01. `Date.toDay` counts the days of a date and `Date.ofDay`
finds the date of a day; years may be zero or negative.
-/

namespace TraceRollup

/-- Day `day` of month `month` (both from 1) of a year. -/
structure Date where
  year : Int
  month : Nat
  day : Nat
  deriving DecidableEq, Repr

namespace Date

/-! ### Years -/

def isLeap (year : Int) : Bool := year % 4 = 0 ∧ (year % 100 ≠ 0 ∨ year % 400 = 0)

def daysInYear (year : Int) : Nat := if isLeap year then 366 else 365

/-- Days from 1970-01-01 to the first day of a year. -/
def yearStart (year : Int) : Int :=
  365 * year + (year + 3) / 4 - (year + 99) / 100 + (year + 399) / 400 - 719528

theorem yearStart_succ (year : Int) : yearStart (year + 1) = yearStart year + daysInYear year := by
  have leap : (isLeap year = true) ↔ year % 4 = 0 ∧ (year % 100 ≠ 0 ∨ year % 400 = 0) := by
    simp [isLeap]
  unfold daysInYear
  by_cases h : isLeap year
  · rw [if_pos h]
    have := leap.1 h
    unfold yearStart; omega
  · rw [if_neg h]
    have : ¬ (year % 4 = 0 ∧ (year % 100 ≠ 0 ∨ year % 400 = 0)) := fun hl => h (leap.2 hl)
    unfold yearStart; omega

/-- A year starts within two days of its multiple of the mean length 146097 / 400. -/
theorem yearStart_bounds (year : Int) :
    146097 * year - 396 ≤ 400 * (yearStart year + 719528) ∧
      400 * (yearStart year + 719528) ≤ 146097 * year + 699 := by
  unfold yearStart
  omega

/-- The year that contains a day: an estimate from the mean length of a year, which is off by
at most one, put right. -/
def yearOf (day : Int) : Int :=
  let y := (400 * (day + 719528)) / 146097
  if day < yearStart y then y - 1 else if yearStart (y + 1) ≤ day then y + 1 else y

theorem yearStart_yearOf (day : Int) :
    yearStart (yearOf day) ≤ day ∧ day < yearStart (yearOf day + 1) := by
  have key : ∀ y : Int, y = 400 * (day + 719528) / 146097 →
      yearStart (y - 1) ≤ day ∧ day < yearStart (y + 2) := by
    intro y hy
    have h1 := yearStart_bounds (y - 1)
    have h2 := yearStart_bounds (y + 2)
    constructor <;> omega
  have hk := key _ rfl
  unfold yearOf
  simp only
  split
  · exact ⟨hk.1, by rw [Int.sub_add_cancel]; assumption⟩
  · split
    · exact ⟨by assumption, by rw [Int.add_assoc]; exact hk.2⟩
    · constructor <;> omega

/-! ### Months -/

def monthLengths (leap : Bool) : List Nat :=
  [31, if leap then 29 else 28, 31, 30, 31, 30, 31, 31, 30, 31, 30, 31]

def daysInMonth (year : Int) (month : Nat) : Nat :=
  if month = 0 then 0 else (monthLengths (isLeap year)).getD (month - 1) 0

def monthStart (year : Int) (month : Nat) : Nat :=
  ((monthLengths (isLeap year)).take (month - 1)).foldr (· + ·) 0

/-- The month, counted on from `month`, and the day of the month, both from 1, of the day with
offset `offset` from the start of `month`. -/
def monthAndDay : List Nat → (month offset : Nat) → Nat × Nat
  | [], month, offset => (month, offset + 1)
  | len :: rest, month, offset =>
    if offset < len then (month, offset + 1) else monthAndDay rest (month + 1) (offset - len)

/-! ### Dates -/

def isValid (d : Date) : Bool :=
  decide (1 ≤ d.month) && decide (d.month ≤ 12) && decide (1 ≤ d.day) &&
    decide (d.day ≤ daysInMonth d.year d.month)

/-- The day of a date, counted from 1970-01-01. -/
def toDay (d : Date) : Int := yearStart d.year + monthStart d.year d.month + (d.day - 1 : Int)

def ofDay (day : Int) : Date :=
  let year := yearOf day
  let md := monthAndDay (monthLengths (isLeap year)) 1 (day - yearStart year).toNat
  ⟨year, md.1, md.2⟩

example : ofDay 0 = ⟨1970, 1, 1⟩ := by decide
example : ofDay 17532 = ⟨2018, 1, 1⟩ := by decide
example : ofDay (-1) = ⟨1969, 12, 31⟩ := by decide
example : (⟨2000, 2, 29⟩ : Date).toDay = 11016 ∧ ofDay 11016 = ⟨2000, 2, 29⟩ := by decide

end Date
end TraceRollup
