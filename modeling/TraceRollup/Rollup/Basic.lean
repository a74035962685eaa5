import TraceRollup.Json.Basic
import TraceRollup.TimeBucket

/-!
# Records that can be rolled up

A record belongs to a key: its subject and its time bucket, written as `Rollup.id`. Records
of one key merge into one, and a running total can be reduced to what it holds beyond an
earlier total of the same run (`Rollup.since?`). Counters are 64-bit numbers that stop at
the largest one.
-/

namespace TraceRollup

/-! ### Counters -/

namespace Counter

/-- The sum, or the nearest 64-bit number if it does not fit. -/
def add (a b : Int64) : Int64 := Int64.ofIntClamp (a.toInt + b.toInt)

/-- Why a counter has no difference to an earlier reading. -/
inductive Stop
  | restarted
  | overflow
  deriving DecidableEq

/-- How far a counter has come since an earlier reading. One that fell back was restarted. -/
def advance (now base : Int64) : Except Stop Int64 :=
  if now < base then .error .restarted
  else
    let d := now.toInt - base.toInt
    if d ≤ 9223372036854775807 then .ok (Int64.ofInt d) else .error .overflow

theorem toInt_add (a b : Int64) :
    (add a b).toInt = max (-9223372036854775808) (min 9223372036854775807 (a.toInt + b.toInt)) := by
  have hlo : Int64.minValue.toInt = -9223372036854775808 := by decide
  have hhi : Int64.maxValue.toInt = 9223372036854775807 := by decide
  unfold add Int64.ofIntClamp
  split
  · split
    · rw [Int64.toInt_ofIntLE]; omega
    · omega
  · omega

end Counter

/-! ### Records -/

/-- How a batch of totals combines with the row already stored. -/
inductive MergeMode
  | additive
  | replace
  deriving DecidableEq, Repr

/-- What the stages of a pipeline need to know of the records that flow through it. -/
class Rollup (α : Type) where
  /-- Names the record on the wire, and its table. -/
  tag : String
  mode : MergeMode
  /-- The key: subject and time bucket. -/
  id : α → String
  bucket : α → TimeBucket
  /-- Folds the second record into the first. -/
  merge : α → α → α
  /-- What a running total holds beyond an earlier one; the whole total if it was restarted in
  between. There is none when a difference of counters does not fit 64 bits. -/
  since? : α → α → Option α
  encode : α → Json
  decode? : Json → Option α

namespace Rollup
variable {α : Type} [Rollup α]

/-- The key that decides which node owns the record. -/
def routingKey (a : α) : String := id a

/-- Folds a list of records from the left. -/
def mergeAll : List α → Option α
  | [] => none
  | a :: rest => some (rest.foldl merge a)

end Rollup
end TraceRollup
