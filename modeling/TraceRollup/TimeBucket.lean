import TraceRollup.Calendar
import TraceRollup.Duration

/-!
# Time buckets

A time bucket is a UTC second, minute, hour or day, written as the decimal digits of its
date and time (`yyyyMMddHHmm` for a minute) and kept as that number, so that buckets of one
granularity compare as numbers. The granularity is read off the number of digits.
`TimeBucket.ofMillis` encodes, `TimeBucket.start?` decodes, and `TimeBucket.isExpired`
compares a bucket with the oldest one inside a window.
-/

namespace TraceRollup

/-! ### Granularity -/

inductive Granularity
  | second | minute | hour | day
  deriving DecidableEq, Repr

namespace Granularity

def name : Granularity → String
  | .second => "second"
  | .minute => "minute"
  | .hour => "hour"
  | .day => "day"

def all : List Granularity := [.second, .minute, .hour, .day]

def ofName? (s : String) : Option Granularity := all.find? fun g => g.name == s

/-- Number of digits of a bucket with a four-digit year. -/
def digits : Granularity → Nat
  | .second => 14
  | .minute => 12
  | .hour => 10
  | .day => 8

/-- Length of the unit in milliseconds. -/
def unitMillis : Granularity → Nat
  | .second => 1000
  | .minute => 60000
  | .hour => 3600000
  | .day => 86400000

end Granularity

/-! ### Times of day -/

/-- A UTC date and time to the second. A leap second is second 60. -/
structure CivilTime where
  date : Date
  hour : Nat
  minute : Nat
  second : Nat
  deriving DecidableEq, Repr

namespace CivilTime

/-- The time that contains a millisecond. -/
def ofMillis (millis : Int) : CivilTime :=
  let s := (millis % 86400000).toNat / 1000
  ⟨Date.ofDay (millis / 86400000), s / 3600, s / 60 % 60, s % 60⟩

def toMillis (t : CivilTime) : Int :=
  t.date.toDay * 86400000 + ((t.hour * 60 + t.minute) * 60 + t.second : Nat) * 1000

def isValid (t : CivilTime) : Bool :=
  t.date.isValid && decide (t.hour < 24) && decide (t.minute < 60) && decide (t.second ≤ 60)

/-- The digits of year and month and so on down to the unit, as a number. -/
def encode (t : CivilTime) (g : Granularity) : Int :=
  let day := (t.date.year * 100 + t.date.month) * 100 + t.date.day
  match g with
  | .day => day
  | .hour => day * 100 + t.hour
  | .minute => (day * 100 + t.hour) * 100 + t.minute
  | .second => ((day * 100 + t.hour) * 100 + t.minute) * 100 + t.second

end CivilTime

/-! ### Buckets -/

/-- A time bucket, as the number that its digits denote. -/
structure TimeBucket where
  value : UInt64
  deriving DecidableEq, Inhabited

namespace TimeBucket

instance : ToString TimeBucket := ⟨fun b => toString b.value⟩

def ofNat (n : Nat) : TimeBucket := ⟨UInt64.ofNat n⟩

/-- Years whose dates can be told: all others share bucket 0. -/
def yearIsTold (year : Int) : Bool := decide (-262143 ≤ year) && decide (year ≤ 262142)

/-- The bucket that contains a millisecond. A year before 0 has a sign and so no number, which
is told as 0, as are years that are out of range. -/
def ofMillis (millis : Int64) (g : Granularity) : TimeBucket :=
  let t := CivilTime.ofMillis millis.toInt
  if t.date.year < 0 ∨ yearIsTold t.date.year = false then ofNat 0 else ofNat (t.encode g).toNat

/-- The bucket that contains an instant; the epoch's bucket before it. -/
def ofInstant (t : Instant) (g : Granularity) : TimeBucket := ofMillis t.millis g

/-- The granularity with as many digits as the bucket, if there is one. -/
def granularity? (b : TimeBucket) : Option Granularity :=
  let v := b.value.toNat
  if 10000000 ≤ v ∧ v < 100000000 then some .day
  else if 1000000000 ≤ v ∧ v < 10000000000 then some .hour
  else if 100000000000 ≤ v ∧ v < 1000000000000 then some .minute
  else if 10000000000000 ≤ v ∧ v < 100000000000000 then some .second
  else none

/-- The digits of the bucket read as a date and time, the parts below its unit being zero. -/
def civilTime (b : TimeBucket) (g : Granularity) : CivilTime :=
  let v := b.value.toNat
  let dateOf (day : Nat) : Date := ⟨(day / 10000 : Nat), day / 100 % 100, day % 100⟩
  match g with
  | .day => ⟨dateOf v, 0, 0, 0⟩
  | .hour => ⟨dateOf (v / 100), v % 100, 0, 0⟩
  | .minute => ⟨dateOf (v / 10000), v / 100 % 100, v % 100, 0⟩
  | .second => ⟨dateOf (v / 1000000), v / 10000 % 100, v / 100 % 100, v % 100⟩

/-- The first millisecond of the bucket, if its digits are a date and time. -/
def start? (b : TimeBucket) : Option Int64 := do
  let t := b.civilTime (← b.granularity?)
  if t.isValid then some (Int64.ofInt t.toMillis) else none

/-- The oldest bucket inside the window before `now`. -/
def cutoff (now : Instant) (window : Duration) (g : Granularity) : TimeBucket :=
  ofInstant (now.back window) g

/-- A bucket of a known granularity is expired when it is older than the cutoff. -/
def isExpired (b : TimeBucket) (now : Instant) (window : Duration) : Bool :=
  match b.granularity? with
  | some g => decide (b.value < (cutoff now window g).value)
  | none => false

example : ofMillis 1514810096789 .minute = ⟨201801011234⟩ := by decide +kernel
example : (⟨201801011234⟩ : TimeBucket).start? = some 1514810040000 := by decide +kernel

end TimeBucket
end TraceRollup
