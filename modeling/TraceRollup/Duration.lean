/-!
# Durations and instants

A duration is a whole number of nanoseconds below `2 ^ 64` seconds; an instant is a signed
number of nanoseconds from the epoch. `Instant.millis` reads an instant as milliseconds,
never before the epoch.
-/

namespace TraceRollup

/-! ### Durations -/

/-- A span of time, in nanoseconds. -/
structure Duration where
  nanos : Nat
  bounded : nanos < 18446744073709551616000000000
  deriving DecidableEq

namespace Duration

def ofNanos? (n : Nat) : Option Duration :=
  if h : n < 18446744073709551616000000000 then some ⟨n, h⟩ else none

def ofMillis (n : UInt64) : Duration :=
  ⟨n.toNat * 1000000, by have := n.toNat_lt; omega⟩

def ofSeconds (n : UInt64) : Duration :=
  ⟨n.toNat * 1000000000, by have := n.toNat_lt; omega⟩

def zero : Duration := ⟨0, by decide⟩
instance : Inhabited Duration := ⟨zero⟩

def isZero (d : Duration) : Bool := d.nanos == 0
def wholeSeconds (d : Duration) : Nat := d.nanos / 1000000000
def subNanos (d : Duration) : Nat := d.nanos % 1000000000
def wholeMillis (d : Duration) : Nat := d.nanos / 1000000

/-- Twice the duration, unless that is too long for one. -/
def double? (d : Duration) : Option Duration := ofNanos? (2 * d.nanos)

theorem double?_eq_some_iff {d e : Duration} : d.double? = some e ↔ e.nanos = 2 * d.nanos := by
  unfold double? ofNanos?
  constructor
  · intro h
    split at h
    · cases h; rfl
    · cases h
  · intro h
    have hb := e.bounded
    rw [h] at hb
    rw [dif_pos hb]
    congr 1
    cases e
    simp_all

end Duration

/-! ### Instants -/

/-- A point in time, in nanoseconds from the epoch. -/
structure Instant where
  nanos : Int
  deriving DecidableEq, Inhabited

namespace Instant

def epoch : Instant := ⟨0⟩

def ofMillis (millis : Int64) : Instant := ⟨millis.toInt * 1000000⟩

def add (t : Instant) (d : Duration) : Instant := ⟨t.nanos + d.nanos⟩

/-- The instant `window` earlier, but not before the epoch. -/
def back (t : Instant) (window : Duration) : Instant := ⟨max 0 (t.nanos - window.nanos)⟩

/-- Whole milliseconds since the epoch: 0 before it, and at most the largest 64-bit number. -/
def millis (t : Instant) : Int64 := Int64.ofIntClamp (max 0 t.nanos / 1000000)

/-- The time from `s` to `t`, if `s` is not later. -/
def since? (t s : Instant) : Option Nat := if s.nanos ≤ t.nanos then some (t.nanos - s.nanos).toNat else none

end Instant
end TraceRollup
