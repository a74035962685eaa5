import TraceRollup.Duration

/-!
# Timers

A timer strikes again and again, one interval after its start, two intervals after, and so on.
Times are nanoseconds on a clock that only runs forward, and that tells less than `2 ^ 63`
seconds.
-/

namespace TraceRollup

/-- The time on a clock that only runs forward when a duration will be over, if the clock can tell it. -/
def Duration.deadline? (d : Duration) (now : Nat) : Option Nat :=
  if now + d.nanos < 9223372036854775808000000000 then some (now + d.nanos) else none

structure Timer where
  start : Nat
  interval : Duration
  deriving DecidableEq

namespace Timer

/-- How often the timer has struck by a time. One without an interval never strikes. -/
def struckBy (t : Timer) (time : Nat) : Nat := (time - t.start) / t.interval.nanos

def strikes (t : Timer) (after upTo : Nat) : List Nat :=
  (List.range (t.struckBy upTo - t.struckBy after)).map fun i =>
    t.start + (t.struckBy after + i + 1) * t.interval.nanos

theorem struckBy_eq_zero_of_interval {t : Timer} (h : t.interval.nanos = 0) (time : Nat) : t.struckBy time = 0 := by
  simp [struckBy, h]

/-- The jobs that fall due after one time and up to another, in order of time and, at one time, in
the order of their timers. -/
def dueJobs {α : Type} (timers : List (Timer × α)) (after upTo : Nat) : List α :=
  ((timers.flatMap fun t => (t.1.strikes after upTo).map fun time => (time, t.2)).mergeSort
    fun a b => decide (a.1 ≤ b.1)).map Prod.snd

theorem le_of_mem_strikes {t : Timer} {after upTo time : Nat} (h : time ∈ t.strikes after upTo) :
    time ≤ max upTo t.start := by
  unfold strikes at h
  simp only [List.mem_map, List.mem_range] at h
  obtain ⟨i, hi, rfl⟩ := h
  have hk : t.struckBy after + i + 1 ≤ t.struckBy upTo := by omega
  have hm : (t.struckBy after + i + 1) * t.interval.nanos ≤ upTo - t.start :=
    Nat.le_trans (Nat.mul_le_mul_right _ hk) (Nat.div_mul_le_self _ _)
  have hpos : 0 < t.struckBy upTo := by omega
  have : t.start ≤ upTo := by
    rcases Nat.lt_or_ge upTo t.start with h' | h'
    · have : upTo - t.start = 0 := by omega
      simp [struckBy, this] at hpos
    · exact h'
  omega

end Timer
end TraceRollup
