import TraceRollup.Duration

/-!
# Durations in words

A duration is written as a sum of parts such as `1h 30m` or `1.5s`: a number, which may have a
fraction, and a unit. Blanks may stand between parts and within numbers. `0` alone needs no
unit. All arithmetic is on 64-bit numbers; what does not fit is refused.
-/

namespace TraceRollup

namespace Duration

/-! ### Units -/

inductive TimeUnit
  | nano | micro | milli | second | minute | hour | day | week | month | year
  deriving DecidableEq, Repr

namespace TimeUnit

def ofName? : String → Option TimeUnit
  | "nanos" | "nsec" | "ns" => some .nano
  | "usec" | "us" | "µs" => some .micro
  | "millis" | "msec" | "ms" => some .milli
  | "seconds" | "second" | "secs" | "sec" | "s" => some .second
  | "minutes" | "minute" | "min" | "mins" | "m" => some .minute
  | "hours" | "hour" | "hrs" | "hr" | "h" => some .hour
  | "days" | "day" | "d" => some .day
  | "weeks" | "week" | "wk" | "wks" | "w" => some .week
  | "months" | "month" | "M" => some .month
  | "years" | "year" | "yr" | "yrs" | "y" => some .year
  | _ => none

/-- Whole seconds in a unit; 0 for the units below. A month has 30.44 days and a year 365.25. -/
def seconds : TimeUnit → Nat
  | .nano | .micro | .milli => 0
  | .second => 1
  | .minute => 60
  | .hour => 3600
  | .day => 86400
  | .week => 604800
  | .month => 2630016
  | .year => 31557600

/-- Nanoseconds in a unit below the second. -/
def subNanos : TimeUnit → Nat
  | .nano => 1
  | .micro => 1000
  | .milli => 1000000
  | _ => 0

/-- Nanoseconds in a unit, as far as its fractions are counted in them; fractions of the longer
units are counted in seconds. -/
def fractionNanos : TimeUnit → Nat
  | .second => 1000000000
  | .minute => 60000000000
  | u => u.subNanos

end TimeUnit

/-! ### Parts -/

/-- A space in the widest sense. -/
def isSpace (c : Char) : Bool :=
  let n := c.toNat
  decide (9 ≤ n ∧ n ≤ 13) || n == 0x20 || n == 0x85 || n == 0xA0 || n == 0x1680 || decide (0x2000 ≤ n ∧ n ≤ 0x200A) ||
    n == 0x2028 || n == 0x2029 || n == 0x202F || n == 0x205F || n == 0x3000

def isUnitLetter (c : Char) : Bool := c.isAlpha || c == 'µ'

def fits (n : Nat) : Option Nat := if n < 18446744073709551616 then some n else none

/-- Digits, with spaces among them, up to a letter, a point or the end. -/
def wholeNumber (n : Nat) : List Char → Option (Nat × List Char)
  | [] => some (n, [])
  | c :: rest =>
    if c.isDigit then do wholeNumber (← fits (n * 10 + (c.toNat - 48))) rest
    else if isSpace c then wholeNumber n rest
    else if isUnitLetter c || c == '.' then some (n, c :: rest)
    else none

/-- The digits after a point, with spaces among them, up to a letter or the end: the number over
a power of ten. There is at least one digit. -/
def fraction (num den : Nat) : List Char → Option (Nat × Nat × List Char)
  | [] => if den = 1 then none else some (num, den, [])
  | c :: rest =>
    if c.isDigit then do fraction (num * 10 + (c.toNat - 48)) (← fits (den * 10)) rest
    else if isSpace c then fraction num den rest
    else if isUnitLetter c then (if den = 1 then none else some (num, den, c :: rest))
    else none

def addTo (d : Duration) (seconds nanos : Nat) : Option Duration := do
  let _ ← fits (d.subNanos + nanos)
  ofNanos? (d.nanos + seconds * 1000000000 + nanos)

def addUnits (d : Duration) (u : TimeUnit) (n : Nat) (frac : Option (Nat × Nat)) : Option Duration := do
  let d ← d.addTo (← fits (n * u.seconds)) (← fits (n * u.subNanos))
  match frac with
  | none => return d
  | some (num, den) =>
    let perUnit := u.fractionNanos
    if perUnit = 0 then d.addTo ((← fits (num * u.seconds)) / den) 0
    else d.addTo 0 ((← fits (num * perUnit)) / den)

/-- Adds the parts that are still to be read; `fuel` bounds their number. -/
def parts : Nat → Duration → List Char → Option Duration
  | 0, _, _ => none
  | fuel + 1, d, cs => do
    let (n, rest) ← wholeNumber 0 cs
    let (frac, rest) ← match rest with
      | '.' :: digits => do
        let (num, den, rest) ← fraction 0 1 digits
        pure (some (num, den), rest)
      | rest => pure (none, rest)
    let u ← TimeUnit.ofName? (String.ofList (rest.takeWhile isUnitLetter))
    let d ← d.addUnits u n frac
    let after := rest.dropWhile isUnitLetter
    match after.dropWhile isSpace with
    | [] => return d
    | c :: more => if c.isDigit then parts fuel d (c :: more) else none

def parse (text : String) : Option Duration :=
  if text = "0" then some zero
  else
    match text.toList.dropWhile isSpace with
    | c :: rest => if c.isDigit then parts (rest.length + 1) zero (c :: rest) else none
    | [] => none

end Duration
end TraceRollup
