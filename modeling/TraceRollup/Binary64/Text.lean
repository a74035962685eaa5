import TraceRollup.Binary64

/-!
# Decimal texts of doubles

`shortest` finds the fewest decimal digits that read back as a given magnitude, and of
those the nearest to it. Three texts are made from digits: `positional` never uses an
exponent, `scientific` switches to one outside a middle range, and `fixed` has a given
number of places. `ofDecimal` reads a decimal exactly.
-/

namespace TraceRollup.Binary64

/-! ### Shortest digits -/

/-- A magnitude `num / den` with the ends `low / den` and `high / den` of the interval that
rounds to it; the ends belong to it when `closed` holds. -/
structure Interval where
  low : Nat
  num : Nat
  high : Nat
  den : Nat
  closed : Bool

/-- The numbers that round to `mantissa · 2 ^ exponent`. The lower neighbour of a power of
two is half as far away, unless it lies among the smallest doubles. -/
def interval (mantissa : Nat) (exponent : Int) : Interval :=
  let gapBelow := if mantissa = exponentWeight ∧ -1074 < exponent then 1 else 2
  let scale := exponent - 2
  let up := if 0 ≤ scale then Nat.pow 2 scale.toNat else 1
  let down := if 0 ≤ scale then 1 else Nat.pow 2 (-scale).toNat
  { low := (4 * mantissa - gapBelow) * up, num := 4 * mantissa * up, high := (4 * mantissa + 2) * up,
    den := down, closed := mantissa % 2 = 0 }

def Interval.holds (i : Interval) (a b : Nat) : Bool :=
  if i.closed then decide (i.low * b ≤ a * i.den) && decide (a * i.den ≤ i.high * b)
  else decide (i.low * b < a * i.den) && decide (a * i.den < i.high * b)

def powTen (d : Nat) (k : Int) : Nat × Nat :=
  if 0 ≤ k then (d * Nat.pow 10 k.toNat, 1) else (d, Nat.pow 10 (-k).toNat)

/-- The point of the grid of step `10 ^ k` that lies in the interval, the nearer one of two;
of two equally near ones the upper. -/
def Interval.gridPoint? (i : Interval) (k : Int) : Option Nat :=
  let below := if 0 ≤ k then i.num / (i.den * Nat.pow 10 k.toNat) else i.num * Nat.pow 10 (-k).toNat / i.den
  let inside (d : Nat) : Bool := let f := powTen d k; i.holds f.1 f.2
  let lower := powTen below k
  let upper := powTen (below + 1) k
  let upperNearer : Bool :=
    decide (upper.1 * i.den * lower.2 - i.num * upper.2 * lower.2 ≤
      i.num * lower.2 * upper.2 - lower.1 * i.den * upper.2)
  match inside below, inside (below + 1) with
  | true, true => some (if upperNearer then below + 1 else below)
  | true, false => some below
  | false, true => some (below + 1)
  | false, false => none

/-- The grids of steps `10 ^ k`, `10 ^ (k - 1)`, … (`fuel` of them) in turn. -/
def Interval.firstGridPoint (i : Interval) : Nat → Int → Nat × Int
  | 0, k => (0, k)
  | fuel + 1, k =>
    match i.gridPoint? k with
    | some d => if d = 0 then i.firstGridPoint fuel (k - 1) else (d, k)
    | none => i.firstGridPoint fuel (k - 1)

/-- The number of decimal digits of `num / den` before the point, or an upper bound one above
it; for a magnitude below one the count is negative or zero. -/
def decimalExponent (num den : Nat) : Int :=
  Int.ofNat (toString num).length - Int.ofNat (toString den).length + 1

/-- Drops trailing zeros, raising the exponent (`fuel` bounds how many). -/
def stripZeros : Nat → Nat → Int → Nat × Int
  | 0, d, k => (d, k)
  | fuel + 1, d, k => if d ≠ 0 ∧ d % 10 = 0 then stripZeros fuel (d / 10) (k + 1) else (d, k)

/-- Fewest digits `d` and exponent `k` such that `d · 10 ^ k` rounds to the magnitude. -/
def shortest (mantissa : Nat) (exponent : Int) : Nat × Int :=
  if mantissa = 0 then (0, 0)
  else
    let i := interval mantissa exponent
    let r := i.firstGridPoint 20 (decimalExponent i.num i.den)
    stripZeros 20 r.1 r.2

/-! ### Texts -/

def zeros (n : Nat) : String := String.ofList (List.replicate n '0')

/-- Digits `d · 10 ^ k` written without an exponent; a whole number has no point. -/
def positionalDigits (d : Nat) (k : Int) : String :=
  let ds := toString d
  if 0 ≤ k then ds ++ zeros k.toNat
  else
    let places := (-k).toNat
    if places < ds.length then
      String.ofList (ds.toList.take (ds.length - places)) ++ "." ++
        String.ofList (ds.toList.drop (ds.length - places))
    else "0." ++ zeros (places - ds.length) ++ ds

/-- The text without an exponent: `1000`, `0.25`, `-0`, `NaN`, `inf`. -/
def positional (x : Binary64) : String :=
  match x.view with
  | .notANumber => "NaN"
  | .infinite s => if s then "-inf" else "inf"
  | .finite s m e =>
    let r := shortest m e
    (if s then "-" else "") ++ (if m = 0 then "0" else positionalDigits r.1 r.2)

/-- The text of a finite number that keeps a point and moves to an exponent from `10 ^ 16`
upwards and below `10 ^ -5`: `1.0`, `0.25`, `1e300`, `1.5e-7`. -/
def scientific (x : Binary64) : String :=
  match x.view with
  | .finite s m e =>
    let r := shortest m e
    let ds := toString r.1
    let point := Int.ofNat ds.length + r.2
    let body :=
      if m = 0 then "0.0"
      else if 0 ≤ r.2 ∧ point ≤ 16 then positionalDigits r.1 r.2 ++ ".0"
      else if 0 < point ∧ point ≤ 16 then positionalDigits r.1 r.2
      else if -5 < point ∧ point ≤ 0 then positionalDigits r.1 r.2
      else
        let tail := String.ofList (ds.toList.drop 1)
        String.ofList (ds.toList.take 1) ++ (if tail = "" then "" else "." ++ tail) ++ "e" ++
          toString (point - 1)
    (if s then "-" else "") ++ body
  | _ => "null"

/-- The text with exactly `places` decimals, rounded from the exact value, a tie to even. -/
def fixed (places : Nat) (x : Binary64) : String :=
  match x.view with
  | .notANumber => "NaN"
  | .infinite s => if s then "-inf" else "inf"
  | .finite s m e =>
    let f := fraction m e
    let d := roundDiv (f.1 * Nat.pow 10 places) f.2
    let whole := toString (d / Nat.pow 10 places)
    let frac := toString (d % Nat.pow 10 places)
    let body := if places = 0 then whole else whole ++ "." ++ zeros (places - frac.length) ++ frac
    (if s then "-" else "") ++ body

/-! ### Reading -/

/-- The double nearest to `± digits · 10 ^ exponent`. -/
def ofDecimal (negative : Bool) (digits : Nat) (exponent : Int) : Binary64 :=
  let top := Int.ofNat (toString digits).length + exponent
  if digits = 0 ∨ top < -400 then zero negative
  else if 400 < top then infinity negative
  else
    let f := powTen digits exponent
    roundRatio negative f.1 f.2

end TraceRollup.Binary64
