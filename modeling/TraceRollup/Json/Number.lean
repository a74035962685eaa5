import TraceRollup.Json.Basic
import TraceRollup.Binary64.Text

/-!
# Numbers of a JSON text

A number without fraction and exponent is a whole number when it fits 64 bits, signed or
unsigned. Any other number is a double made in two rounded steps: the leading digits that
fit 64 bits become the nearest double, which is then multiplied or divided by the double
nearest to a power of ten. The result can differ from the nearest double in its last bit.
-/

namespace TraceRollup.Json

/-- The parts of a number as written: digits most significant first, the exponent with its
sign. -/
structure NumberText where
  negative : Bool
  whole : List Nat
  fraction : Option (List Nat)
  exponent : Option (Bool × List Nat)

/-- Takes up digits as long as the number made of them fits 64 bits. -/
def absorb : Nat → List Nat → Nat × List Nat
  | s, [] => (s, [])
  | s, d :: rest => if s * 10 + d < 18446744073709551616 then absorb (s * 10 + d) rest else (s, d :: rest)

/-- The exponent a digit string denotes, if it fits 31 bits. -/
def exponentValue? (digits : List Nat) : Option Int :=
  let n : Nat := digits.foldl (fun s d => s * 10 + d) 0
  if n < 2147483648 then some n else none

def clampExponent (e : Int) : Int := max (-2147483648) (min 2147483647 e)

def tenTo (k : Nat) : Binary64 := Binary64.ofDecimal false 1 k

/-- `x · 10 ^ e` in steps that each round; `none` if it is beyond the doubles. A negative
exponent below -308 takes several divisions (`fuel` bounds them). -/
def scaleTen : Nat → Binary64 → Int → Option Binary64
  | 0, x, _ => some x
  | fuel + 1, x, e =>
    if e.natAbs ≤ 308 then
      if 0 ≤ e then
        let y := x.mul (tenTo e.natAbs)
        if y.isInfinite then none else some y
      else some (x.div (tenTo e.natAbs))
    else if x.isZero then some x
    else if 0 ≤ e then none
    else scaleTen fuel (x.div (tenTo 308)) (e + 308)

/-- The double of a significand and a power of ten, with its sign. -/
def doubleOf (negative : Bool) (significand : Nat) (e : Int) : Json :=
  match scaleTen 8 (Binary64.ofInt significand) e with
  | none => .unreadable
  | some x => .float (if negative then x.neg else x)

/-- A number with an exponent whose digits do not fit: zero, unless it would be huge. -/
def extremeOf (negative : Bool) (significand : Nat) (upwards : Bool) : Json :=
  if significand ≠ 0 ∧ upwards then .unreadable else .float (Binary64.zero negative)

def ofNumber (t : NumberText) : Json :=
  let w := absorb 0 t.whole
  let f := absorb w.1 (t.fraction.getD [])
  let shift : Int := Int.ofNat w.2.length - Int.ofNat ((t.fraction.getD []).length - f.2.length)
  match t.fraction, t.exponent with
  | none, none =>
    if w.2 ≠ [] then doubleOf t.negative w.1 w.2.length
    else if !t.negative then .int w.1
    else if w.1 = 0 ∨ 9223372036854775808 < w.1 then doubleOf true w.1 0
    else .int (-Int.ofNat w.1)
  | _, none => doubleOf t.negative f.1 shift
  | _, some (upwards, digits) =>
    match exponentValue? digits with
    | none => extremeOf t.negative f.1 upwards
    | some e => doubleOf t.negative f.1 (clampExponent (if upwards then shift + e else shift - e))

end TraceRollup.Json
