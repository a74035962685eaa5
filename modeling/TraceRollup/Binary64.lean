/-!
# Double-precision numbers

A double is its 64 bits: a sign, eleven bits of exponent and 52 bits of fraction. Every
operation here is exact arithmetic on natural numbers followed by one rounding to the
nearest double, a tie going to the even fraction (`roundRatio`).
-/

namespace TraceRollup

/-- A double-precision number, given by its bits. -/
structure Binary64 where
  bits : UInt64
  deriving DecidableEq, Inhabited

namespace Binary64

/-! ### What the bits mean -/

/-- The meaning of a double: a finite one is `± mantissa · 2 ^ exponent`. -/
inductive View
  | notANumber
  | infinite (negative : Bool)
  | finite (negative : Bool) (mantissa : Nat) (exponent : Int)
  deriving DecidableEq

/-- The weight of the sign bit, `2 ^ 63`. -/
def signWeight : Nat := 9223372036854775808

/-- The weight of the lowest exponent bit, `2 ^ 52`. -/
def exponentWeight : Nat := 4503599627370496

/-- The bits below the sign, as a number. -/
def magnitudeBits (x : Binary64) : Nat := x.bits.toNat % signWeight

def isNegative (x : Binary64) : Bool := decide (signWeight ≤ x.bits.toNat)

/-- The magnitude bits of infinity; larger ones are no numbers. -/
def infinityBits : Nat := 2047 * exponentWeight

def view (x : Binary64) : View :=
  let m := x.magnitudeBits
  if infinityBits < m then .notANumber
  else if m = infinityBits then .infinite x.isNegative
  else if m < exponentWeight then .finite x.isNegative m (-1074)
  else .finite x.isNegative (exponentWeight + m % exponentWeight) (Int.ofNat (m / exponentWeight) - 1075)

def ofMagnitude (negative : Bool) (m : Nat) : Binary64 :=
  ⟨UInt64.ofNat ((if negative then signWeight else 0) + m)⟩

def zero (negative : Bool) : Binary64 := ofMagnitude negative 0
def infinity (negative : Bool) : Binary64 := ofMagnitude negative infinityBits
def notANumber : Binary64 := ofMagnitude false (infinityBits + exponentWeight / 2)

/-! ### Rounding -/

/-- `num / den` rounded to the nearest integer, a tie to the even one. -/
def roundDiv (num den : Nat) : Nat :=
  let q := num / den
  let r := num % den
  if 2 * r < den then q else if den < 2 * r then q + 1 else q + q % 2

/-- `num / den` rounded to a multiple of `2 ^ e`, as the number of such steps. -/
def roundSteps (num den : Nat) (e : Int) : Nat :=
  if 0 ≤ e then roundDiv num (den * Nat.pow 2 e.toNat) else roundDiv (num * Nat.pow 2 (-e).toNat) den

/-- The exponent of the step that gives `num / den` a mantissa of 53 bits, and never less
than the step between the smallest doubles. -/
def stepExponent (num den : Nat) : Int :=
  let e := Int.ofNat num.log2 - Int.ofNat den.log2 - 52
  let short := if 0 ≤ e then num < den * Nat.pow 2 (e.toNat + 52) else num * Nat.pow 2 (-e).toNat < den * exponentWeight
  max (-1074) (if short then e - 1 else e)

/-- The double nearest to `± num / den`; beyond the largest one it is infinite. -/
def roundRatio (negative : Bool) (num den : Nat) : Binary64 :=
  if num = 0 then zero negative
  else
    let e := stepExponent num den
    ofMagnitude negative (min infinityBits ((e + 1074).toNat * exponentWeight + roundSteps num den e))

def ofInt (n : Int) : Binary64 := roundRatio (decide (n < 0)) n.natAbs 1

/-! ### Arithmetic -/

/-- A finite magnitude `mantissa · 2 ^ exponent` as a fraction. -/
def fraction (mantissa : Nat) (exponent : Int) : Nat × Nat :=
  if 0 ≤ exponent then (mantissa * Nat.pow 2 exponent.toNat, 1) else (mantissa, Nat.pow 2 (-exponent).toNat)

def neg (x : Binary64) : Binary64 := ofMagnitude (!x.isNegative) x.magnitudeBits

def mul (x y : Binary64) : Binary64 :=
  match x.view, y.view with
  | .notANumber, _ | _, .notANumber => notANumber
  | .infinite s, .infinite t => infinity (s != t)
  | .infinite s, .finite t m _ | .finite t m _, .infinite s =>
    if m = 0 then notANumber else infinity (s != t)
  | .finite s m e, .finite t n f =>
    let a := fraction m e
    let b := fraction n f
    roundRatio (s != t) (a.1 * b.1) (a.2 * b.2)

def div (x y : Binary64) : Binary64 :=
  match x.view, y.view with
  | .notANumber, _ | _, .notANumber => notANumber
  | .infinite _, .infinite _ => notANumber
  | .infinite s, .finite t _ _ => infinity (s != t)
  | .finite s _ _, .infinite t => zero (s != t)
  | .finite s m e, .finite t n f =>
    if n = 0 then (if m = 0 then notANumber else infinity (s != t))
    else
      let a := fraction m e
      let b := fraction n f
      roundRatio (s != t) (a.1 * b.2) (a.2 * b.1)

def isNaN (x : Binary64) : Bool := decide (infinityBits < x.magnitudeBits)
def isFinite (x : Binary64) : Bool := decide (x.magnitudeBits < infinityBits)
def isInfinite (x : Binary64) : Bool := decide (x.magnitudeBits = infinityBits)
def isZero (x : Binary64) : Bool := decide (x.magnitudeBits = 0)

/-- Doubles other than NaN are ordered as these integers; both zeros are 0. -/
def rank (x : Binary64) : Int :=
  if x.isNegative then -Int.ofNat x.magnitudeBits else Int.ofNat x.magnitudeBits

/-- The order of the numbers; NaN is not comparable. -/
def le (x y : Binary64) : Bool := !x.isNaN && !y.isNaN && decide (x.rank ≤ y.rank)
def lt (x y : Binary64) : Bool := !x.isNaN && !y.isNaN && decide (x.rank < y.rank)

theorem roundDiv_mul_add (q den : Nat) (h : 0 < den) : roundDiv (q * den) den = q := by
  simp [roundDiv, Nat.mul_div_cancel _ h, h]

example : ofInt 1 = ⟨0x3ff0000000000000⟩ := by decide
example : (ofInt 1).div (ofInt 10) = ⟨0x3fb999999999999a⟩ := by decide
example : ofInt 9007199254740993 = ofInt 9007199254740992 := by decide

end Binary64
end TraceRollup
