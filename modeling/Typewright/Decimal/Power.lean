import Typewright.Decimal.Double

/-!
# From decimals to doubles

Two ways to turn `significand × 10 ^ exponent` into a double.

* `Decimal.nearest?` rounds the exact value once.
* `Decimal.scaled?` first rounds the significand and then multiplies it by, or divides it by, a
  rounded power of ten; it may differ from the exact rounding in the last place.  Powers beyond
  `10 ^ 308` are taken in several divisions, and a value that has become zero stays zero.

Both give `none` when the result lies beyond the largest double.
-/

namespace Typewright.Decimal

/-- The largest power of ten that is a finite double. -/
def largestPower : Nat :=
  308

/-- The double nearest to a power of ten within the range of doubles. -/
def power (n : Nat) : Double :=
  (Double.nearest false (Nat.pow 10 n) 1).getD (Double.largest false)

/-- Divides by the largest power of ten `count` times, or until the value has become zero. -/
def divideByLargest : Nat → Double → Option Double
  | 0, x => some x
  | count + 1, x =>
    if x.isZero then some x else (x.div? (power largestPower)).bind (divideByLargest count)

/-- Divides by `10 ^ n`, by the largest power of ten at a time as long as more is left. -/
def divideByPower (x : Double) (n : Nat) : Option Double := do
  let count := (n - 1) / largestPower
  let y ← divideByLargest count x
  y.div? (power (n - count * largestPower))

/-- The rounded significand, multiplied or divided by a rounded power of ten. -/
def scaled? (significand : Nat) (exponent : Int) : Option Double := do
  let x ← Double.nearest false significand 1
  if exponent < 0 then divideByPower x exponent.natAbs
  else if exponent.natAbs ≤ largestPower then x.mul? (power exponent.natAbs)
  else if x.isZero then some x
  else none

/-- The double nearest to `significand × 10 ^ exponent`.  Far beyond the range of doubles the
    power is not computed: the answer is zero below it and `none` above it. -/
def nearest? (significand : Nat) (exponent : Int) : Option Double :=
  let places := (significand.log2 : Int) / 3 + 1
  if significand = 0 then some Double.zero
  else if 400 < exponent then none
  else if exponent + places < -400 then some Double.zero
  else if exponent < 0 then Double.nearest false significand (Nat.pow 10 exponent.natAbs)
  else Double.nearest false (significand * Nat.pow 10 exponent.natAbs) 1

end Typewright.Decimal
