/-!
# Finite double-precision numbers

A `Double` is a finite number of the 64-bit binary format, held as its three stored parts: the
sign, the scale (the exponent field) and the fraction.  Every combination of the three is a
number, and two different combinations are different numbers, except that zero has two signs.

The value of a double is `units / 2 ^ 1074`: every finite double is a whole number of the least
positive one, so order and truncation are those of the integer `units`.  `Double.nearest` rounds
a ratio of natural numbers to the nearest double, and a tie goes to the even neighbour.
-/

namespace Typewright

/-- A finite number of the 64-bit binary format. -/
structure Double where
  /-- Whether the sign bit is set. -/
  negative : Bool
  /-- The exponent field; the all-ones field, which holds no finite number, is left out. -/
  scale : Fin 2047
  /-- The stored 52 bits of the significand. -/
  fraction : Fin 0x10000000000000
deriving DecidableEq, Repr

namespace Double

/-! ### The value -/

/-- The significand: the leading bit is implied unless the scale is the least one. -/
def significand (x : Double) : Nat :=
  if x.scale.val = 0 then x.fraction.val else 0x10000000000000 + x.fraction.val

/-- How far the significand is shifted, counted from the least positive double. -/
def shift (x : Double) : Nat :=
  x.scale.val - 1

/-- The absolute value, counted in least positive doubles. -/
def magnitude (x : Double) : Nat :=
  x.significand * Nat.pow 2 x.shift

/-- The value, counted in least positive doubles. -/
def units (x : Double) : Int :=
  if x.negative then -(x.magnitude : Int) else x.magnitude

/-- How many least positive doubles make one. -/
def unitsPerOne : Nat :=
  Nat.pow 2 1074

/-- Positive zero. -/
def zero : Double :=
  ⟨false, 0, 0⟩

/-- The same number with the opposite sign. -/
def neg (x : Double) : Double :=
  { x with negative := !x.negative }

/-- Whether the number is zero, of either sign. -/
def isZero (x : Double) : Bool :=
  x.magnitude == 0

/-! ### Comparison -/

/-- Equality of value: the two zeros are equal. -/
def sameValue (x y : Double) : Bool :=
  x.units == y.units

/-- The strict order of values. -/
def lt (x y : Double) : Bool :=
  x.units < y.units

/-- The order of values. -/
def le (x y : Double) : Bool :=
  x.units ≤ y.units

/-- The whole part of a number, and zero for a negative one. -/
def truncate (x : Double) : Nat :=
  x.units.toNat / unitsPerOne

/-! ### Rounding -/

/-- The number whose scale and fraction are the quotient and the remainder of `code` by `2 ^ 52`,
    if there is one: consecutive codes are consecutive numbers. -/
def ofCode? (negative : Bool) (code : Nat) : Option Double :=
  if h : code < 2047 * 0x10000000000000 then
    some
      { negative
        scale := ⟨code / 0x10000000000000, by omega⟩
        fraction := ⟨code % 0x10000000000000, by omega⟩ }
  else
    none

/-- The largest finite number. -/
def largest (negative : Bool) : Double :=
  ⟨negative, ⟨2046, by decide⟩, ⟨0xFFFFFFFFFFFFF, by decide⟩⟩

/-- The natural number nearest to `a / b`; of two equally near ones, the even one. -/
def roundHalfEven (a b : Nat) : Nat :=
  let q := a / b
  let r := a % b
  if 2 * r < b then q
  else if b < 2 * r then q + 1
  else if q % 2 = 0 then q
  else q + 1

/-- The double nearest to `numerator / denominator`, with the given sign; `none` when the ratio
    lies beyond the largest double. -/
def nearest (negative : Bool) (numerator denominator : Nat) : Option Double :=
  let target := numerator * unitsPerOne
  let shift := (target / denominator).log2 - 52
  let significand := roundHalfEven target (denominator * Nat.pow 2 shift)
  ofCode? negative (shift * 0x10000000000000 + significand)

/-- The double nearest to an integer; integers out of range go to the largest double. -/
def ofInt (n : Int) : Double :=
  (nearest (n < 0) n.natAbs 1).getD (largest (n < 0))

/-- The product, rounded to nearest. -/
def mul? (x y : Double) : Option Double :=
  nearest (x.negative != y.negative) (x.magnitude * y.magnitude) (unitsPerOne * unitsPerOne)

/-- The quotient, rounded to nearest. -/
def div? (x y : Double) : Option Double :=
  nearest (x.negative != y.negative) x.magnitude y.magnitude

/-! ### Small facts -/

theorem sameValue_refl (x : Double) : x.sameValue x = true := by
  simp [sameValue]

theorem sameValue_iff {x y : Double} : x.sameValue y = true ↔ x.units = y.units := by
  simp [sameValue]

theorem le_iff {x y : Double} : x.le y = true ↔ x.units ≤ y.units := by
  simp [le]

end Double

end Typewright
