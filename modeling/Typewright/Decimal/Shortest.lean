import Typewright.Decimal.Double

/-!
# The shortest decimal of a double

`Double.shortest` gives the fewest decimal digits that still single out a positive double among
all doubles.  A decimal singles the double out when it lies closer to it than to its neighbours,
that is, between the midpoints to the two neighbours; a midpoint itself counts when the
significand is even, because ties go there.  For one digit, two digits and so on, the two
decimals around the value are tried; the first that lies between the midpoints is taken, and of
two the nearer one.
-/

namespace Typewright

/-- A positive decimal `d₀.d₁d₂… × 10 ^ exponent`, its digits from the first nonzero one to the
    last nonzero one. -/
structure Decimal where
  /-- The digits, most significant first. -/
  digits : List Char
  /-- The power of ten of the first digit. -/
  exponent : Int
deriving DecidableEq, Repr

namespace Decimal

/-- The decimal digits of a natural number, most significant first. -/
def digitsOf (n : Nat) : List Char :=
  Nat.toDigits 10 n

/-- The digits without the zeros at their end. -/
def dropTrailingZeros (digits : List Char) : List Char :=
  (digits.reverse.dropWhile (· == '0')).reverse

/-- The decimal `n × 10 ^ place`. -/
def ofNat (n : Nat) (place : Int) : Decimal :=
  let digits := digitsOf n
  { digits := dropTrailingZeros digits
    exponent := place + (digits.length - 1) }

end Decimal

namespace Double

/-- The halfway marks around a positive double, counted in quarters of the least positive double:
    the lower mark, the number itself and the upper mark.  Below a power of two the doubles lie
    twice as close. -/
def marks (x : Double) : Nat × Nat × Nat :=
  let step := Nat.pow 2 x.shift
  let below := if x.fraction.val = 0 ∧ 1 < x.scale.val then step else 2 * step
  let value := 4 * x.magnitude
  (value - below, value, value + 2 * step)

/-- The power of ten of the first digit of a positive double. -/
def leadingPlace (x : Double) : Int :=
  ((Decimal.digitsOf (x.magnitude * Nat.pow 10 330 / unitsPerOne)).length : Int) - 331

/-- The multiple of `10 ^ place` that singles out the double and is nearest to it, if any. -/
def onGrid? (x : Double) (place : Int) : Option Nat :=
  let (lower, value, upper) := x.marks
  let up := Nat.pow 10 (-place).toNat
  let grid := 4 * unitsPerOne * Nat.pow 10 place.toNat
  let fits (n : Nat) : Bool :=
    if x.fraction.val % 2 = 0 then lower * up ≤ n * grid && n * grid ≤ upper * up
    else lower * up < n * grid && n * grid < upper * up
  let floor := value * up / grid
  let rest := value * up % grid
  match fits floor, fits (floor + 1) with
  | true, true =>
    if 2 * rest < grid then some floor
    else if grid < 2 * rest then some (floor + 1)
    else if floor % 2 = 0 then some floor
    else some (floor + 1)
  | true, false => some floor
  | false, true => some (floor + 1)
  | false, false => none

/-- The shortest decimal that singles out a positive double.  Seventeen digits always do. -/
def shortest (x : Double) : Decimal :=
  let first := x.leadingPlace
  let found := (List.range 17).findSome? fun (n : Nat) =>
    let place := first - (n : Int)
    (x.onGrid? place).map fun found => Decimal.ofNat found place
  found.getD (Decimal.ofNat x.magnitude (-1074))

end Double

end Typewright
