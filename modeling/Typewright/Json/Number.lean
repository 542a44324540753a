import Typewright.Decimal.Shortest
import Typewright.Decimal.Power

/-!
# Numbers of a document

A number is an integer or a double, and the two classes never mix: `1` and `1.0` are different
numbers.  Within a class numbers are compared by value.
-/

namespace Typewright

/-- A number of a document. -/
inductive Number where
  /-- A number written without a point and without an exponent. -/
  | integer (value : Int)
  /-- Any other number. -/
  | double (value : Double)
deriving DecidableEq, Repr

namespace Number

/-- Numbers of one class and of equal value. -/
def same : Number → Number → Bool
  | integer m, integer n => m == n
  | double x, double y => x.sameValue y
  | _, _ => false

/-- The number as a double, rounded if need be. -/
def toDouble : Number → Double
  | integer n => Double.ofInt n
  | double x => x

/-! ### Text -/

/-- Where the positional form of a double ends and the form with an exponent begins. -/
structure DoubleLayout where
  /-- The least power of ten of the first digit that is written positionally. -/
  least : Int
  /-- The greatest power of ten of the first digit that is written positionally. -/
  greatest : Int

/-- Doubles from `0.00001` up to sixteen digits before the point are written positionally. -/
def layout : DoubleLayout :=
  { least := -5, greatest := 15 }

/-- The digits of a decimal with a point and at least one digit on each side of it. -/
def positional (d : Decimal) : List Char :=
  if d.exponent < 0 then
    ['0', '.'] ++ List.replicate (d.exponent.natAbs - 1) '0' ++ d.digits
  else
    let whole := d.exponent.natAbs + 1
    let before := d.digits.take whole ++ List.replicate (whole - d.digits.length) '0'
    let after := d.digits.drop whole
    before ++ ['.'] ++ (if after.isEmpty then ['0'] else after)

/-- The digits of a decimal with the point after the first one and a signed exponent. -/
def scientific (d : Decimal) : List Char :=
  let point := if d.digits.length ≤ 1 then d.digits else d.digits.take 1 ++ ['.'] ++ d.digits.drop 1
  let sign := if d.exponent < 0 then '-' else '+'
  point ++ ['e', sign] ++ Decimal.digitsOf d.exponent.natAbs

/-- The text of a double: its shortest digits, positional or with an exponent. -/
def doubleText (x : Double) : List Char :=
  let sign := if x.negative then ['-'] else []
  if x.isZero then sign ++ ['0', '.', '0']
  else
    let d := x.shortest
    sign ++
      if layout.least ≤ d.exponent ∧ d.exponent ≤ layout.greatest then positional d
      else scientific d

/-- The text of an integer. -/
def integerText (n : Int) : List Char :=
  (if n < 0 then ['-'] else []) ++ Decimal.digitsOf n.natAbs

/-- The text of a number. -/
def toChars : Number → List Char
  | integer n => integerText n
  | double x => doubleText x

/-- The text of a number. -/
def text (n : Number) : String :=
  String.ofList n.toChars

/-! ### Small facts -/

theorem same_refl (n : Number) : n.same n = true := by
  cases n <;> simp [same, Double.sameValue_refl]

theorem same_symm {m n : Number} (h : m.same n = true) : n.same m = true := by
  cases m <;> cases n <;> simp_all [same, Double.sameValue_iff]

theorem same_trans {k m n : Number} (h₁ : k.same m = true) (h₂ : m.same n = true) :
    k.same n = true := by
  cases k <;> cases m <;> cases n <;> simp_all [same, Double.sameValue_iff]

end Number

end Typewright
