import Typewright.Json.Number
import Typewright.Text.Natural

/-!
# What scalars mean

A plain scalar without a tag is null, a boolean, an integer or a float if it is written like one,
and a text otherwise.  Digits after a leading zero make a text.
-/

namespace Typewright.Yaml.Meaning

/-- The spellings of null. -/
def isNull (cs : List Char) : Bool :=
  ["null", "Null", "NULL", "~"].contains (String.ofList cs)

/-- The spellings of booleans. -/
def bool? (cs : List Char) : Option Bool :=
  match String.ofList cs with
  | "true" | "True" | "TRUE" => some true
  | "false" | "False" | "FALSE" => some false
  | _ => none

/-! ### Integers -/

/-- A text without one leading character. -/
def without? (c : Char) : List Char → Option (List Char)
  | d :: rest => if d = c then some rest else none
  | [] => none

/-- Whether a text starts with a sign. -/
def isSigned (cs : List Char) : Bool :=
  cs.head? == some '+' || cs.head? == some '-'

/-- Digits that start with a zero and go on, with or without a sign. -/
def hasLeadingZero (cs : List Char) : Bool :=
  match if isSigned cs then cs.drop 1 else cs with
  | '0' :: c :: rest => (c :: rest).all Char.isDigit
  | _ => false

/-- The base that a letter after a zero gives. -/
def base? : Char → Option Nat
  | 'x' => some 16
  | 'o' => some 8
  | 'b' => some 2
  | _ => none

/-- A number in the base that its first two characters give, or else in decimal. -/
def natural? (cs : List Char) : Option Nat :=
  match cs with
  | '0' :: letter :: digits =>
    match base? letter with
    | some base => Text.natIn? base digits
    | none => Text.natIn? 10 cs
  | _ => Text.natIn? 10 cs

/-- The integer that a scalar writes, of any size. -/
def integer? (cs : List Char) : Option Int :=
  if hasLeadingZero cs then none
  else
    match without? '-' cs with
    | some digits => (natural? digits).map fun n => -(n : Int)
    | none => (natural? ((without? '+' cs).getD cs)).map fun n => (n : Int)

/-- Whether an integer fits in a word of `bits` bits: without a sign, or with one if it is
    negative. -/
def fits (bits : Nat) (n : Int) : Bool :=
  -(Nat.pow 2 (bits - 1) : Int) ≤ n && n < Nat.pow 2 bits

/-! ### Floats -/

/-- The sign that a text starts with, and the rest. -/
def signed (cs : List Char) : Bool × List Char :=
  match cs with
  | '-' :: rest => (true, rest)
  | '+' :: rest => (false, rest)
  | _ => (false, cs)

/-- The exponent after the digits of a decimal. -/
def exponent? : List Char → Option Int
  | [] => some 0
  | c :: rest =>
    if c = 'e' ∨ c = 'E' then
      let (negative, digits) := signed rest
      (Text.natIn? 10 digits).map fun n => if negative then -(n : Int) else n
    else none

/-- The double that a decimal without a sign writes.  There is a digit before or after the point,
    and a value beyond all doubles is not a double. -/
def magnitude? (cs : List Char) : Option Double := do
  let whole := cs.takeWhile Char.isDigit
  let rest := cs.dropWhile Char.isDigit
  let pointed := rest.head? == some '.'
  let fraction := if pointed then (rest.drop 1).takeWhile Char.isDigit else []
  let rest := if pointed then (rest.drop 1).dropWhile Char.isDigit else rest
  let significand ← Text.natIn? 10 (whole ++ fraction)
  let exponent ← exponent? rest
  Decimal.nearest? significand (exponent - fraction.length)

/-- Floats; the infinities and the values that are not numbers count as floats that no document
    can hold. -/
inductive FloatValue where
  | finite (value : Double)
  | unbounded

/-- The float that a scalar writes. -/
def float? (cs : List Char) : Option FloatValue :=
  let (negative, digits) := signed cs
  if [".inf", ".Inf", ".INF"].contains (String.ofList digits) then some .unbounded
  else if [".nan", ".NaN", ".NAN"].contains (String.ofList cs) then some .unbounded
  else (magnitude? digits).map fun x => .finite { x with negative }

end Typewright.Yaml.Meaning
