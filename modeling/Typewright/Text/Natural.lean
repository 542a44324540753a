/-!
# Written natural numbers

Reading decimal numbers with an upper bound.  One plus sign may come first and zeros may lead.
-/

namespace Typewright.Text

/-- The value of a decimal digit. -/
def digitValue? (c : Char) : Option Nat :=
  if '0' ≤ c ∧ c ≤ '9' then some (c.toNat - '0'.toNat) else none

/-- The value of a digit in a base up to sixteen; letters of either case count. -/
def digitIn? (base : Nat) (c : Char) : Option Nat :=
  let value? :=
    if '0' ≤ c ∧ c ≤ '9' then some (c.toNat - '0'.toNat)
    else if 'a' ≤ c ∧ c ≤ 'z' then some (c.toNat - 'a'.toNat + 10)
    else if 'A' ≤ c ∧ c ≤ 'Z' then some (c.toNat - 'A'.toNat + 10)
    else none
  value?.filter (· < base)

/-- The number that a list of digits in a base writes; there must be a digit. -/
def natIn? (base : Nat) : List Char → Option Nat
  | [] => none
  | cs => cs.foldlM (fun n c => (digitIn? base c).map (n * base + ·)) 0

/-- A decimal number below `bound`, written with an optional plus sign. -/
def boundedNat? (bound : Nat) (s : String) : Option Nat :=
  let digits :=
    match s.toList with
    | '+' :: rest => rest
    | cs => cs
  (natIn? 10 digits).filter (· < bound)

/-- A decimal number of 64 bits, written with an optional plus sign. -/
def word? (s : String) : Option Nat :=
  boundedNat? 0x10000000000000000 s

end Typewright.Text
