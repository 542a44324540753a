import Typewright.Text.Natural
import Typewright.Yaml.Scalar.Plain

/-!
# Quoted scalars

Scalars in single quotes, where a quote is written twice, and in double quotes, where a backslash
starts an escape.  Gaps between words are folded as in plain scalars.
-/

namespace Typewright.Yaml

/-- The two kinds of quotes. -/
inductive Quote where
  | single
  | double
deriving DecidableEq

namespace Quote

/-- The character that opens and closes a quoted scalar. -/
def mark : Quote → Char
  | single => '\''
  | double => '"'

end Quote

namespace Quoted

/-- What a one-letter escape stands for. -/
def letterEscape? : Char → Option Char
  | '0' => some (Char.ofNat 0x0)
  | 'a' => some (Char.ofNat 0x7)
  | 'b' => some (Char.ofNat 0x8)
  | 't' => some '\t'
  | '\t' => some '\t'
  | 'n' => some '\n'
  | 'v' => some (Char.ofNat 0xB)
  | 'f' => some (Char.ofNat 0xC)
  | 'r' => some '\r'
  | 'e' => some (Char.ofNat 0x1B)
  | ' ' => some ' '
  | '"' => some '"'
  | '/' => some '/'
  | '\\' => some '\\'
  | 'N' => some (Char.ofNat 0x85)
  | '_' => some (Char.ofNat 0xA0)
  | 'L' => some (Char.ofNat 0x2028)
  | 'P' => some (Char.ofNat 0x2029)
  | _ => none

/-- How many hexadecimal digits follow the letter of a numbered escape. -/
def digitCount? : Char → Option Nat
  | 'x' => some 2
  | 'u' => some 4
  | 'U' => some 8
  | _ => none

/-- The character that an escape stands for, and how many characters are written after the
    backslash. -/
def escape? : List Char → Option (Char × Nat)
  | [] => none
  | letter :: rest =>
    match digitCount? letter with
    | none => (letterEscape? letter).map (·, 1)
    | some count => do
      let digits := rest.take count
      let code ← Text.natIn? 16 digits
      if digits.length = count ∧ code.isValidChar then some (Char.ofNat code, count + 1) else none

/-- Reads a quoted scalar after its opening quote, up to and with its closing quote. -/
def scanFrom? (quote : Quote) : Nat → Cursor → Option (List Char × Cursor)
  | 0, _ => none
  | bound + 1, cursor =>
    if cursor.seesAnyMark then none
    else
      match cursor.rest with
      | [] => none
      | c :: rest =>
        let continueWith (text : List Char) (cursor : Cursor) :=
          (scanFrom? quote bound cursor).map fun (more, cursor) => (text ++ more, cursor)
        if isGap c then
          let (gap, after) := cursor.span isGap
          continueWith (foldGap gap) after
        else if c = quote.mark then
          if quote = .single ∧ rest.head? = some c then continueWith [c] (Cursor.skip 2 cursor)
          else some ([], cursor.next)
        else if quote = .double ∧ c = '\\' then
          if rest.head?.any isBreak then
            let (gap, after) := (Cursor.skip 2 cursor).span isGap
            continueWith (gap.filter isBreak) after
          else do
            let (escaped, length) ← escape? rest
            continueWith [escaped] (Cursor.skip (length + 1) cursor)
        else
          continueWith [c] cursor.next

end Quoted

end Typewright.Yaml
