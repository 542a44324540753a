import Typewright.Text.Natural
import Typewright.Yaml.Cursor

/-!
# Block scalars

Scalars that are written as an indented block of lines, kept as they are or folded.  The header
may give the indentation and says what happens to the line breaks at the end.
-/

namespace Typewright.Yaml.Block

/-- What is kept of the line breaks at the end of a block scalar. -/
inductive Chomping where
  | strip
  | clip
  | keep

/-- The mark of a chomping rule. -/
def chomping? : Option Char → Option Chomping
  | some '+' => some .keep
  | some '-' => some .strip
  | _ => none

/-- The header of a block scalar. -/
structure Header where
  chomping : Chomping := .clip
  /-- How much deeper than its surroundings the block is indented, if the header says so. -/
  increment : Option Nat := none

/-- The digit of an indentation, if there is one; it must not be zero. -/
def increment? (cursor : Cursor) : Option (Option Nat × Cursor) :=
  match cursor.peek?.bind Text.digitValue? with
  | none => some (none, cursor)
  | some 0 => none
  | some n => some (some n, cursor.next)

/-- Reads the header after the mark of the scalar, with the rest of its line.  The chomping rule
    and the indentation come in either order. -/
def header? (cursor : Cursor) : Option (Header × Cursor) := do
  match chomping? cursor.peek? with
  | some chomping =>
    let (increment, cursor) ← increment? cursor.next
    let cursor ← cursor.endOfLine?
    some ({ chomping, increment }, cursor)
  | none =>
    let (increment, cursor) ← increment? cursor
    match increment, chomping? cursor.peek? with
    | some _, some chomping =>
      let cursor ← cursor.next.endOfLine?
      some ({ chomping, increment }, cursor)
    | _, _ =>
      let cursor ← cursor.endOfLine?
      some ({ increment }, cursor)

/-- The empty lines before a line of content. -/
structure EmptyLines where
  breaks : List Char
  /-- The largest column reached by blanks. -/
  widest : Nat
  cursor : Cursor

/-- Passes empty lines and the indentation of the line after them; as long as the indentation is
    not known, all blanks count.  A tab must not stand in the indentation. -/
def emptyLines? (indent : Option Nat) : Nat → Nat → Cursor → Option EmptyLines
  | 0, _, _ => none
  | bound + 1, widest, cursor =>
    let blanks := (cursor.rest.takeWhile (· == ' ')).length
    let cursor := Cursor.skip (indent.elim blanks fun n => min blanks (n - cursor.column)) cursor
    let widest := max widest cursor.column
    if cursor.sees '\t' && indent.all (cursor.column < ·) then none
    else
      match cursor.peek?.filter isBreak with
      | none => some { breaks := [], widest, cursor }
      | some c => do
        let more ← emptyLines? indent bound widest cursor.next
        some { more with breaks := c :: more.breaks }

/-- The lines of a block scalar, the line break after the last one, the empty lines after it, and
    the place where they end. -/
structure Lines where
  text : List Char
  lastBreak : List Char
  trailing : List Char
  cursor : Cursor

/-- Reads the lines of a block.  `lastBreak` and `trailing` are the line break and the empty lines
    before the next line, and `afterBlank` says that the line before it starts with a blank: such
    lines are not folded. -/
def lines? (folded : Bool) (indent : Nat) :
    Nat → List Char → List Char → Bool → Cursor → Option Lines
  | 0, _, _, _, _ => none
  | bound + 1, lastBreak, trailing, afterBlank, cursor =>
    if cursor.column ≠ indent ∨ cursor.rest.isEmpty then
      some { text := [], lastBreak, trailing, cursor }
    else do
      let startsBlank := cursor.peek?.any isBlank
      let joint :=
        if folded && lastBreak == ['\n'] && !afterBlank && !startsBlank then
          if trailing.isEmpty then [' '] else []
        else lastBreak
      let (line, after) := cursor.span (!isBreak ·)
      let empty ← emptyLines? (some indent) (bound + 1) 0 after.next
      let rest ← lines? folded indent bound after.peek?.toList empty.breaks startsBlank empty.cursor
      some { rest with text := joint ++ trailing ++ line ++ rest.text }

/-- Reads a block scalar after its mark.  `surrounding` is the indentation of the block collection
    around it, if there is one, and `bound` a bound on the length of the text. -/
def scan? (folded : Bool) (surrounding : Option Nat) (bound : Nat) (cursor : Cursor) :
    Option (List Char × Cursor) := do
  let (header, cursor) ← header? cursor
  let given := header.increment.map (surrounding.getD 0 + ·)
  let empty ← emptyLines? given bound 0 cursor
  let least := surrounding.elim 1 (· + 1)
  let indent := given.getD (max empty.widest least)
  let lines ← lines? folded indent bound [] empty.breaks false empty.cursor
  let kept :=
    match header.chomping with
    | .strip => []
    | .clip => lines.lastBreak
    | .keep => lines.lastBreak ++ lines.trailing
  some (lines.text ++ kept, lines.cursor)

end Typewright.Yaml.Block
