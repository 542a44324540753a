import Typewright.Yaml.Cursor

/-!
# Plain scalars

Scalars without quotes.  The gaps between their words are folded: a single line break counts as a
space, and of several line feeds the first is dropped.
-/

namespace Typewright.Yaml

/-! ### Folded gaps -/

/-- What a run of line breaks between two words stands for. -/
def foldBreaks : List Char → List Char
  | ['\n'] => [' ']
  | '\n' :: more => more
  | breaks => breaks

/-- What a gap between two words stands for. -/
def foldGap (gap : List Char) : List Char :=
  match gap.filter isBreak with
  | [] => gap
  | breaks => foldBreaks breaks

namespace Plain

/-- Characters that end a plain scalar in a flow collection. -/
def isFlowMark (c : Char) : Bool :=
  [',', '[', ']', '{', '}'].contains c

/-- The word of a plain scalar at the start of a text.  In a flow collection a colon right before
    a mark of the collection makes the text unreadable. -/
def word? (inFlow : Bool) : List Char → Option (List Char)
  | [] => some []
  | c :: rest =>
    if isGap c then some []
    else if inFlow && c == ':' && rest.head?.any (fun d => isFlowMark d || d == '?') then none
    else if (c == ':' && endsWord rest.head?) || (inFlow && isFlowMark c) then some []
    else (word? inFlow rest).map (c :: ·)

/-- Whether a tab stands where a line after the first has to be indented by blanks. -/
def hasTabIndent (indent column : Nat) (broken : Bool) : List Char → Bool
  | [] => false
  | c :: rest =>
    if isBreak c then hasTabIndent indent 0 true rest
    else (broken && column < indent && c == '\t') || hasTabIndent indent (column + 1) broken rest

/-- A plain scalar, whether line breaks were passed after it, and the place where it ends. -/
structure Scanned where
  text : List Char
  endsLine : Bool
  cursor : Cursor

/-- Reads the words of a plain scalar; `gap` is what stands before the next one.  A line that is
    indented by fewer than `indent` characters ends the scalar, but not in a flow collection. -/
def scanFrom? (inFlow : Bool) (indent : Nat) : Nat → List Char → Cursor → Option Scanned
  | 0, _, _ => none
  | bound + 1, gap, cursor =>
    if cursor.seesAnyMark || cursor.sees '#' then
      some { text := [], endsLine := gap.any isBreak, cursor }
    else do
      let word ← word? inFlow cursor.rest
      if word.isEmpty then some { text := [], endsLine := gap.any isBreak, cursor }
      else
        let text := foldGap gap ++ word
        let (gap, after) := (Cursor.skip word.length cursor).span isGap
        if hasTabIndent indent 0 false gap then none
        else if gap.isEmpty || (!inFlow && after.column < indent) then
          some { text, endsLine := gap.any isBreak, cursor := after }
        else
          let rest ← scanFrom? inFlow indent bound gap after
          some { rest with text := text ++ rest.text }

end Plain

end Typewright.Yaml
