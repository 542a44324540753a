/-!
# Places in a YAML text

A `Cursor` is a place in a text: the characters that are left, the line and the column.  Columns
count characters; how far apart two places of a line are is also counted in octets.  The text is
prepared first: every spelling of a line feed becomes one character, so that a line break is
always a single character.
-/

namespace Typewright.Yaml

/-! ### Characters -/

/-- Characters that a YAML text may hold. -/
def isAllowed (c : Char) : Bool :=
  let n := c.toNat
  n == 0x9 || n == 0xA || n == 0xD || (0x20 ≤ n && n ≤ 0x7E) || n == 0x85
    || (0xA0 ≤ n && n ≤ 0xD7FF) || (0xE000 ≤ n && n ≤ 0xFFFD) || 0x10000 ≤ n

/-- The mark that may stand at the start of a line, and is passed as a blank would be. -/
def byteOrderMark : Char :=
  Char.ofNat 0xFEFF

/-- Line breaks of a prepared text: the line feed, the line and the paragraph separator. -/
def isBreak (c : Char) : Bool :=
  c == '\n' || c.toNat == 0x2028 || c.toNat == 0x2029

/-- Characters that divide words within a line. -/
def isBlank (c : Char) : Bool :=
  c == ' ' || c == '\t'

/-- Characters that divide words. -/
def isGap (c : Char) : Bool :=
  isBlank c || isBreak c

/-- Whether a word ends before what follows: at a gap, or at the end of the text. -/
def endsWord (following : Option Char) : Bool :=
  following.all isGap

/-- Characters of the names of anchors, directives and tag handles. -/
def isNameChar (c : Char) : Bool :=
  c.isAlphanum || c == '_' || c == '-'

/-- Writes every carriage return, with the line feed after it if there is one, and every next
    line as one line feed. -/
def unifyBreaks : List Char → List Char
  | [] => []
  | '\r' :: '\n' :: rest => '\n' :: unifyBreaks rest
  | c :: rest => (if c == '\r' || c.toNat == 0x85 then '\n' else c) :: unifyBreaks rest

/-- The prepared characters of a text; a character that YAML does not allow makes the text
    unreadable. -/
def prepare? (text : String) : Option (List Char) :=
  let cs := text.toList
  if cs.all isAllowed then some (unifyBreaks cs) else none

/-! ### Cursors -/

/-- A place in a prepared text. -/
structure Cursor where
  /-- The characters that are left. -/
  rest : List Char
  line : Nat := 0
  column : Nat := 0
  /-- How many octets the characters before this place take on its line. -/
  octets : Nat := 0

namespace Cursor

/-- The next character. -/
def peek? (cursor : Cursor) : Option Char :=
  cursor.rest.head?

/-- The character `n` places ahead. -/
def ahead? (cursor : Cursor) (n : Nat) : Option Char :=
  cursor.rest[n]?

/-- Whether the next character is the given one. -/
def sees (cursor : Cursor) (c : Char) : Bool :=
  cursor.peek? == some c

/-- The place after the next character. -/
def next (cursor : Cursor) : Cursor :=
  match cursor.rest with
  | [] => cursor
  | c :: rest =>
    if isBreak c then { rest, line := cursor.line + 1 }
    else
      { cursor with
        rest, column := cursor.column + 1, octets := cursor.octets + c.utf8Size }

/-- The place after the next `n` characters. -/
def skip : Nat → Cursor → Cursor
  | 0, cursor => cursor
  | n + 1, cursor => skip n cursor.next

/-- The longest run of characters of a class, and the place after it. -/
def span (cursor : Cursor) (p : Char → Bool) : List Char × Cursor :=
  let run := cursor.rest.takeWhile p
  (run, skip run.length cursor)

/-- The place after the longest run of characters of a class. -/
def skipWhile (cursor : Cursor) (p : Char → Bool) : Cursor :=
  (cursor.span p).2

/-- The place after the blanks and the comment that may end a line, if nothing else does.  The
    line break is passed too. -/
def endOfLine? (cursor : Cursor) : Option Cursor :=
  let cursor := cursor.skipWhile isBlank
  let cursor := if cursor.sees '#' then cursor.skipWhile (!isBreak ·) else cursor
  if cursor.peek?.all isBreak then some cursor.next else none

/-- Whether three of the given characters stand alone at the start of the line: the mark of a
    document's start or end. -/
def seesMark (cursor : Cursor) (c : Char) : Bool :=
  cursor.column == 0 && cursor.rest.take 3 == [c, c, c] && endsWord (cursor.ahead? 3)

/-- Whether a document starts or ends here. -/
def seesAnyMark (cursor : Cursor) : Bool :=
  cursor.seesMark '-' || cursor.seesMark '.'

end Cursor

end Typewright.Yaml
