import Typewright.Yaml.Scalar.Block
import Typewright.Yaml.Scalar.Quoted
import Typewright.Yaml.Tag

/-!
# Reading tokens

Block collections are known by their indentation, and a key is known only by the colon after it.
The lexer therefore keeps the columns of the open block collections and, for every level of flow
collections, the place where a key may have started.  When the colon comes, the token that starts
the key goes in at that place.
-/

namespace Typewright.Yaml

/-- The start of what may turn out to be a key. -/
structure PossibleKey where
  /-- How many tokens come before the key. -/
  position : Nat
  line : Nat
  column : Nat
  /-- How many octets come before the key on its line. -/
  octets : Nat
  /-- Whether the text is unreadable unless this is a key. -/
  required : Bool

namespace PossibleKey

/-- Whether the place is too far from the start of the key: on a later line, or more than 1024
    octets on. -/
def isPast (key : PossibleKey) (cursor : Cursor) : Bool :=
  key.line < cursor.line || key.octets + 1024 < cursor.octets

end PossibleKey

/-- What the lexer knows between two tokens. -/
structure Lexer where
  cursor : Cursor
  /-- A bound on the length of the text. -/
  bound : Nat
  /-- The tokens read so far, the last one first. -/
  tokens : List Token := []
  /-- How many tokens have been read. -/
  count : Nat := 0
  /-- The columns of the open block collections, the innermost first. -/
  indents : List Nat := []
  /-- Whether a key may start at the next token. -/
  keyAllowed : Bool := true
  /-- The possible key at the current level. -/
  key : Option PossibleKey := none
  /-- The possible keys of the levels around the current flow collection. -/
  outerKeys : List (Option PossibleKey) := []

namespace Lexer

/-- Whether the place is inside a flow collection. -/
def inFlow (l : Lexer) : Bool :=
  !l.outerKeys.isEmpty

/-- Adds a token at the end. -/
def emit (l : Lexer) (token : Token) : Lexer :=
  { l with tokens := token :: l.tokens, count := l.count + 1 }

/-- Puts a token in at a position. -/
def insert (l : Lexer) (position : Nat) (token : Token) : Lexer :=
  let later := l.count - position
  { l with
    tokens := l.tokens.take later ++ token :: l.tokens.drop later
    count := l.count + 1 }

/-- Passes `n` characters and adds a token. -/
def punctuate (l : Lexer) (n : Nat) (token : Token) : Lexer :=
  { l with cursor := l.cursor.skip n }.emit token

/-! ### Possible keys -/

/-- Gives up the possible key of the current level; a required key cannot be given up. -/
def dropKey? (l : Lexer) : Option Lexer :=
  if l.key.any (·.required) then none else some { l with key := none }

/-- Notes that a key may start here, if one may. -/
def noteKey? (l : Lexer) : Option Lexer :=
  if l.keyAllowed then do
    let l ← l.dropKey?
    let required := !l.inFlow && l.indents.head? == some l.cursor.column
    let key : PossibleKey :=
      { position := l.count, line := l.cursor.line, column := l.cursor.column,
        octets := l.cursor.octets, required }
    some { l with key := some key }
  else some l

/-- A possible key, unless the place is past it. -/
def expire? (cursor : Cursor) (key : Option PossibleKey) : Option (Option PossibleKey) :=
  if key.any (·.isPast cursor) then
    if key.any (·.required) then none else some none
  else some key

/-- Gives up the possible keys of all levels that the place is past. -/
def expireKeys? (l : Lexer) : Option Lexer := do
  let key ← expire? l.cursor l.key
  let outerKeys ← l.outerKeys.mapM (expire? l.cursor)
  some { l with key, outerKeys }

/-! ### Indentation -/

/-- Ends the block collections that are indented deeper than a column, or all of them. -/
def closeBlocks (l : Lexer) (column : Option Nat) : Lexer :=
  if l.inFlow then l
  else
    let closed := l.indents.takeWhile fun indent => column.all (· < indent)
    closed.foldl (fun l _ => l.emit .blockEnd)
      { l with indents := l.indents.drop closed.length }

/-- Starts a block collection at a column, at a position among the tokens, unless one with that
    column or a larger one is open. -/
def openBlock (l : Lexer) (column position : Nat) (token : Token) : Lexer :=
  if !l.inFlow && l.indents.head?.all (· < column) then
    { l.insert position token with indents := column :: l.indents }
  else l

/-- Starts a block collection here, at a place where one may start. -/
def openBlockHere? (l : Lexer) (token : Token) : Option Lexer :=
  if l.inFlow then some l
  else if l.keyAllowed then some (l.openBlock l.cursor.column l.count token)
  else none

/-! ### Between tokens -/

/-- Passes blanks, comments and line breaks.  A tab does not count as a blank where a key may
    start in a block collection, and a key may start after a line break. -/
def skipToToken : Nat → Lexer → Lexer
  | 0, l => l
  | bound + 1, l =>
    let cursor :=
      if l.cursor.column = 0 ∧ l.cursor.sees byteOrderMark then l.cursor.next else l.cursor
    let cursor := cursor.skipWhile fun c => c == ' ' || (c == '\t' && (l.inFlow || !l.keyAllowed))
    let cursor := if cursor.sees '#' then cursor.skipWhile (!isBreak ·) else cursor
    if cursor.peek?.any isBreak then
      skipToToken bound { l with cursor := cursor.next, keyAllowed := l.keyAllowed || !l.inFlow }
    else { l with cursor }

/-! ### Single tokens -/

/-- Leaves all block collections, before a directive or the mark of a document. -/
def leaveDocument? (l : Lexer) : Option Lexer := do
  let l ← (l.closeBlocks none).dropKey?
  some { l with keyAllowed := false }

/-- Reads a directive. -/
def directive? (l : Lexer) : Option Lexer := do
  let l ← l.leaveDocument?
  let (token, cursor) ← Directive.scan? l.bound l.cursor
  some ({ l with cursor }.emit token)

/-- Reads the mark of a document. -/
def documentMark? (l : Lexer) (token : Token) : Option Lexer := do
  let l ← l.leaveDocument?
  some (l.punctuate 3 token)

/-- Reads the start of a flow collection, which may itself be a key. -/
def flowStart? (l : Lexer) (token : Token) : Option Lexer := do
  let l ← l.noteKey?
  let l := { l with outerKeys := l.key :: l.outerKeys, key := none, keyAllowed := true }
  some (l.punctuate 1 token)

/-- Reads the end of a flow collection. -/
def flowEnd? (l : Lexer) (token : Token) : Option Lexer := do
  let l ← l.dropKey?
  let l := { l with key := l.outerKeys.head?.getD none, outerKeys := l.outerKeys.tail }
  some ({ l with keyAllowed := false }.punctuate 1 token)

/-- Reads the comma between items of a flow collection. -/
def flowEntry? (l : Lexer) : Option Lexer := do
  let l ← l.dropKey?
  some ({ l with keyAllowed := true }.punctuate 1 .flowEntry)

/-- Reads the dash before an item of a block sequence. -/
def blockEntry? (l : Lexer) : Option Lexer := do
  let l ← l.openBlockHere? .blockSequenceStart
  let l ← l.dropKey?
  some ({ l with keyAllowed := true }.punctuate 1 .blockEntry)

/-- Reads the question mark before a key. -/
def keyMark? (l : Lexer) : Option Lexer := do
  let l ← l.openBlockHere? .blockMappingStart
  let l ← l.dropKey?
  some ({ l with keyAllowed := !l.inFlow }.punctuate 1 .key)

/-- Reads the colon before a value.  The possible key of this level, if there is one, has now
    proved to be a key. -/
def valueMark? (l : Lexer) : Option Lexer := do
  match l.key with
  | some key =>
    let l := (l.insert key.position .key).openBlock key.column key.position .blockMappingStart
    some ({ l with key := none, keyAllowed := false }.punctuate 1 .value)
  | none =>
    let l ← l.openBlockHere? .blockMappingStart
    some ({ l with keyAllowed := !l.inFlow }.punctuate 1 .value)

/-- Reads the name of an anchor or of a reference. -/
def anchorName? (l : Lexer) (token : String → Token) : Option Lexer := do
  let l ← l.noteKey?
  let (name, cursor) := l.cursor.next.span isNameChar
  let ends := endsWord cursor.peek? || cursor.peek?.any ("?:,]\x7d%@`".toList.contains ·)
  if name.isEmpty || !ends then none
  else some ({ l with cursor, keyAllowed := false }.emit (token (String.ofList name)))

/-- Reads a tag. -/
def tag? (l : Lexer) : Option Lexer := do
  let l ← l.noteKey?
  let (tag, cursor) ← Tag.scan? l.inFlow l.bound l.cursor
  some ({ l with cursor, keyAllowed := false }.emit (.tag tag))

/-- Reads a block scalar. -/
def blockScalar? (l : Lexer) (folded : Bool) : Option Lexer := do
  let l ← l.dropKey?
  let (text, cursor) ← Block.scan? folded l.indents.head? l.bound l.cursor.next
  some ({ l with cursor, keyAllowed := true }.emit (.scalar { text, plain := false }))

/-- Reads a quoted scalar. -/
def quotedScalar? (l : Lexer) (quote : Quote) : Option Lexer := do
  let l ← l.noteKey?
  let (text, cursor) ← Quoted.scanFrom? quote l.bound l.cursor.next
  some ({ l with cursor, keyAllowed := false }.emit (.scalar { text, plain := false }))

/-- Reads a plain scalar; a key may start after it if a line break was passed. -/
def plainScalar? (l : Lexer) : Option Lexer := do
  let l ← l.noteKey?
  let indent := l.indents.head?.elim 0 (· + 1)
  let scanned ← Plain.scanFrom? l.inFlow indent l.bound [] l.cursor
  let l := { l with cursor := scanned.cursor, keyAllowed := scanned.endsLine }
  some (l.emit (.scalar { text := scanned.text, plain := true }))

/-! ### The text -/

/-- Characters with a meaning of their own at the start of a token. -/
def isIndicator (c : Char) : Bool :=
  "-?:,[]\x7b\x7d#&*!|>'\"%@`".toList.contains c

/-- Reads the next token, which starts with the given character. -/
def token? (l : Lexer) (c : Char) : Option Lexer :=
  let cursor := l.cursor
  let alone := endsWord (cursor.ahead? 1)
  if cursor.column = 0 ∧ c = '%' then l.directive?
  else if cursor.seesMark '-' then l.documentMark? .documentStart
  else if cursor.seesMark '.' then l.documentMark? .documentEnd
  else if c = '[' then l.flowStart? .flowSequenceStart
  else if c = '{' then l.flowStart? .flowMappingStart
  else if c = ']' then l.flowEnd? .flowSequenceEnd
  else if c = '}' then l.flowEnd? .flowMappingEnd
  else if c = ',' then l.flowEntry?
  else if c = '-' ∧ alone then l.blockEntry?
  else if c = '?' ∧ (l.inFlow ∨ alone) then l.keyMark?
  else if c = ':' ∧ (l.inFlow ∨ alone) then l.valueMark?
  else if c = '*' then l.anchorName? .reference
  else if c = '&' then l.anchorName? .anchor
  else if c = '!' then l.tag?
  else if c = '|' ∧ !l.inFlow then l.blockScalar? false
  else if c = '>' ∧ !l.inFlow then l.blockScalar? true
  else if c = Quote.single.mark then l.quotedScalar? .single
  else if c = Quote.double.mark then l.quotedScalar? .double
  else if !isGap c ∧ (!isIndicator c ∨ c = '-' ∨ c = '?' ∨ c = ':') then l.plainScalar?
  else none

/-- Reads all tokens that are left. -/
def run? : Nat → Lexer → Option (List Token)
  | 0, _ => none
  | bound + 1, l => do
    let l ← (skipToToken l.bound l).expireKeys?
    match l.cursor.peek? with
    | none =>
      let l ← (l.closeBlocks none).dropKey?
      some l.tokens.reverse
    | some c =>
      let l ← (l.closeBlocks (some l.cursor.column)).token? c
      run? bound l

end Lexer

/-- The tokens of a text, if it can be read. -/
def tokens? (text : String) : Option (List Token) := do
  let cs ← prepare? text
  let bound := cs.length + 1
  Lexer.run? bound { cursor := { rest := cs }, bound }

end Typewright.Yaml
