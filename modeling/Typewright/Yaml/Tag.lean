import Typewright.Text.Natural
import Typewright.Yaml.Cursor
import Typewright.Yaml.Token

/-!
# Tags and directives

A tag is written in full between angle brackets, or as a handle and a suffix.  Directives come
before a document and give its version or the meaning of a tag handle.  Tags are octets: an
escape in a tag stands for a single octet.
-/

namespace Typewright.Yaml

/-- The octets of a text in ASCII. -/
def octets (cs : List Char) : List UInt8 :=
  cs.map (·.toNat.toUInt8)

namespace Tag

/-! ### Escaped octets -/

/-- The octet of an escape: a percent sign and two hexadecimal digits. -/
def octet? : List Char → Option UInt8
  | '%' :: high :: low :: _ => do
    let high ← Text.digitIn? 16 high
    let low ← Text.digitIn? 16 low
    some (16 * high + low).toUInt8
  | _ => none

/-- How many octets follow the first octet of a character, unless no character starts with it. -/
def followers? (octet : UInt8) : Option Nat :=
  if octet < 0x80 then some 0
  else if octet < 0xC0 then none
  else if octet < 0xE0 then some 1
  else if octet < 0xF0 then some 2
  else if octet < 0xF8 then some 3
  else none

/-- Reads escapes of octets that continue a character. -/
def continuation? : Nat → Cursor → Option (List UInt8 × Cursor)
  | 0, cursor => some ([], cursor)
  | count + 1, cursor => do
    let octet ← octet? cursor.rest
    if octet < 0x80 ∨ 0xC0 ≤ octet then none
    else
      let (more, cursor) ← continuation? count (cursor.skip 3)
      some (octet :: more, cursor)

/-- Reads the escapes that make one character. -/
def escapes? (cursor : Cursor) : Option (List UInt8 × Cursor) := do
  let octet ← octet? cursor.rest
  let count ← followers? octet
  let (more, cursor) ← continuation? count (cursor.skip 3)
  some (octet :: more, cursor)

/-! ### Parts of tags -/

/-- Characters of a tag.  Commas and square brackets belong only to tags in full and to the
    meanings of handles. -/
def isTagChar (inFull : Bool) (c : Char) : Bool :=
  isNameChar c || ";/?:@&=+$.%!~*'()".toList.contains c || (inFull && ",[]".toList.contains c)

/-- Reads the characters of a tag. -/
def body? (inFull : Bool) : Nat → Cursor → Option (List UInt8 × Cursor)
  | 0, _ => none
  | bound + 1, cursor =>
    match cursor.peek?.filter (isTagChar inFull) with
    | none => some ([], cursor)
    | some '%' => do
      let (octets, cursor) ← escapes? cursor
      let (more, cursor) ← body? inFull bound cursor
      some (octets ++ more, cursor)
    | some c => do
      let (more, cursor) ← body? inFull bound cursor.next
      some (c.toNat.toUInt8 :: more, cursor)

/-- A tag ends at the first zero octet. -/
def untilZero (octets : List UInt8) : List UInt8 :=
  octets.takeWhile (· != 0)

/-- Reads the characters of a tag, of which there must be one. -/
def someBody? (inFull : Bool) (bound : Nat) (cursor : Cursor) :
    Option (List UInt8 × Cursor) := do
  let (octets, cursor) ← body? inFull bound cursor
  if octets.isEmpty then none else some (untilZero octets, cursor)

/-- Reads what looks like a handle: an exclamation mark, a name, and perhaps another mark. -/
def handle? (cursor : Cursor) : Option (List Char × Cursor) :=
  if cursor.sees '!' then
    let (name, after) := cursor.next.span isNameChar
    if after.sees '!' then some ('!' :: (name ++ ['!']), after.next) else some ('!' :: name, after)
  else none

/-- Whether a text is a handle that ends with a mark of its own. -/
def isClosed (handle : List Char) : Bool :=
  2 ≤ handle.length && handle.getLast? == some '!'

/-! ### Tags -/

/-- Reads a tag in full. -/
def full? (bound : Nat) (cursor : Cursor) : Option (WrittenTag × Cursor) := do
  let (suffix, cursor) ← someBody? true bound (cursor.skip 2)
  if cursor.sees '>' then some ({ handle := "", suffix }, cursor.next) else none

/-- Reads a handle and a suffix.  A single mark alone is a tag by itself, without a handle. -/
def short? (bound : Nat) (cursor : Cursor) : Option (WrittenTag × Cursor) := do
  let (handle, cursor) ← handle? cursor
  if isClosed handle then
    let (suffix, cursor) ← someBody? false bound cursor
    some ({ handle := String.ofList handle, suffix }, cursor)
  else
    let (more, cursor) ← body? false bound cursor
    match untilZero (octets (handle.drop 1) ++ more) with
    | [] => some ({ handle := "", suffix := octets ['!'] }, cursor)
    | suffix => some ({ handle := "!", suffix }, cursor)

/-- Reads a tag.  A gap ends it, and in a flow collection so does a comma. -/
def scan? (inFlow : Bool) (bound : Nat) (cursor : Cursor) : Option (WrittenTag × Cursor) := do
  let (tag, cursor) ←
    if cursor.ahead? 1 = some '<' then full? bound cursor else short? bound cursor
  if endsWord cursor.peek? || (inFlow && cursor.sees ',') then some (tag, cursor) else none

end Tag

namespace Directive

/-- Reads a part of a version: at most nine digits. -/
def versionPart? (cursor : Cursor) : Option (Nat × Cursor) := do
  let (digits, cursor) := cursor.span Char.isDigit
  let n ← Text.natIn? 10 digits
  if digits.length ≤ 9 then some (n, cursor) else none

/-- Reads the two parts of a version. -/
def version? (cursor : Cursor) : Option (Token × Cursor) := do
  let (major, cursor) ← versionPart? (cursor.skipWhile isBlank)
  if cursor.sees '.' then
    let (minor, cursor) ← versionPart? cursor.next
    some (.version major minor, cursor)
  else none

/-- Reads a handle and its meaning. -/
def handle? (bound : Nat) (cursor : Cursor) : Option (Token × Cursor) := do
  let (handle, cursor) ← Tag.handle? (cursor.skipWhile isBlank)
  if (handle = ['!'] ∨ Tag.isClosed handle) ∧ cursor.peek?.any isBlank then
    let (meaning, cursor) ← Tag.someBody? true bound (cursor.skipWhile isBlank)
    if endsWord cursor.peek? then some (.handle (String.ofList handle) meaning, cursor) else none
  else none

/-- Reads a directive with the rest of its line. -/
def scan? (bound : Nat) (cursor : Cursor) : Option (Token × Cursor) := do
  let (name, cursor) := cursor.next.span isNameChar
  if endsWord cursor.peek? then
    let (token, cursor) ←
      match String.ofList name with
      | "YAML" => version? cursor
      | "TAG" => handle? bound cursor
      | _ => none
    let cursor ← cursor.endOfLine?
    some (token, cursor)
  else none

end Directive

end Typewright.Yaml
