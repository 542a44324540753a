import Typewright.Text.Case
import Typewright.Text.Quoted

/-!
# Names

Three kinds of names come from the free texts of a document.

* `Naming.identifier` names declarations: letters and digits, each word capitalized.
* `Naming.fieldName` names the members of an operation's input: words joined in camel case.
* `Naming.propertyKey` writes a property name, in quotes unless it is a plain word.

Names that must differ are numbered: `Naming.fresh` takes the first of `name`, `name2`, `name3`
and so on that is not taken.
-/

namespace Typewright.Naming

/-! ### Declaration identifiers -/

/-- The Latin letters. -/
def isLetter (c : Char) : Bool :=
  ('A' ≤ c && c ≤ 'Z') || ('a' ≤ c && c ≤ 'z')

/-- The decimal digits. -/
def isDigit (c : Char) : Bool :=
  '0' ≤ c && c ≤ '9'

/-- The characters that divide words. -/
def isSeparator (c : Char) : Bool :=
  c = '-' || c = '_' || c = ' '

/-- The letters and digits of a text, a letter in upper case when it starts a word.  A word starts
    at the start of the text and after a separator, all other characters having been dropped. -/
def capitalizeWords (starting : Bool) : List Char → List Char
  | [] => []
  | c :: rest =>
    if isLetter c then (if starting then c.toUpper else c) :: capitalizeWords false rest
    else if isDigit c then c :: capitalizeWords false rest
    else capitalizeWords (starting || isSeparator c) rest

/-- The name of a declaration whose text has no letter and no digit. -/
def unknown : List Char :=
  ['U', 'n', 'k', 'n', 'o', 'w', 'n']

/-- A name that starts with a letter or an underscore, and is not empty. -/
def completeIdentifier : List Char → List Char
  | [] => unknown
  | c :: rest => if isDigit c then '_' :: c :: rest else c :: rest

/-- The characters of the identifier for a text. -/
def identifierChars (cs : List Char) : List Char :=
  completeIdentifier (capitalizeWords true cs)

/-- The identifier under which a text declares something.  Different texts may share one. -/
def identifier (s : String) : String :=
  String.ofList (identifierChars s.toList)

/-! ### Input field names -/

/-- Camel case: a separator is dropped and the character after it takes its upper-case form, be
    it a separator too; any other character takes its lower-case form unless it follows a
    lower-case letter.  `raise` tells that a separator was dropped, `last` is the character
    before. -/
def camelChars (raise : Bool) (last : Option Char) : List Char → List Char
  | [] => []
  | c :: rest =>
    if raise then Text.upperForm c ++ camelChars false (some c) rest
    else if isSeparator c then camelChars true (some c) rest
    else if last.any Text.isLowerLetter then c :: camelChars false (some c) rest
    else Text.lowerForm c ++ camelChars false (some c) rest

/-- The member name of an operation input; a name of which camel case leaves nothing is kept. -/
def fieldName (s : String) : String :=
  match camelChars false none s.toList with
  | [] => s
  | cs => String.ofList cs

/-! ### Property keys -/

/-- The characters that a plain word may start with. -/
def startsWord (c : Char) : Bool :=
  isLetter c || c = '_' || c = '$'

/-- The characters that a plain word may go on with. -/
def continuesWord (c : Char) : Bool :=
  startsWord c || isDigit c

/-- A plain word: a letter, an underscore or a dollar sign, then any of these and digits. -/
def isPlainWord : List Char → Bool
  | [] => false
  | c :: rest => startsWord c && rest.all continuesWord

/-- The characters of a property name as a type literal writes it. -/
def propertyKeyChars (cs : List Char) : List Char :=
  if isPlainWord cs then cs else Text.quoteChars cs

/-- A property name as a type literal writes it. -/
def propertyKey (s : String) : String :=
  String.ofList (propertyKeyChars s.toList)

/-! ### Numbered names -/

/-- The names `base`, `base2`, `base3` and so on, counted from zero. -/
def numbered (base : String) (n : Nat) : String :=
  if n = 0 then base else base ++ String.ofList (Nat.toDigits 10 (n + 1))

/-- The first of the first `bound` numbered names that is acceptable, else the next one. -/
def firstNumbered (base : String) (bound : Nat) (acceptable : String → Bool) : String :=
  (((List.range bound).map (numbered base)).find? acceptable).getD (numbered base bound)

/-- The first numbered name that is not taken; there is one among the first so many and one more,
    as numbered names differ. -/
def fresh (taken : List String) (base : String) : String :=
  firstNumbered base (taken.length + 1) (!taken.contains ·)

end Typewright.Naming
