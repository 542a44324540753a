import Typewright.Failure
import Typewright.Json.Basic
import Typewright.Text.Blank
import Typewright.Text.Natural

/-!
# Pointers

A reference such as `#/components/schemas/Pet` addresses a value inside a document.  It splits
into segments, in which `~1` stands for a slash and `~0` for a tilde; empty segments do not count.
A path of segments is resolved from the root of the document, and a reference object, whose
`$ref` is a string, is followed until a value that is no reference object is found.
-/

namespace Typewright.Pointer

/-! ### Segments -/

/-- Every occurrence of the pair `first second`, from the left, becomes `replacement`. -/
def replacePair (first second replacement : Char) : List Char → List Char
  | [] => []
  | [c] => [c]
  | c :: d :: rest =>
    if c = first ∧ d = second then replacement :: replacePair first second replacement rest
    else c :: replacePair first second replacement (d :: rest)

/-- The text of a written segment. -/
def unescapeChars (cs : List Char) : List Char :=
  replacePair '~' '0' '~' (replacePair '~' '1' '/' cs)

/-- A character as a segment writes it. -/
def escapeChar (c : Char) : List Char :=
  if c = '~' then ['~', '0'] else if c = '/' then ['~', '1'] else [c]

/-- The characters of a segment as a reference writes it. -/
def escapeChars (cs : List Char) : List Char :=
  cs.flatMap escapeChar

/-- A segment as a reference writes it. -/
def escape (segment : String) : String :=
  String.ofList (escapeChars segment.toList)

/-- A reference without the `#` or `#/` it may start with. -/
def dropAnchor : List Char → List Char
  | '#' :: '/' :: rest => rest
  | '#' :: rest => rest
  | cs => cs

/-- The segments of a reference, as characters. -/
def splitChars (cs : List Char) : List (List Char) :=
  ((Text.splitOnChar '/' (dropAnchor cs)).filter (!·.isEmpty)).map unescapeChars

/-- The segments of a reference. -/
def split (reference : String) : List String :=
  (splitChars reference.toList).map String.ofList

/-- The characters without the slashes at their end. -/
def dropTrailingSlashes (cs : List Char) : List Char :=
  (cs.reverse.dropWhile (· == '/')).reverse

/-- The reference to a child of the value that `reference` addresses. -/
def child (reference segment : String) : String :=
  String.ofList (dropTrailingSlashes reference.toList ++ '/' :: escapeChars segment.toList)

/-- The reference to a child of a child. -/
def descend (reference : String) (segments : List String) : String :=
  segments.foldl child reference

/-- The reference with the given segments. -/
def join (segments : List String) : String :=
  "#/" ++ "/".intercalate (segments.map escape)

/-- The reference to the root of a document. -/
def root : String :=
  "#"

/-! ### Resolution -/

/-- The child of a value under one segment: a field of an object or an item of an array. -/
def step? (value : Json) (segment : String) : Option Json :=
  match value with
  | .object fields => fields.lookup segment
  | .array items => (Text.word? segment).bind (items[·]?)
  | _ => none

/-- Walks from `value` along the remaining segments of `path`. -/
def walk (path : List String) (value : Json) : List String → Except Failure Json
  | [] => .ok value
  | segment :: rest =>
    match step? value segment with
    | some next => walk path next rest
    | none => .error (.unresolved path (some segment))

/-- The value at a path.  The first segment that is missing is named; below a `null` root nothing
    is defined. -/
def resolve (document : Json) (path : List String) : Except Failure Json :=
  match document with
  | .null => .error (.unresolved path none)
  | _ => walk path document path

/-! ### Reference objects -/

/-- The keyword of a reference object. -/
def keyword : String :=
  "$ref"

/-- The reference of a reference object. -/
def target? (value : Json) : Option String :=
  value.string? keyword

mutual

/-- The references of all reference objects inside a value, in document order. -/
def references : Json → List String
  | .array items => referencesOfItems items
  | .object fields => (target? (.object fields)).toList ++ referencesOfFields fields
  | _ => []

/-- The references inside the items of an array. -/
def referencesOfItems : List Json → List String
  | [] => []
  | item :: rest => references item ++ referencesOfItems rest

/-- The references inside the fields of an object. -/
def referencesOfFields : List (String × Json) → List String
  | [] => []
  | (_, value) :: rest => references value ++ referencesOfFields rest

end

/-- The chain of references led back to a reference already followed. -/
def circular (reference : String) : Failure :=
  .unresolved (split reference) (some reference)

/-- Follows a value through reference objects.  `visited` are the references followed so far, and
    at most `fuel` more are followed. -/
def followFrom (document : Json) : Nat → List String → Json → Except Failure Json
  | fuel, visited, value =>
    match target? value with
    | none => .ok value
    | some reference =>
      if visited.contains reference then .error (circular reference)
      else
        match fuel with
        | 0 => .error (circular reference)
        | fuel + 1 =>
          match resolve document (split reference) with
          | .ok next => followFrom document fuel (reference :: visited) next
          | .error failure => .error failure

/-- The value that a chain of reference objects leads to.  No chain has more links than the
    document has reference objects and one more, for the value it starts from. -/
def follow (document value : Json) : Except Failure Json :=
  match target? value with
  | none => .ok value
  | some _ => followFrom document ((references document).length + 1) [] value

end Typewright.Pointer
