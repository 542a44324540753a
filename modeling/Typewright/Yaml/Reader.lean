import Typewright.Json.Basic
import Typewright.Yaml.Lexer
import Typewright.Yaml.Node
import Typewright.Yaml.Scalar.Meaning

/-!
# Reading a YAML document

`Yaml.read?` gives the value of a text that holds one YAML document.  Keys are scalars and stand
for their texts.  References are followed when values are made, up to a limit that grows with the
document, and collections may be nested 128 deep.  Infinities and values that are not numbers
become null, as does a text without a document.
-/

namespace Typewright.Yaml

/-! ### Scalars -/

/-- An integer that fits in 64 bits; one that fits in 128 bits only is no value. -/
def integerValue? (n : Int) : Option Json :=
  if Meaning.fits 64 n then some (.number (.integer n)) else none

/-- A float, or null for one that no document can hold. -/
def floatValue : Meaning.FloatValue → Json
  | .finite x => .number (.double x)
  | .unbounded => .null

/-- The integer that a scalar writes, as long as it fits in 128 bits. -/
def boundedInteger? (cs : List Char) : Option Int :=
  (Meaning.integer? cs).filter (Meaning.fits 128)

/-- The value of a plain scalar without a tag. -/
def plainValue? (text : String) : Option Json :=
  let cs := text.toList
  if cs.isEmpty || Meaning.isNull cs then some .null
  else
    match Meaning.bool? cs, boundedInteger? cs with
    | some b, _ => some (.bool b)
    | none, some n => integerValue? n
    | none, none =>
      if Meaning.hasLeadingZero cs then some (.string text)
      else some ((Meaning.float? cs).elim (.string text) floatValue)

/-- Tags of YAML itself that say how a scalar is read. -/
inductive ScalarTag where
  | bool
  | int
  | float
  | null

namespace ScalarTag

/-- The tag with the given octets. -/
def ofOctets? (tag : List UInt8) : Option ScalarTag :=
  let named (name : String) := octets ("tag:yaml.org,2002:" ++ name).toList
  if tag = named "bool" then some .bool
  else if tag = named "int" then some .int
  else if tag = named "float" then some .float
  else if tag = named "null" then some .null
  else none

/-- The value of a scalar with such a tag, if it is written as the tag says. -/
def value? (tag : ScalarTag) (text : String) : Option Json :=
  let cs := text.toList
  match tag with
  | bool => (Meaning.bool? cs).map .bool
  | int => (boundedInteger? cs).bind integerValue?
  | float => (Meaning.float? cs).map floatValue
  | null => if Meaning.isNull cs then some .null else none

end ScalarTag

/-- Whether a tag belongs to an application. -/
def isLocal (tag : List UInt8) : Bool :=
  tag.head? == some '!'.toNat.toUInt8

/-- Whether a tag is one of an application, written in characters: no value has such a tag. -/
def isForeign (tag : List UInt8) : Bool :=
  isLocal tag && (String.fromUTF8? ⟨tag.toArray⟩).isSome

/-- The value of a scalar. -/
def scalarValue? (tag : Option (List UInt8)) (text : String) (plain : Bool) : Option Json :=
  match tag with
  | none => if plain then plainValue? text else some (.string text)
  | some tag =>
    if isForeign tag then none
    else
      match ScalarTag.ofOctets? tag with
      | some known => known.value? text
      | none => if isLocal tag && plain then plainValue? text else some (.string text)

/-! ### References -/

/-- What is known when values are made: the anchored nodes, and how many references may be
    followed. -/
structure Anchors where
  nodes : List (Nat × Node)
  limit : Nat

/-- Making values, counting the references followed so far. -/
abbrev Valuing := StateT Nat Option

namespace Anchors

/-- The anchors of a document.  A hundred references may be followed for every start or end of a
    node, and of nodes with one number the last counts. -/
def ofRoot (root : Node) : Anchors :=
  { nodes := root.anchored.reverse, limit := root.size * 100 }

/-- The node itself, or the node that it refers to. -/
def follow (anchors : Anchors) : Node → Valuing Node
  | .reference number => do
    let followed ← get
    if anchors.limit ≤ followed then failure
    set (followed + 1)
    anchors.nodes.lookup number
  | node => pure node

/-- The text of a key. -/
def keyText (anchors : Anchors) (key : Node) : Valuing String := do
  match ← anchors.follow key with
  | .scalar _ text _ => return text
  | _ => failure

/-- The value of a node, whose collections may be nested `depth` deep. -/
def value (anchors : Anchors) (depth : Nat) (node : Node) : Valuing Json := do
  match depth, ← anchors.follow node with
  | _, .scalar properties text plain => scalarValue? properties.tag text plain
  | depth + 1, .sequence properties items =>
    if properties.tag.any isForeign then failure
    return .array (← items.mapM (anchors.value depth))
  | depth + 1, .mapping properties entries =>
    if properties.tag.any isForeign then failure
    let fields ← entries.foldlM (fun fields (key, item) => do
      let name ← anchors.keyText key
      return Json.setField name (← anchors.value depth item) fields) []
    return .object fields
  | _, _ => failure
termination_by structural depth

end Anchors

/-! ### Documents -/

/-- How deep collections may be nested. -/
def depthLimit : Nat :=
  128

/-- The value of a YAML text, if it can be read. -/
def read? (text : String) : Option Json := do
  match ← Node.ofTokens? (← tokens? text) with
  | none => some .null
  | some root => (Anchors.ofRoot root).value depthLimit root |>.run' 0

end Typewright.Yaml
