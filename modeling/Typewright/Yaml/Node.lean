import Typewright.Yaml.Tag
import Typewright.Yaml.Token

/-!
# Nodes of a YAML document

The tree that the tokens of a text describe.  Anchors are numbered as they come: an anchor gets
the number of different names seen before it, and a name that comes again gets a new number.  A
reference holds the number that its name has at that place.
-/

namespace Typewright.Yaml

/-- What may be written before a node. -/
structure Properties where
  /-- The number of the anchor of the node. -/
  anchor : Option Nat := none
  /-- The tag of the node, in full. -/
  tag : Option (List UInt8) := none

/-- A node of a document. -/
inductive Node where
  | scalar (properties : Properties) (text : String) (plain : Bool)
  | sequence (properties : Properties) (items : List Node)
  | mapping (properties : Properties) (entries : List (Node × Node))
  | reference (anchor : Nat)

namespace Node

/-- The node that is left out where a node may be left out. -/
def missing : Node :=
  scalar {} "" true

end Node

/-! ### Reading nodes -/

/-- What is left of the tokens, with the names and handles known so far. -/
structure TokenReader where
  tokens : List Token
  /-- The numbers of the anchor names. -/
  anchors : List (String × Nat) := []
  /-- The meanings of the tag handles. -/
  handles : List (String × List UInt8) := []

/-- Reading from tokens, which fails when they make no document. -/
abbrev Reading := StateT TokenReader Option

namespace TokenReader

/-- The next token. -/
def peek? : Reading (Option Token) := do
  return (← get).tokens.head?

/-- Passes the next token. -/
def skip : Reading Unit :=
  modify fun r => { r with tokens := r.tokens.drop 1 }

/-- The number of a new anchor with the given name. -/
def newAnchor (name : String) : Reading Nat :=
  modifyGet fun r =>
    let number := r.anchors.length
    (number, { r with anchors := (name, number) :: r.anchors.filter (·.1 != name) })

/-- The number of an anchor that has come before. -/
def anchor? (name : String) : Reading Nat := do
  (← get).anchors.lookup name

/-- A tag in full. -/
def tag? (written : WrittenTag) : Reading (List UInt8) := do
  if written.handle.isEmpty then return written.suffix
  else
    let meaning ← (← get).handles.lookup written.handle
    return meaning ++ written.suffix

/-- Reads an anchor, if one comes next. -/
def anchorProperty : Reading (Option Nat) := do
  match ← peek? with
  | some (.anchor name) =>
    skip
    return some (← newAnchor name)
  | _ => return none

/-- Reads a tag, if one comes next. -/
def tagProperty : Reading (Option (List UInt8)) := do
  match ← peek? with
  | some (.tag written) =>
    skip
    return some (← tag? written)
  | _ => return none

/-- Reads an anchor and a tag, each of which may be left out, in either order. -/
def properties : Reading Properties := do
  match ← anchorProperty with
  | some number => return { anchor := some number, tag := ← tagProperty }
  | none =>
    let tag ← tagProperty
    return { anchor := ← if tag.isSome then anchorProperty else pure none, tag }

/-- A scalar with its properties. -/
def scalarNode (properties : Properties) (text : ScalarText) : Node :=
  .scalar properties (String.ofList text.text) text.plain

/-- A node with properties and no content. -/
def emptyNode (properties : Properties) : Reading Node :=
  if properties.anchor.isSome || properties.tag.isSome then pure (.scalar properties "" true)
  else failure

/-- Whether a token ends an entry of a block mapping before its content. -/
def endsBlockEntry : Option Token → Bool
  | some .key | some .value | some .blockEnd => true
  | _ => false

/-- Whether a token ends an item of a block sequence before its content. -/
def endsBlockItem : Option Token → Bool
  | some .blockEntry | some .blockEnd => true
  | _ => false

/-- Whether a token ends an item of a flow sequence before its content. -/
def endsFlowItem : Option Token → Bool
  | some .flowEntry | some .flowSequenceEnd => true
  | _ => false

/-- Whether a token ends an entry of a flow mapping before its content. -/
def endsFlowEntry : Option Token → Bool
  | some .flowEntry | some .flowMappingEnd => true
  | _ => false

/-- Whether the next token is a colon, or ends an entry by the given rule. -/
def endsKey (ends : Option Token → Bool) : Option Token → Bool
  | some .value => true
  | token => ends token

/-- Reads a node, or takes it as missing when the next token says so. -/
def nodeUnless (ends : Option Token → Bool) (node : Reading Node) : Reading Node := do
  if ends (← peek?) then return .missing else node

/-- Reads a colon and a value; both may be missing. -/
def valueUnless (ends : Option Token → Bool) (node : Reading Node) : Reading Node := do
  match ← peek? with
  | some .value =>
    skip
    nodeUnless ends node
  | _ => return .missing

mutual

/-- Reads a node.  Block collections may come only where `inBlock` holds, and a block sequence
    without an indentation of its own only where `asEntry` holds too. -/
def node (inBlock asEntry : Bool) : Nat → Reading Node
  | 0 => failure
  | bound + 1 => do
    if let some (.reference name) ← peek? then
      skip
      return .reference (← anchor? name)
    let properties ← properties
    match ← peek?, inBlock, asEntry with
    -- A dash at the indentation of the mapping itself opens a sequence and no new level.
    | some .blockEntry, _, true => return .sequence properties (← entryItems bound)
    | some (.scalar text), _, _ =>
      skip
      return scalarNode properties text
    | some .flowSequenceStart, _, _ =>
      skip
      return .sequence properties (← flowItems true bound)
    | some .flowMappingStart, _, _ =>
      skip
      return .mapping properties (← flowEntries true bound)
    | some .blockSequenceStart, true, _ =>
      skip
      return .sequence properties (← blockItems bound)
    | some .blockMappingStart, true, _ =>
      skip
      return .mapping properties (← blockEntries bound)
    | _, _, _ => emptyNode properties

/-- Reads the items of a block sequence and its end. -/
def blockItems : Nat → Reading (List Node)
  | 0 => failure
  | bound + 1 => do
    match ← peek? with
    | some .blockEntry =>
      skip
      let item ← nodeUnless endsBlockItem (node true false bound)
      return item :: (← blockItems bound)
    | some .blockEnd =>
      skip
      return []
    | _ => failure

/-- Reads the items of a block sequence that is not indented deeper than its mapping. -/
def entryItems : Nat → Reading (List Node)
  | 0 => failure
  | bound + 1 => do
    match ← peek? with
    | some .blockEntry =>
      skip
      -- The next key of the mapping around ends the sequence, as there is no closing token.
      let ends := fun token => endsBlockItem token || endsBlockEntry token
      let item ← nodeUnless ends (node true false bound)
      return item :: (← entryItems bound)
    | _ => return []

/-- Reads the entries of a block mapping and its end. -/
def blockEntries : Nat → Reading (List (Node × Node))
  | 0 => failure
  | bound + 1 => do
    match ← peek? with
    | some .key =>
      skip
      let key ← nodeUnless endsBlockEntry (node true true bound)
      let value ← valueUnless endsBlockEntry (node true true bound)
      return (key, value) :: (← blockEntries bound)
    | some .blockEnd =>
      skip
      return []
    | _ => failure

/-- Reads the items of a flow sequence and its end.  An item may be a single entry of a mapping;
    when the key of such an entry is missing, the token in its place is passed. -/
def flowItems (first : Bool) : Nat → Reading (List Node)
  | 0 => failure
  | bound + 1 => do
    if let some .flowSequenceEnd ← peek? then
      skip
      return []
    if !first then
      let some .flowEntry ← peek? | failure
      skip
    match ← peek? with
    | some .flowSequenceEnd =>
      skip
      return []
    | some .key =>
      skip
      let missing := endsKey endsFlowItem (← peek?)
      if missing then skip
      let key ← if missing then pure .missing else node false false bound
      let value ← valueUnless endsFlowItem (node false false bound)
      return .mapping {} [(key, value)] :: (← flowItems false bound)
    | _ =>
      let item ← node false false bound
      return item :: (← flowItems false bound)

/-- Reads the entries of a flow mapping and its end. -/
def flowEntries (first : Bool) : Nat → Reading (List (Node × Node))
  | 0 => failure
  | bound + 1 => do
    if let some .flowMappingEnd ← peek? then
      skip
      return []
    if !first then
      let some .flowEntry ← peek? | failure
      skip
    match ← peek? with
    | some .flowMappingEnd =>
      skip
      return []
    | some .key =>
      skip
      let key ← nodeUnless (endsKey endsFlowEntry) (node false false bound)
      let value ← valueUnless endsFlowEntry (node false false bound)
      return (key, value) :: (← flowEntries false bound)
    | _ =>
      let key ← node false false bound
      return (key, .missing) :: (← flowEntries false bound)

end

/-! ### Reading a document -/

/-- The handles that need no directive. -/
def commonHandles : List (String × List UInt8) :=
  [("!", octets ['!']), ("!!", octets "tag:yaml.org,2002:".toList)]

/-- Reads the directives before a document.  There is at most one version, which has to be one
    that can be read, and at most one meaning of a handle. -/
def directives (hasVersion : Bool) : Nat → Reading Unit
  | 0 => failure
  | bound + 1 => do
    match ← peek? with
    | some (.version major minor) =>
      if hasVersion || major != 1 || (minor != 1 && minor != 2) then failure
      skip
      directives true bound
    | some (.handle name meaning) =>
      if ((← get).handles.lookup name).isSome then failure
      modify fun r => { r with handles := r.handles ++ [(name, meaning)] }
      skip
      directives hasVersion bound
    | _ => modify fun r => { r with handles := r.handles ++ commonHandles }

/-- Whether a token comes before or after the content of a document. -/
def endsDocument : Option Token → Bool
  | none | some (.version ..) | some (.handle ..) | some .documentStart | some .documentEnd => true
  | _ => false

/-- Passes the marks of a document's end. -/
def skipDocumentEnds : Reading Unit :=
  modify fun r =>
    { r with tokens := r.tokens.dropWhile fun | .documentEnd => true | _ => false }

/-- Reads the one document of a text.  Its start may be left unmarked when no directives come
    before it. -/
def document (bound : Nat) : Reading Node := do
  let token ← peek?
  directives false bound
  let content := node true false bound
  let root ←
    match token with
    | some (.version ..) | some (.handle ..) | some .documentStart =>
      let some .documentStart ← peek? | failure
      skip
      nodeUnless endsDocument content
    | _ => content
  skipDocumentEnds
  if (← peek?).isSome then failure
  return root

end TokenReader

namespace Node

/-- The root of the document that tokens make; a text without tokens has none. -/
def ofTokens? (tokens : List Token) : Option (Option Node) :=
  if tokens.isEmpty then some none
  else ((TokenReader.document (2 * tokens.length + 2)).run' { tokens }).map some

/-! ### Measures -/

mutual

/-- How many starts and ends of nodes the document holds; a scalar and a reference count once. -/
def size : Node → Nat
  | scalar .. | reference _ => 1
  | sequence _ items => 2 + itemsSize items
  | mapping _ entries => 2 + entriesSize entries

/-- The sizes of items together. -/
def itemsSize : List Node → Nat
  | [] => 0
  | item :: rest => item.size + itemsSize rest

/-- The sizes of keys and values together. -/
def entriesSize : List (Node × Node) → Nat
  | [] => 0
  | (key, value) :: rest => key.size + value.size + entriesSize rest

end

/-- The anchor of a node with the node. -/
def own (properties : Properties) (node : Node) : List (Nat × Node) :=
  properties.anchor.toList.map (·, node)

mutual

/-- The anchored nodes with the numbers of their anchors, in document order. -/
def anchored : Node → List (Nat × Node)
  | node@(scalar properties _ _) => own properties node
  | node@(sequence properties items) => own properties node ++ itemsAnchored items
  | node@(mapping properties entries) => own properties node ++ entriesAnchored entries
  | reference _ => []

/-- The anchored nodes among items and below them. -/
def itemsAnchored : List Node → List (Nat × Node)
  | [] => []
  | item :: rest => item.anchored ++ itemsAnchored rest

/-- The anchored nodes among keys and values and below them. -/
def entriesAnchored : List (Node × Node) → List (Nat × Node)
  | [] => []
  | (key, value) :: rest => key.anchored ++ value.anchored ++ entriesAnchored rest

end

end Node

end Typewright.Yaml
