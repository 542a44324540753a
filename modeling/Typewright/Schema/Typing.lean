import Typewright.Schema.Context
import Typewright.Schema.Shape

/-!
# The types of a schema

`Schema.typing` gives the alternative types that a schema denotes, together with what they
mention: an assumed fragment for each reference and a declaration for each enum.  References are
not followed.

The rules for objects, arrays, branches and typed schemas stand first, each in terms of the
typings of the schemas inside; the recursion over schemas comes last.
-/

namespace Typewright.Schema

/-- The sets of several typings, put together in order. -/
def emittedOf (typings : List Typing) : FragmentSet :=
  typings.foldl (fun set typing => set.extend typing.emitted) {}

/-! ### References, constants, enumerations -/

/-- A reference denotes the declaration of its target. -/
def referenceTyping (context : Context) (reference : String) : Typing :=
  (Typing.ofType (.reference (context.pathOf reference))).withFragment (.assumed reference)

/-- An enumeration of strings as an enum declaration. -/
def realEnumTyping (context : Context) (facts : Facts) (values : List String) : Run Typing := do
  let wish := (facts.title.or context.hint).getD "Unknown"
  let (name, names) := (← get).claim (Naming.identifier wish) values
  set names
  let declaration := EnumDeclaration.ofValues name values
  pure ((Typing.ofType (.reference (EnumDeclaration.pathOf name))).withFragment
    declaration.toFragment)

/-- An enumeration denotes one type for each different value, or an enum declaration when there
    are several values, all of them strings, and the options ask for it. -/
def enumTyping (context : Context) (facts : Facts) : Json → Run Typing
  | .array values => do
    let values := Text.distinctBy Json.text values
    let strings := values.filterMap Json.asString?
    if context.options.realEnums && 2 ≤ values.length && strings.length == values.length then
      realEnumTyping context facts strings
    else
      pure (Typing.ofTypes (values.map TypeExpr.ofConst))
  | _ => context.unsupportedEnum

/-! ### Objects -/

/-- A schema under a name, with its typing. -/
structure NamedTyping where
  name : String
  readOnly : Bool
  typing : Typing

/-- The properties that a schema lists. -/
def listedProperties (facts : Facts) (properties : List NamedTyping) :
    List (Property TypeExpr) :=
  properties.map fun property =>
    { name := property.name
      type := property.typing.unionType
      optional := !facts.required.contains property.name
      readonly := property.readOnly }

/-- The properties with one more, of any type, for a required name that they lack. -/
def requireProperty (patterns : List NamedTyping) (properties : List (Property TypeExpr))
    (name : String) : List (Property TypeExpr) :=
  if properties.any (·.name == name) || patterns.any (·.name == name) then properties
  else properties ++ [{ name, type := .unknown }]

/-- What the patterns of an object schema and its additional properties tell about the members
    that no property names. -/
def indexSources (facts : Facts) (patterns : List NamedTyping) :
    List (IndexSignature TypeExpr) :=
  let fromPatterns := patterns.map fun pattern =>
    { type := pattern.typing.unionType
      optional := !facts.required.contains pattern.name
      readonly := pattern.readOnly : IndexSignature TypeExpr }
  let fromAdditional :=
    match facts.additional with
    | some additional =>
      if additional.isFalse then []
      else [{ type := .unknown, optional := true, readonly := additional.flag "readOnly" }]
    | none => []
  fromPatterns ++ fromAdditional

/-- The single index signature of an object type. -/
def indexSignature (sources : List (IndexSignature TypeExpr)) :
    Option (IndexSignature TypeExpr) :=
  if sources.isEmpty then none
  else
    some
      { type := TypeExpr.unionOf (sources.map (·.type))
        optional := sources.all (·.optional)
        readonly := sources.all (·.readonly) }

/-- The object type of a schema. -/
def objectTyping (facts : Facts) (properties patterns : Run (List NamedTyping)) : Run Typing := do
  let properties ← properties
  let patterns ← patterns
  let listed := listedProperties facts properties
  let complete := facts.required.foldl (requireProperty patterns) listed
  pure
    { types := [.object complete (indexSignature (indexSources facts patterns))]
      emitted := emittedOf ((properties ++ patterns).map (·.typing)) }

/-! ### Arrays -/

/-- A tuple of the given elements, with the rest that the schema allows. -/
def tupleTyping (elements : Run (List Typing)) (rest : Option (Run Typing)) : Run Typing := do
  let elements ← elements
  let types := elements.flatMap (·.united.types)
  match rest with
  | some rest =>
    let rest ← rest
    pure
      { types := [.tuple types (some rest.unionType)]
        emitted := emittedOf (elements ++ [rest]) }
  | none => pure { types := [.tuple types none], emitted := emittedOf elements }

/-- Arrays of one element type: tuples when the length is fixed, or bounded below, by a number
    under the limit. -/
def uniformType (limit : Nat) (minItems maxItems : Option Double) (element : TypeExpr) :
    TypeExpr :=
  match minItems with
  | none => .array element
  | some least =>
    -- The tuple is built only below the limit, however large the bound is.
    let short := least.lt (Double.ofInt limit)
    let repeated (rest : Option TypeExpr) := TypeExpr.tuple (.replicate least.truncate element) rest
    if maxItems.any least.sameValue && short then repeated none
    else if Double.zero.lt least && short then repeated (some element)
    else .array element

/-- The array type of a schema whose items all have one schema. -/
def uniformTyping (context : Context) (facts : Facts) (item : Option (Run Typing)) :
    Run Typing := do
  let item ← item.getD (pure (Typing.ofType .unknown))
  let type := uniformType context.options.tupleLimit facts.minItems facts.maxItems item.unionType
  pure { types := [type], emitted := emittedOf [item] }

/-- The typing of a schema for the items of an array. -/
structure ItemTyping where
  /-- Whether the schema is the one that no value fits. -/
  closed : Bool
  typing : Run Typing

/-- The typings of the schemas that describe the items of an array. -/
structure ItemTypings where
  leading : Option (Run (List Typing))
  itemList : Option (Run (List Typing))
  itemSchema : Option ItemTyping
  additionalItems : Option ItemTyping

/-- The typing of the items after the ones given by position, if the schema allows any. -/
def restOf (item : Option ItemTyping) : Option (Run Typing) :=
  (item.filter (!·.closed)).map (·.typing)

/-- The array type of a schema: a tuple when items are given by position. -/
def arrayTyping (context : Context) (facts : Facts) (items : ItemTypings) : Run Typing :=
  if facts.maxItems.any (·.le Double.zero) then pure (Typing.ofType (.array .never))
  else
    match items.leading, items.itemList with
    | some elements, _ =>
      tupleTyping elements (restOf (items.itemSchema.or items.additionalItems))
    | none, some elements => tupleTyping elements (restOf items.additionalItems)
    | none, none => uniformTyping context facts (items.itemSchema.map (·.typing))

/-! ### Branches -/

/-- The typings of the branches of a schema. -/
structure BranchTypings where
  anyOf : Option (Run (List Typing))
  allOf : Option (Run (List Typing))
  oneOf : Option (Run (List Typing))

/-- The branches of one keyword, combined into one type. -/
def combineBranches (combine : List TypeExpr → TypeExpr) :
    Option (Run (List Typing)) → Run (Option Typing)
  | some branches => do
    let branches ← branches
    pure
      (some
        { types := [combine (branches.map (·.unionType))]
          emitted := emittedOf branches })
  | none => pure none

/-- The branches of `anyOf` and `oneOf` are alternatives and those of `allOf` hold together; what
    several keywords give holds together too. -/
def composedTyping (context : Context) (branches : BranchTypings) : Run Typing := do
  let anyOf ← combineBranches TypeExpr.unionOf branches.anyOf
  let allOf ← combineBranches TypeExpr.intersectionOf branches.allOf
  let oneOf ← combineBranches TypeExpr.unionOf branches.oneOf
  let combined := anyOf.toList ++ allOf.toList ++ oneOf.toList
  if combined.isEmpty then throw (.composedSchemaUnsupported context.location)
  else
    pure
      { types := [TypeExpr.intersectionOf (combined.flatMap (·.types))]
        emitted := emittedOf combined }

/-! ### Types -/

/-- A primitive type, without null unless the schema allows it. -/
def primitive (nullable : Bool) (type : TypeExpr) : TypeExpr :=
  if nullable then type else .nonNullable type

/-- The alternative that one type name gives. -/
def alternative (context : Context) (nullable : Bool) (object array : Run Typing) :
    String → Run Typing
  | "boolean" => pure (Typing.ofType (primitive nullable .boolean))
  | "integer" => pure (Typing.ofType (primitive nullable .number))
  | "number" => pure (Typing.ofType (primitive nullable .number))
  | "string" => pure (Typing.ofType (primitive nullable .string))
  | "object" => Typing.united <$> object
  | "array" => Typing.united <$> array
  | other => throw (.badType other context.location)

/-- The brand of a schema, when the options brand its name. -/
def brandType? (context : Context) (facts : Facts) : Option TypeExpr := do
  let name ← (context.brand.or facts.title).map Naming.identifier
  if context.options.isBranded name context.schemaNames then
    some (.object [{ name := "_type", type := .stringLiteral name, optional := true }] none)
  else none

/-- A schema with type names: the alternatives first, then what branches and brand add to each of
    them, and null last, outside of all intersections. -/
def typedTyping (context : Context) (facts : Facts) (names : List String)
    (object array : Run Typing) (branches : Json → BranchTypings) : Run Typing := do
  let nullable := names.contains "null" || facts.nullable
  let names := Text.distinct (names.filter (· != "null"))
  let alternatives ← names.mapM (alternative context nullable object array)
  let null := if nullable then [TypeExpr.null] else []
  -- Only null was named: branches and brand have nothing to add to.
  if alternatives.isEmpty then pure { types := null }
  else
    let type := TypeExpr.unionOf (alternatives.flatMap (·.types))
    let composed ←
      if facts.hasComposition then
        -- A branch without type names takes those of this schema, and is an object for want of any.
        let parent := facts.type.getD (.string "object")
        some <$> composedTyping context (branches parent)
      else pure none
    let parts := type :: composed.toList.flatMap (·.types) ++ (brandType? context facts).toList
    pure
      { types := TypeExpr.intersectionOf parts :: null
        emitted := emittedOf (alternatives ++ composed.toList) }

/-! ### Schemas -/

mutual

/-- The types that a schema denotes; `parent` is the type that a composing schema hands down. -/
def typing (context : Context) (parent : Option Json) : Schema → Run Typing
  | boolean true => pure (Typing.ofType .unknown)
  | boolean false => pure (Typing.ofType .never)
  | malformed => context.unsupported
  | object facts
      ⟨properties, patterns, leading, itemList, itemSchema, additionalItems, anyOf, allOf, oneOf⟩ =>
    let branches (parent : Option Json) : BranchTypings :=
      { anyOf := listTyping (context.descend "anyOf") parent anyOf
        allOf := listTyping (context.descend "allOf") parent allOf
        oneOf := listTyping (context.descend "oneOf") parent oneOf }
    match facts.shape context.location parent with
    | .error failure => throw failure
    | .ok .null => pure (Typing.ofType .null)
    | .ok (.reference reference) => pure (referenceTyping context reference)
    | .ok (.const value) => pure (Typing.ofType (.ofConst value))
    | .ok (.enum values) => enumTyping context facts values
    | .ok (.typed names) =>
      typedTyping context facts names
        (objectTyping facts
          (fieldTypings (context.descend "properties") true properties)
          (fieldTypings (context.descend "patternProperties") false patterns))
        (arrayTyping context facts
          { leading := listTyping (context.descend "prefixItems") none leading
            itemList := listTyping (context.descend "items") none itemList
            itemSchema := itemTyping (context.descend "items") itemSchema
            additionalItems := itemTyping (context.descend "additionalItems") additionalItems })
        fun parent => branches (some parent)
    | .ok .composed => composedTyping context (branches facts.type)
    | .ok .unsupported => context.unsupported

/-- The typings of the schemas under names; the name may serve as the hint. -/
def fieldTypings (context : Context) (hinting : Bool) :
    List (String × Schema) → Run (List NamedTyping)
  | [] => pure []
  | (name, schema) :: rest => do
    let inner := context.descend name
    let typing ← typing (if hinting then inner.named name else inner) none schema
    let others ← fieldTypings context hinting rest
    pure ({ name, readOnly := schema.readOnly, typing } :: others)

/-- The typings of the schemas in a list, the first one at this index. -/
def itemTypings (context : Context) (parent : Option Json) (index : Nat) :
    List Schema → Run (List Typing)
  | [] => pure []
  | schema :: rest => do
    let first ← typing (context.descend (toString index)) parent schema
    let others ← itemTypings context parent (index + 1) rest
    pure (first :: others)

/-- The typings of a list of schemas, if there is one. -/
def listTyping (context : Context) (parent : Option Json) :
    Option (List Schema) → Option (Run (List Typing))
  | some schemas => some (itemTypings context parent 0 schemas)
  | none => none

/-- The typing of a schema for items, if there is one. -/
def itemTyping (context : Context) : Option Schema → Option ItemTyping
  | some schema => some { closed := schema.isFalse, typing := typing context none schema }
  | none => none

end

/-- The types that a schema denotes, made one type. -/
def unitedTyping (context : Context) (parent : Option Json) (schema : Schema) : Run Typing :=
  Typing.united <$> schema.typing context parent

end Typewright.Schema
