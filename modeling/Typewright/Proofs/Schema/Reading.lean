import Mathlib.Tactic.SplitIfs
import Typewright.Proofs.Json.Inside
import Typewright.Proofs.Run
import Typewright.Schema.Typing

/-!
# How a schema is read off a value

The schemas inside a schema, keyword by keyword, in terms of the accessors of values, and the rule
of `Schema.typing` for a schema written as an object.
-/

namespace Typewright

@[simp] theorem Context.baseName_descend (context : Context) (segment : String) :
    (context.descend segment).baseName = context.baseName := rfl

@[simp] theorem Context.options_descend (context : Context) (segment : String) :
    (context.descend segment).options = context.options := rfl

namespace Schema

/-! ### Parts -/

theorem namedSchemas_eq (value : Json) :
    namedSchemas value = ofFields (value.asObject?.getD []) := by
  cases value <;> simp [namedSchemas, Json.asObject?, ofFields]

theorem schemaList_eq (value : Json) : schemaList value = value.asArray?.map ofItems := by
  cases value <;> simp [schemaList, Json.asArray?]

/-- A schema is an object or a truth value, and nothing else. -/
theorem ofJson_eq_malformed {value : Json} (hbool : value.kind ≠ .boolean)
    (hobject : value.kind ≠ .object) : ofJson value = malformed := by
  cases value <;> simp_all [ofJson, Json.kind]

/-- The value of a field, unless it is an array. -/
def unlisted? (value : Json) (name : String) : Option Json :=
  (value.field? name).filter (!·.isArray)

/-- A keyword that holds a single schema is a field of the object. -/
theorem field?_of_unlisted? {value inner : Json} {name : String}
    (h : unlisted? value name = some inner) : value.field? name = some inner :=
  (Option.filter_eq_some_iff.1 h).1

private theorem ofJson_unless_array (value : Json) :
    (if value.isArray then none else some (ofJson value)) =
      ((some value).filter (!·.isArray)).map ofJson := by
  by_cases h : value.isArray = true <;> simp [Option.filter, h]

/-- Every part of a schema is read from the field of its name. -/
theorem partsOf_eq (fields : List (String × Json)) :
    partsOf fields =
      let value := Json.object fields
      { properties := ofFields ((value.entries? "properties").getD [])
        patterns := ofFields ((value.entries? "patternProperties").getD [])
        leading := (value.items? "prefixItems").map ofItems
        itemList := (value.items? "items").map ofItems
        itemSchema := (unlisted? value "items").map ofJson
        additionalItems := (unlisted? value "additionalItems").map ofJson
        anyOf := (value.items? "anyOf").map ofItems
        allOf := (value.items? "allOf").map ofItems
        oneOf := (value.items? "oneOf").map ofItems } := by
  induction fields with
  | nil => simp [partsOf, Json.entries?, Json.items?, unlisted?, ofFields]
  | cons head rest ih =>
    obtain ⟨name, value⟩ := head
    -- The field at hand decides its own part; the other parts come from the rest.
    rw [partsOf, ih]
    simp only [Json.entries?, Json.items?, unlisted?, Json.field?_object, Json.lookup_cons_eq,
      namedSchemas_eq, schemaList_eq, ofJson_unless_array]
    split_ifs <;> simp_all

/-! ### The rule for enums -/

/-- The name that an enum declaration should have. -/
def enumWish (context : Context) (facts : Facts) : String :=
  (facts.title.or context.hint).getD "Unknown"

/-- The enum is declared under the name that is claimed for its values. -/
theorem yields_realEnumTyping_iff {context : Context} {facts : Facts} {values : List String}
    {names names' : EnumNames} {typing : Typing} :
    (realEnumTyping context facts values).Yields names typing names' ↔
      let claimed := names.claim (Naming.identifier (enumWish context facts)) values
      typing = (Typing.ofType (.reference (EnumDeclaration.pathOf claimed.1))).withFragment
        (EnumDeclaration.ofValues claimed.1 values).toFragment ∧ names' = claimed.2 := by
  rw [Run.Yields, realEnumTyping, Run.outcome_bind, Run.outcome_get]
  simp only
  rw [Run.outcome_bind, Run.outcome_set]
  simp only [Run.outcome_pure, Prod.mk.injEq, Except.ok.injEq, enumWish]
  rw [eq_comm, @eq_comm _ names']

/-! ### The rule for objects -/

/-- The typings of the schemas under a keyword that holds an array. -/
def keywordTypings (context : Context) (parent : Option Json) (value : Json) (keyword : String) :
    Option (Run (List Typing)) :=
  (value.items? keyword).map fun items =>
    itemTypings (context.descend keyword) parent 0 (ofItems items)

/-- The typing of the schema under a keyword, unless the keyword holds an array. -/
def keywordTyping (context : Context) (value : Json) (keyword : String) : Option ItemTyping :=
  (unlisted? value keyword).map fun inner =>
    { closed := (ofJson inner).isFalse
      typing := (ofJson inner).typing (context.descend keyword) none }

/-- The typings of the schemas under the names of a keyword that holds an object. -/
def namedTypings (context : Context) (hinting : Bool) (value : Json) (keyword : String) :
    Run (List NamedTyping) :=
  fieldTypings (context.descend keyword) hinting (ofFields ((value.entries? keyword).getD []))

/-- The typings of the branches of a schema. -/
def branchTypings (context : Context) (value : Json) (parent : Option Json) : BranchTypings :=
  { anyOf := keywordTypings context parent value "anyOf"
    allOf := keywordTypings context parent value "allOf"
    oneOf := keywordTypings context parent value "oneOf" }

/-- The object type of a schema. -/
def objectTypingOf (context : Context) (value : Json) : Run Typing :=
  objectTyping (Facts.ofJson value) (namedTypings context true value "properties")
    (namedTypings context false value "patternProperties")

/-- The array type of a schema. -/
def arrayTypingOf (context : Context) (value : Json) : Run Typing :=
  arrayTyping context (Facts.ofJson value)
    { leading := keywordTypings context none value "prefixItems"
      itemList := keywordTypings context none value "items"
      itemSchema := keywordTyping context value "items"
      additionalItems := keywordTyping context value "additionalItems" }

/-- What a schema of each shape denotes. -/
def shapeTyping (context : Context) (value : Json) : Shape → Run Typing
  | .null => pure (Typing.ofType .null)
  | .reference reference => pure (referenceTyping context reference)
  | .const constant => pure (Typing.ofType (.ofConst constant))
  | .enum values => enumTyping context (Facts.ofJson value) values
  | .typed names =>
    typedTyping context (Facts.ofJson value) names (objectTypingOf context value)
      (arrayTypingOf context value) fun parent => branchTypings context value (some parent)
  | .composed => composedTyping context (branchTypings context value none)
  | .unsupported => context.unsupported

theorem listTyping_map (context : Context) (parent : Option Json) (items : Option (List Json)) :
    listTyping context parent (items.map ofItems) =
      items.map fun items => itemTypings context parent 0 (ofItems items) := by
  cases items <;> simp [listTyping]

theorem itemTyping_map (context : Context) (inner : Option Json) :
    itemTyping context (inner.map ofJson) =
      inner.map fun inner =>
        { closed := (ofJson inner).isFalse, typing := (ofJson inner).typing context none } := by
  cases inner <;> simp [itemTyping]

/-- The shape of a schema, with the keywords that decide it. -/
inductive Facts.HasShape (facts : Facts) (location : String) (parent : Option Json) :
    Shape → Prop where
  | null (type : facts.type = some (.string "null")) : HasShape facts location parent .null
  | reference {reference : String} (reference_eq : facts.reference = some reference) :
      HasShape facts location parent (.reference reference)
  | const {value : Json} (const_eq : facts.const = some value) :
      HasShape facts location parent (.const value)
  | enum {values : Json} (enum_eq : facts.enum = some values) :
      HasShape facts location parent (.enum values)
  | declared {declared : Json} {names : List String} (type : facts.type = some declared)
      (names_eq : typeNames location declared = .ok names) :
      HasShape facts location parent (.typed names)
  | implied (reference : facts.reference = none) (const : facts.const = none)
      (enum : facts.enum = none) (type : facts.type = none)
      (properties : facts.hasProperties = true) :
      HasShape facts location parent (.typed ["object"])
  | composed (type : facts.type = none) (composition : facts.hasComposition = true) :
      HasShape facts location parent .composed
  | inherited {inherited : Json} {names : List String} (type : facts.type = none)
      (properties : facts.hasProperties = false) (composition : facts.hasComposition = false)
      (parent_eq : parent = some inherited) (names_eq : typeNames location inherited = .ok names) :
      HasShape facts location parent (.typed names)
  | unsupported : HasShape facts location parent .unsupported

/-- Where type names can be read, the shape is a typed one. -/
theorem typed_of_map_typed {names : Except Failure (List String)} {shape : Shape}
    (h : names.map .typed = .ok shape) : ∃ names', names = .ok names' ∧ shape = .typed names' := by
  cases names with
  | error failure => simp [Except.map] at h
  | ok names' => exact ⟨names', rfl, (Except.ok.inj h).symm⟩

/-- The keywords are asked one after the other, and the first that counts decides the shape. -/
theorem hasShape_of_shape {facts : Facts} {location : String} {parent : Option Json} {shape : Shape}
    (h : facts.shape location parent = .ok shape) : facts.HasShape location parent shape := by
  unfold Facts.shape at h
  by_cases hnull : facts.type.bind Json.asString? = some "null"
  · obtain ⟨declared, hdeclared, hstring⟩ := Option.bind_eq_some_iff.1 hnull
    rw [if_pos hnull, Except.ok.injEq] at h
    subst h
    exact .null (hdeclared.trans (congrArg some (Json.asString?_eq_some.1 hstring)))
  rw [if_neg hnull] at h
  -- From here on the keywords are asked in the order of their rank, and each one that is missing is
  -- kept as a fact for the next.
  cases hreference : facts.reference with
  | some reference =>
    simp only [hreference, Except.ok.injEq] at h
    exact h ▸ .reference hreference
  | none =>
  cases hconst : facts.const with
  | some value =>
    simp only [hreference, hconst, Except.ok.injEq] at h
    exact h ▸ .const hconst
  | none =>
  cases henum : facts.enum with
  | some values =>
    simp only [hreference, hconst, henum, Except.ok.injEq] at h
    exact h ▸ .enum henum
  | none =>
  cases htype : facts.type with
  | some declared =>
    simp only [hreference, hconst, henum, htype] at h
    obtain ⟨names, hnames, rfl⟩ := typed_of_map_typed h
    exact .declared htype hnames
  | none =>
  simp only [hreference, hconst, henum, htype] at h
  cases hproperties : facts.hasProperties with
  | true =>
    simp only [hproperties, if_true, Except.ok.injEq] at h
    exact h ▸ .implied hreference hconst henum htype hproperties
  | false =>
  cases hcomposition : facts.hasComposition with
  | true =>
    simp only [hproperties, hcomposition, Bool.false_eq_true, if_false, if_true,
      Except.ok.injEq] at h
    exact h ▸ .composed htype hcomposition
  | false =>
  simp only [hproperties, hcomposition, Bool.false_eq_true, if_false] at h
  cases parent with
  | some inherited =>
    obtain ⟨names, hnames, rfl⟩ := typed_of_map_typed h
    exact .inherited htype hproperties hcomposition rfl hnames
  | none =>
    rw [Except.ok.injEq] at h
    exact h ▸ .unsupported

/-- The rule for a schema written as an object: its shape decides. -/
theorem typing_object (context : Context) (parent : Option Json) (fields : List (String × Json)) :
    (ofJson (.object fields)).typing context parent =
      match (Facts.ofJson (.object fields)).shape context.location parent with
      | .error failure => throw failure
      | .ok shape => shapeTyping context (.object fields) shape := by
  rw [ofJson, partsOf_eq]
  simp only
  rw [typing]
  simp only [listTyping_map, itemTyping_map]
  cases h : (Facts.ofJson (.object fields)).shape context.location parent with
  | error failure => rfl
  | ok shape =>
    cases shape with
    | composed =>
      -- A schema with branches only has no type of its own to hand down.
      cases hasShape_of_shape h with
      | composed htype _ => simp only [htype]; rfl
    | _ => rfl

end Schema

end Typewright
