import Typewright.Pointer

/-!
# Schemas

A schema is read off a document value once, keyword by keyword: `Facts` are the keywords that hold
no schema, `Parts` the schemas inside it.  A value that is neither an object nor a boolean is no
schema.  A keyword of the wrong shape counts as missing, but some rules ask whether it is there at
all, so that is noted too.
-/

namespace Typewright

/-- The keywords of a schema that hold no schema. -/
structure Schema.Facts where
  title : Option String := none
  /-- The value of `type`, whatever its shape. -/
  type : Option Json := none
  nullable : Bool := false
  /-- The value of `$ref`, if it is a string. -/
  reference : Option String := none
  const : Option Json := none
  /-- The value of `enum`, whatever its shape. -/
  enum : Option Json := none
  /-- Whether there is a keyword `properties`. -/
  hasProperties : Bool := false
  /-- Whether there is a keyword `anyOf`, `allOf` or `oneOf`. -/
  hasComposition : Bool := false
  /-- The strings in the array `required`. -/
  required : List String := []
  readOnly : Bool := false
  /-- The value of `additionalProperties`. -/
  additional : Option Json := none
  minItems : Option Double := none
  maxItems : Option Double := none
deriving Repr

/-- The schemas inside a schema. -/
structure Schema.Parts (S : Type) where
  /-- The schemas under `properties`. -/
  properties : List (String × S) := []
  /-- The schemas under `patternProperties`. -/
  patterns : List (String × S) := []
  /-- The array `prefixItems`. -/
  leading : Option (List S) := none
  /-- The array `items`. -/
  itemList : Option (List S) := none
  /-- The value of `items` that is no array. -/
  itemSchema : Option S := none
  /-- The value of `additionalItems` that is no array. -/
  additionalItems : Option S := none
  anyOf : Option (List S) := none
  allOf : Option (List S) := none
  oneOf : Option (List S) := none
deriving Repr

/-- A schema. -/
inductive Schema where
  /-- The schema that every value fits, or none. -/
  | boolean (allowed : Bool)
  /-- A value that is no schema. -/
  | malformed
  | object (facts : Schema.Facts) (parts : Schema.Parts Schema)
deriving Repr

namespace Schema

/-- The keywords whose branches compose a schema, in the order in which they are combined. -/
def compositionKeywords : List String :=
  ["anyOf", "allOf", "oneOf"]

/-- The strings in the array `required` of a value. -/
def requiredNames (value : Json) : List String :=
  ((value.items? "required").getD []).filterMap Json.asString?

/-- Whether a value has one of the composing keywords. -/
def isComposed (value : Json) : Bool :=
  compositionKeywords.any fun name => (value.field? name).isSome

/-- The facts of an object value. -/
def Facts.ofJson (value : Json) : Facts where
  title := value.string? "title"
  type := value.field? "type"
  nullable := value.flag "nullable"
  reference := Pointer.target? value
  const := value.field? "const"
  enum := value.field? "enum"
  hasProperties := (value.field? "properties").isSome
  hasComposition := isComposed value
  required := requiredNames value
  readOnly := value.flag "readOnly"
  additional := value.field? "additionalProperties"
  minItems := value.double? "minItems"
  maxItems := value.double? "maxItems"

mutual

/-- The schema that a value is. -/
def ofJson : Json → Schema
  | .bool allowed => boolean allowed
  | .object fields => object (Facts.ofJson (.object fields)) (partsOf fields)
  | _ => malformed

/-- The schemas inside an object value with these fields. -/
def partsOf : List (String × Json) → Parts Schema
  | [] => {}
  | (name, value) :: rest =>
    let parts := partsOf rest
    if name = "properties" then { parts with properties := namedSchemas value }
    else if name = "patternProperties" then { parts with patterns := namedSchemas value }
    else if name = "prefixItems" then { parts with leading := schemaList value }
    else if name = "items" then
      { parts with
        itemList := schemaList value
        itemSchema := if value.isArray then none else some (ofJson value) }
    else if name = "additionalItems" then
      { parts with additionalItems := if value.isArray then none else some (ofJson value) }
    else if name = "anyOf" then { parts with anyOf := schemaList value }
    else if name = "allOf" then { parts with allOf := schemaList value }
    else if name = "oneOf" then { parts with oneOf := schemaList value }
    else parts

/-- The schemas under the names of an object value. -/
def namedSchemas : Json → List (String × Schema)
  | .object fields => ofFields fields
  | _ => []

/-- The schemas in an array value. -/
def schemaList : Json → Option (List Schema)
  | .array items => some (ofItems items)
  | _ => none

/-- The schemas of fields. -/
def ofFields : List (String × Json) → List (String × Schema)
  | [] => []
  | (name, value) :: rest => (name, ofJson value) :: ofFields rest

/-- The schemas of items. -/
def ofItems : List Json → List Schema
  | [] => []
  | item :: rest => ofJson item :: ofItems rest

end

/-- Whether a schema marks the values it describes as read-only. -/
def readOnly : Schema → Bool
  | object facts _ => facts.readOnly
  | _ => false

/-- Whether a schema is the one that no value fits. -/
def isFalse : Schema → Bool
  | boolean false => true
  | _ => false

end Schema

end Typewright
