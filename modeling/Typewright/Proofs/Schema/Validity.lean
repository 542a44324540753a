import Typewright.Proofs.Json.Same
import Typewright.Proofs.Schema.Reading

/-!
# Values that a schema describes

`Schema.Valid implied target schema value` says that the value meets the keywords `$ref`, `type`,
`const`, `enum`, `required`, `properties`, `additionalProperties`, `items` (one schema for all
items), `minItems`, `maxItems`, `anyOf`, `oneOf` and `allOf` of the schema.  A keyword speaks about
the values of its own kind only: `required` says nothing about a string.  `target` gives the values
at a reference.  Integers count as numbers, and `nullable` next to `type` lets in null.

With `implied`, a schema that has `properties` and nothing that tells the kind of its values
describes objects.
-/

namespace Typewright.Schema

/-- A value has the type of that name. -/
def OfType : String → Json → Prop
  | "null", value => value.kind = .null
  | "boolean", value => value.kind = .boolean
  | "integer", value => value.kind = .number
  | "number", value => value.kind = .number
  | "string", value => value.kind = .string
  | "object", value => value.kind = .object
  | "array", value => value.kind = .array
  | _, _ => False

/-- A value has one of the types that a value of `type` names; `type` of another form says
    nothing. -/
def OfTypes : Json → Json → Prop
  | .string name, value => OfType name value
  | .array names, value => ∃ name, Json.string name ∈ names ∧ OfType name value
  | _, _ => True

/-- The value meets the schema. -/
inductive Valid (implied : Bool) (target : String → Json → Prop) : Json → Json → Prop where
  | anything {value : Json} : Valid implied target (.bool true) value
  /-- A value that is no schema says nothing. -/
  | malformed {schema value : Json} (bool : schema.kind ≠ .boolean) (object : schema.kind ≠ .object) :
      Valid implied target schema value
  /-- The keywords of an object; `choice` is the branch that holds of those under a keyword. -/
  | keywords {schema value : Json} (choice : String → Json) (object : schema.kind = .object)
      (reference : ∀ reference, Pointer.target? schema = some reference → target reference value)
      (type : ∀ declared, schema.field? "type" = some declared →
        OfTypes declared value ∨ (schema.flag "nullable" = true ∧ value.kind = .null))
      (const : ∀ constant, schema.field? "const" = some constant → constant.Same value)
      (enum : ∀ constants, schema.items? "enum" = some constants →
        ∃ constant ∈ constants, constant.Same value)
      (required : ∀ name ∈ requiredNames schema, ∀ members, value = .object members →
        (members.lookup name).isSome = true)
      (properties : ∀ properties, schema.entries? "properties" = some properties →
        ∀ members, value = .object members → ∀ name inner, (name, inner) ∈ properties →
          ∀ member, members.lookup name = some member → Valid implied target inner member)
      (additional : ∀ inner, schema.field? "additionalProperties" = some inner →
        ∀ members, value = .object members → ∀ name member, (name, member) ∈ members →
          (∀ properties, schema.entries? "properties" = some properties →
            properties.lookup name = none) →
          Valid implied target inner member)
      (items : ∀ inner, unlisted? schema "items" = some inner →
        ∀ items, value = .array items → ∀ item ∈ items, Valid implied target inner item)
      (minItems : ∀ least, schema.double? "minItems" = some least →
        ∀ items, value = .array items → least.units ≤ items.length * Double.unitsPerOne)
      (maxItems : ∀ most, schema.double? "maxItems" = some most →
        ∀ items, value = .array items → items.length * Double.unitsPerOne ≤ most.units)
      -- Of `oneOf` just one branch should hold; all that is asked for here is that one does.
      (chosen : ∀ keyword ∈ ["anyOf", "oneOf"], ∀ branches, schema.items? keyword = some branches →
        choice keyword ∈ branches)
      (alternatives : ∀ keyword ∈ ["anyOf", "oneOf"], (schema.items? keyword).isSome = true →
        Valid implied target (choice keyword) value)
      (allOf : ∀ branches, schema.items? "allOf" = some branches →
        ∀ branch ∈ branches, Valid implied target branch value)
      (objects : implied = true → Pointer.target? schema = none → schema.field? "const" = none →
        schema.field? "enum" = none → schema.field? "type" = none →
        (schema.field? "properties").isSome = true → value.kind = .object)
      -- Members by pattern and items by position are not among the keywords.
      (patterns : ∀ name inner rest,
        schema.entries? "patternProperties" = some ((name, inner) :: rest) → value.kind ≠ .object)
      (positions : (schema.items? "prefixItems").isSome = true ∨ (schema.items? "items").isSome = true →
        value.kind ≠ .array) :
      Valid implied target schema value

/-! ### Types -/

theorem ofType_null_iff {name : String} {value : Json} (h : value.kind = .null) :
    OfType name value ↔ name = "null" := by
  unfold OfType
  split <;> simp_all

theorem mapM_string_ok {failure : Failure} {values : List Json} {names : List String}
    (h : (values.mapM fun
      | .string name => Except.ok name
      | _ => Except.error failure) = .ok names) : values = names.map .string := by
  induction values generalizing names with
  | nil =>
    obtain rfl : [] = names := Except.ok.inj h
    rfl
  | cons value values ih =>
    rw [List.mapM_cons] at h
    cases value with
    | string name =>
      -- The first failure ends the reading, so there were texts all along.
      cases hrest : (values.mapM fun
        | .string name => Except.ok name
        | _ => Except.error failure) with
      | error failure' => simp [hrest, bind, Except.bind] at h
      | ok others =>
        simp only [hrest, bind, Except.bind, pure, Except.pure, Except.ok.injEq] at h
        rw [← h, ih hrest, List.map_cons]
    | _ => simp [bind, Except.bind] at h

/-- The names that are read off `type` are the ones that it names. -/
theorem ofTypes_iff {location : String} {declared value : Json} {names : List String}
    (h : typeNames location declared = .ok names) :
    OfTypes declared value ↔ ∃ name ∈ names, OfType name value := by
  cases declared with
  | string name =>
    obtain rfl : [name] = names := by simpa [typeNames] using h
    simp [OfTypes]
  | array values =>
    rw [mapM_string_ok h, OfTypes]
    simp [List.mem_map]
  | _ => simp [typeNames] at h

end Typewright.Schema
