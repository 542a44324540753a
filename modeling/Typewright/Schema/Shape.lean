import Typewright.Schema.Basic

/-!
# The shape of a schema

Which rule reads a schema.  The first of these that applies decides: the type `null`, a reference,
a constant, an enumeration, a type, properties, branches, a type handed down; else no rule covers
the schema.
-/

namespace Typewright.Schema

/-- The rule that reads a schema. -/
inductive Shape where
  | null
  | reference (reference : String)
  | const (value : Json)
  | enum (values : Json)
  /-- A schema with types of its own, implied by `properties`, or handed down. -/
  | typed (names : List String)
  /-- A schema that only combines branches. -/
  | composed
  | unsupported
deriving Repr

/-- The names in a value of `type`: a string or an array of strings. -/
def typeNames (location : String) (declared : Json) : Except Failure (List String) :=
  let bad : Failure := .badType declared.text location
  match declared with
  | .string name => .ok [name]
  | .array names =>
    names.mapM fun
      | .string name => .ok name
      | _ => .error bad
  | _ => .error bad

/-- The shape of a schema at a location; `parent` is the type that a composing schema hands
    down. -/
def Facts.shape (facts : Facts) (location : String) (parent : Option Json) :
    Except Failure Shape :=
  if facts.type.bind Json.asString? = some "null" then .ok .null
  else
    match facts.reference, facts.const, facts.enum, facts.type with
    | some reference, _, _, _ => .ok (.reference reference)
    | _, some value, _, _ => .ok (.const value)
    | _, _, some values, _ => .ok (.enum values)
    | _, _, _, some declared => (typeNames location declared).map .typed
    | _, _, _, none =>
      if facts.hasProperties then .ok (.typed ["object"])
      else if facts.hasComposition then .ok .composed
      else
        match parent with
        | some inherited => (typeNames location inherited).map .typed
        | none => .ok .unsupported

end Typewright.Schema
