import Typewright.Json.Basic

/-!
# Equality of document values

`Json.Same v w` says that two values are equal as document values: numbers by value, arrays item by
item, objects whatever the order of their fields.
-/

namespace Typewright.Json

mutual

/-- The two are the same value. -/
def Same : Json → Json → Prop
  | null, null => True
  | bool a, bool b => a = b
  | number m, number n => m.same n = true
  | string s, string t => s = t
  | array items, array others => SameItems items others
  | object fields, object others =>
    SameFields fields others ∧ ∀ name value, (name, value) ∈ others → (fields.lookup name).isSome
  | _, _ => False

/-- The two lists hold the same values, item by item. -/
def SameItems : List Json → List Json → Prop
  | [], [] => True
  | item :: items, other :: others => Same item other ∧ SameItems items others
  | _, _ => False

/-- Every field of the first list has the same value in the second. -/
def SameFields : List (String × Json) → List (String × Json) → Prop
  | [], _ => True
  | (name, value) :: rest, fields =>
    (∃ other, fields.lookup name = some other ∧ Same value other) ∧ SameFields rest fields

end

theorem same_string_iff {text : String} {value : Json} :
    Same (string text) value ↔ value = string text := by
  cases value <;> simp [Same, eq_comm]

theorem same_number_congr {m n : Number} (h : m.same n = true) (value : Json) :
    Same (number m) value ↔ Same (number n) value := by
  cases value with
  | number k =>
    simp only [Same]
    exact ⟨Number.same_trans (Number.same_symm h), Number.same_trans h⟩
  | _ => simp [Same]

end Typewright.Json
