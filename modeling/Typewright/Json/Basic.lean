import Typewright.Json.Number
import Typewright.Text.Quoted

/-!
# Document values

`Json` is the value of a document: the fields of an object keep the order in which they were
written.  The accessors answer `none`, `false` or nothing for a value of the wrong shape, so no
caller checks the shape first.
-/

namespace Typewright

/-- The value of a document. -/
inductive Json where
  | null
  | bool (value : Bool)
  | number (value : Number)
  | string (value : String)
  | array (items : List Json)
  | object (fields : List (String × Json))
deriving Repr, Inhabited

namespace Json

/-! ### Kinds -/

/-- The kind of a value. -/
inductive Kind where
  | null
  | boolean
  | number
  | string
  | array
  | object
deriving DecidableEq, Repr

namespace Kind

/-- The name of a kind. -/
def name : Kind → String
  | null => "null"
  | boolean => "boolean"
  | number => "number"
  | string => "string"
  | array => "array"
  | object => "object"

end Kind

/-- The kind of a value. -/
def kind : Json → Kind
  | null => .null
  | bool _ => .boolean
  | number _ => .number
  | string _ => .string
  | array _ => .array
  | object _ => .object

/-! ### Views -/

/-- The text of a string. -/
def asString? : Json → Option String
  | string s => some s
  | _ => none

/-- The value of a boolean. -/
def asBool? : Json → Option Bool
  | bool b => some b
  | _ => none

/-- The items of an array. -/
def asArray? : Json → Option (List Json)
  | array items => some items
  | _ => none

/-- The fields of an object. -/
def asObject? : Json → Option (List (String × Json))
  | object fields => some fields
  | _ => none

/-- A number as a double. -/
def asDouble? : Json → Option Double
  | number n => some n.toDouble
  | _ => none

/-- Whether the value is an array. -/
def isArray (v : Json) : Bool :=
  v.asArray?.isSome

/-- Whether the value is the boolean `false`. -/
def isFalse : Json → Bool
  | bool false => true
  | _ => false

/-! ### Fields -/

/-- Sets a field: a new name goes to the end, a name that is there keeps its place. -/
def setField {α : Type} (name : String) (value : α) : List (String × α) → List (String × α)
  | [] => [(name, value)]
  | (key, old) :: rest =>
    if key = name then (key, value) :: rest else (key, old) :: setField name value rest

/-- The value of a field of an object. -/
def field? (v : Json) (name : String) : Option Json :=
  v.asObject?.bind (·.lookup name)

/-- The fields of an object-valued field, in document order. -/
def entries? (v : Json) (name : String) : Option (List (String × Json)) :=
  (v.field? name).bind asObject?

/-- The items of an array-valued field. -/
def items? (v : Json) (name : String) : Option (List Json) :=
  (v.field? name).bind asArray?

/-- The text of a string-valued field. -/
def string? (v : Json) (name : String) : Option String :=
  (v.field? name).bind asString?

/-- The value of a number-valued field, as a double. -/
def double? (v : Json) (name : String) : Option Double :=
  (v.field? name).bind asDouble?

/-- Whether a field is the boolean `true`. -/
def flag (v : Json) (name : String) : Bool :=
  ((v.field? name).bind asBool?).getD false

/-! ### Compact text -/

mutual

/-- The text of a value, without any blank. -/
def toChars : Json → List Char
  | null => ['n', 'u', 'l', 'l']
  | bool true => ['t', 'r', 'u', 'e']
  | bool false => ['f', 'a', 'l', 's', 'e']
  | number n => n.toChars
  | string s => Text.quoteChars s.toList
  | array items => '[' :: (itemsToChars items ++ [']'])
  | object fields => '{' :: (fieldsToChars fields ++ ['}'])

/-- The texts of items, divided by commas. -/
def itemsToChars : List Json → List Char
  | [] => []
  | [item] => item.toChars
  | item :: rest => item.toChars ++ ',' :: itemsToChars rest

/-- The texts of fields, divided by commas. -/
def fieldsToChars : List (String × Json) → List Char
  | [] => []
  | [(name, value)] => Text.quoteChars name.toList ++ ':' :: value.toChars
  | (name, value) :: rest =>
    Text.quoteChars name.toList ++ ':' :: (value.toChars ++ ',' :: fieldsToChars rest)

end

/-- The compact text of a value. -/
def text (v : Json) : String :=
  String.ofList v.toChars

/-! ### Small facts -/

@[simp] theorem field?_object (fields : List (String × Json)) (name : String) :
    (object fields).field? name = fields.lookup name := rfl

/-- A field that was set is found. -/
theorem lookup_setField_self {α : Type} (name : String) (value : α)
    (fields : List (String × α)) : (setField name value fields).lookup name = some value := by
  induction fields with
  | nil => simp [setField]
  | cons head rest ih =>
    obtain ⟨key, old⟩ := head
    unfold setField
    split
    · next h => simp [h]
    · next h =>
      have h' : (name == key) = false := beq_eq_false_iff_ne.2 (Ne.symm h)
      simp [List.lookup_cons, h', ih]

/-- Setting a field leaves the others alone. -/
theorem lookup_setField_of_ne {α : Type} {name other : String} (h : other ≠ name) (value : α)
    (fields : List (String × α)) :
    (setField name value fields).lookup other = fields.lookup other := by
  induction fields with
  | nil => simp [setField, h]
  | cons head rest ih =>
    obtain ⟨key, old⟩ := head
    unfold setField
    split
    · next hk =>
      have h' : (other == key) = false := beq_eq_false_iff_ne.2 (hk ▸ h)
      simp [List.lookup_cons, h']
    · next hk => simp [List.lookup_cons, ih]

end Json

end Typewright
