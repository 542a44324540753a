import Typewright.Proofs.Json.Same
import Typewright.Proofs.Text.Distinct
import Typewright.Schema.Enum

/-!
# The values of a type

`TypeExpr.Admits G t v` says that the value `v` belongs to the type `t`, where `G` tells which
values belong to the types declared under a path.  An object type asks for every property that is
not optional and constrains the properties that are there; an index signature constrains all
members.

Unions and intersections built by `TypeExpr.unionOf` and `TypeExpr.intersectionOf` are those of
sets (`admits_unionOf_iff`, `admits_intersectionOf_iff`), and the type of a constant admits it
(`admits_ofConst`).
-/

namespace Typewright

/-- The value of a literal. -/
def Literal.toJson : Literal → Json
  | boolean value => .bool value
  | number value => .number value
  | string value => .string value

namespace TypeExpr

variable {G : List String → Json → Prop}

mutual

/-- The value belongs to the type; `G` gives the values of declared types. -/
def Admits (G : List String → Json → Prop) : TypeExpr → Json → Prop
  | unknown, _ => True
  | never, _ => False
  | null, value => value.kind = .null
  | boolean, value => value.kind = .boolean
  | number, value => value.kind = .number
  | string, value => value.kind = .string
  | literal single, value => single.toJson.Same value
  | reference path, value => G path value
  | nonNullable type, value => Admits G type value ∧ value.kind ≠ .null
  | union members, value => AdmitsSome G members value
  | intersection members, value => AdmitsEvery G members value
  | array element, value => ∃ items, value = .array items ∧ ∀ item ∈ items, Admits G element item
  | tuple elements rest, value =>
    ∃ first others, value = .array (first ++ others) ∧ AdmitsEach G elements first ∧
      AdmitsRest G rest others
  | object properties index, value =>
    ∃ fields, value = .object fields ∧ AdmitsProperties G properties fields ∧
      AdmitsIndex G index fields

/-- The value belongs to one of the types. -/
def AdmitsSome (G : List String → Json → Prop) : List TypeExpr → Json → Prop
  | [], _ => False
  | type :: rest, value => Admits G type value ∨ AdmitsSome G rest value

/-- The value belongs to all of the types. -/
def AdmitsEvery (G : List String → Json → Prop) : List TypeExpr → Json → Prop
  | [], _ => True
  | type :: rest, value => Admits G type value ∧ AdmitsEvery G rest value

/-- The values belong to the types, one to one. -/
def AdmitsEach (G : List String → Json → Prop) : List TypeExpr → List Json → Prop
  | [], [] => True
  | type :: rest, value :: values => Admits G type value ∧ AdmitsEach G rest values
  | _, _ => False

/-- The values after the ones given by position. -/
def AdmitsRest (G : List String → Json → Prop) : Option TypeExpr → List Json → Prop
  | none, values => values = []
  | some type, values => ∀ value ∈ values, Admits G type value

/-- Every property is there or optional, and has its type. -/
def AdmitsProperties (G : List String → Json → Prop) :
    List (Property TypeExpr) → List (String × Json) → Prop
  | [], _ => True
  | ⟨name, type, optional, _⟩ :: rest, fields =>
    (match fields.lookup name with
      | some value => Admits G type value
      | none => optional = true) ∧
    AdmitsProperties G rest fields

/-- Every member has the type of the index signature. -/
def AdmitsIndex (G : List String → Json → Prop) :
    Option (IndexSignature TypeExpr) → List (String × Json) → Prop
  | none, _ => True
  | some ⟨type, _, _⟩, fields => ∀ name value, (name, value) ∈ fields → Admits G type value

end

/-! ### Members, elements and properties -/

theorem admitsSome_iff {types : List TypeExpr} {value : Json} :
    AdmitsSome G types value ↔ ∃ type ∈ types, Admits G type value := by
  induction types with
  | nil => simp [AdmitsSome]
  | cons type rest ih => simp [AdmitsSome, ih]

theorem admitsEvery_iff {types : List TypeExpr} {value : Json} :
    AdmitsEvery G types value ↔ ∀ type ∈ types, Admits G type value := by
  induction types with
  | nil => simp [AdmitsEvery]
  | cons type rest ih => simp [AdmitsEvery, ih]

/-- A list of equal types admits just the lists of that length of values of that type. -/
theorem admitsEach_replicate_iff {count : Nat} {type : TypeExpr} {values : List Json} :
    AdmitsEach G (List.replicate count type) values ↔
      values.length = count ∧ ∀ value ∈ values, Admits G type value := by
  induction count generalizing values with
  | zero => cases values <;> simp [AdmitsEach]
  | succ count ih =>
    cases values with
    | nil => simp [AdmitsEach, List.replicate_succ]
    | cons value rest =>
      rw [List.replicate_succ, AdmitsEach, ih]
      simp only [List.length_cons, List.forall_mem_cons, Nat.add_right_cancel_iff]
      exact and_left_comm

theorem admitsProperties_iff {properties : List (Property TypeExpr)}
    {fields : List (String × Json)} :
    AdmitsProperties G properties fields ↔
      ∀ property ∈ properties,
        match fields.lookup property.name with
        | some value => Admits G property.type value
        | none => property.optional = true := by
  induction properties with
  | nil => simp [AdmitsProperties]
  | cons property rest ih =>
    obtain ⟨name, type, optional, readonly⟩ := property
    rw [AdmitsProperties, ih, List.forall_mem_cons]

/-- An index signature asks something of every field of the value. -/
theorem admitsIndex_some_iff {index : IndexSignature TypeExpr} {fields : List (String × Json)} :
    AdmitsIndex G (some index) fields ↔
      ∀ name value, (name, value) ∈ fields → Admits G index.type value := by
  obtain ⟨type, optional, readonly⟩ := index
  rw [AdmitsIndex]

/-! ### Equal types -/

/-- Equal literals are met by the same values. -/
theorem same_toJson_congr {a b : Literal} (h : a.same b = true) (value : Json) :
    a.toJson.Same value ↔ b.toJson.Same value := by
  cases a <;> cases b <;> simp only [Literal.same, Bool.false_eq_true, beq_iff_eq] at h
  case boolean.boolean => rw [h]
  case number.number => exact Json.same_number_congr h value
  case string.string => rw [h]

mutual

/-- Equal types have the same values. -/
theorem admits_congr (a b : TypeExpr) (h : a.same b = true) (value : Json) :
    Admits G a value ↔ Admits G b value := by
  -- Types of two different constructors are never the same, which leaves one case for each.
  cases a <;> cases b <;> simp only [same, Bool.false_eq_true, Bool.and_eq_true, beq_iff_eq] at h
  case unknown.unknown => rfl
  case never.never => rfl
  case null.null => rfl
  case boolean.boolean => rfl
  case number.number => rfl
  case string.string => rfl
  case literal.literal a b =>
    simp only [Admits]
    exact same_toJson_congr h value
  case reference.reference => rw [h]
  case nonNullable.nonNullable a b => simp only [Admits, admits_congr a b h value]
  case union.union as bs =>
    simp only [Admits]
    exact admitsSome_congr as bs h value
  case intersection.intersection as bs =>
    simp only [Admits]
    exact admitsEvery_congr as bs h value
  case array.array a b => simp only [Admits, admits_congr a b h]
  case tuple.tuple as rest bs rest' =>
    simp only [Admits, admitsEach_congr as bs h.1, admitsRest_congr rest rest' h.2]
  case object.object ps index qs index' =>
    simp only [Admits, admitsProperties_congr ps qs h.1, admitsIndex_congr index index' h.2]
termination_by structural a

/-- Some member of one union admits what some member of an equal union does. -/
theorem admitsSome_congr (as bs : List TypeExpr) (h : sameAll as bs = true) (value : Json) :
    AdmitsSome G as value ↔ AdmitsSome G bs value := by
  cases as <;> cases bs <;> simp only [sameAll, Bool.false_eq_true, Bool.and_eq_true] at h
  case nil.nil => rfl
  case cons.cons a as b bs =>
    simp only [AdmitsSome, admits_congr a b h.1, admitsSome_congr as bs h.2]
termination_by structural as

theorem admitsEvery_congr (as bs : List TypeExpr) (h : sameAll as bs = true) (value : Json) :
    AdmitsEvery G as value ↔ AdmitsEvery G bs value := by
  cases as <;> cases bs <;> simp only [sameAll, Bool.false_eq_true, Bool.and_eq_true] at h
  case nil.nil => rfl
  case cons.cons a as b bs =>
    simp only [AdmitsEvery, admits_congr a b h.1, admitsEvery_congr as bs h.2]
termination_by structural as

theorem admitsEach_congr (as bs : List TypeExpr) (h : sameAll as bs = true) (values : List Json) :
    AdmitsEach G as values ↔ AdmitsEach G bs values := by
  cases as <;> cases bs <;> simp only [sameAll, Bool.false_eq_true, Bool.and_eq_true] at h
  case nil.nil => rfl
  case cons.cons a as b bs =>
    cases values with
    | nil => simp [AdmitsEach]
    | cons value rest =>
      simp only [AdmitsEach, admits_congr a b h.1, admitsEach_congr as bs h.2]
termination_by structural as

theorem admitsRest_congr (a b : Option TypeExpr) (h : sameRest a b = true) (values : List Json) :
    AdmitsRest G a values ↔ AdmitsRest G b values := by
  cases a <;> cases b <;> simp only [sameRest, Bool.false_eq_true] at h
  case none.none => rfl
  case some.some a b => simp only [AdmitsRest, admits_congr a b h]
termination_by structural a

theorem admitsProperties_congr (ps qs : List (Property TypeExpr)) (h : sameProperties ps qs = true)
    (fields : List (String × Json)) :
    AdmitsProperties G ps fields ↔ AdmitsProperties G qs fields := by
  cases ps with
  | nil =>
    cases qs with
    | nil => rfl
    | cons q qs => simp [sameProperties] at h
  | cons p ps =>
    obtain ⟨name, a, optional, readonly⟩ := p
    cases qs with
    | nil => simp [sameProperties] at h
    | cons q qs =>
      obtain ⟨name', b, optional', readonly'⟩ := q
      simp only [sameProperties, Bool.and_eq_true, beq_iff_eq] at h
      obtain ⟨⟨⟨⟨rfl, htype⟩, rfl⟩, rfl⟩, hrest⟩ := h
      simp only [AdmitsProperties, admits_congr a b htype, admitsProperties_congr ps qs hrest]
termination_by structural ps

theorem admitsIndex_congr (i j : Option (IndexSignature TypeExpr)) (h : sameIndex i j = true)
    (fields : List (String × Json)) : AdmitsIndex G i fields ↔ AdmitsIndex G j fields := by
  cases i with
  | none =>
    cases j with
    | none => rfl
    | some j => simp [sameIndex] at h
  | some i =>
    obtain ⟨a, optional, readonly⟩ := i
    cases j with
    | none => simp [sameIndex] at h
    | some j =>
      obtain ⟨b, optional', readonly'⟩ := j
      simp only [sameIndex, Bool.and_eq_true] at h
      simp only [AdmitsIndex, admits_congr a b h.1.1]
termination_by structural i

end

/-! ### Unions and intersections -/

/-- A type has the values of its union members, of which a type that is no union has just itself. -/
theorem exists_mem_unionMembers_iff {type : TypeExpr} {value : Json} :
    (∃ member ∈ type.unionMembers, Admits G member value) ↔ Admits G type value := by
  cases type with
  | union members => rw [unionMembers, Admits, admitsSome_iff]
  | _ => simp [unionMembers]

/-- A type has the values that all of its intersection members have. -/
theorem forall_mem_intersectionMembers_iff {type : TypeExpr} {value : Json} :
    (∀ member ∈ type.intersectionMembers, Admits G member value) ↔ Admits G type value := by
  cases type with
  | intersection members => rw [intersectionMembers, Admits, admitsEvery_iff]
  | _ => simp [intersectionMembers]

/-- Dropping a type that repeats an earlier one loses no value. -/
theorem exists_mem_distinct_iff {types : List TypeExpr} {value : Json} :
    (∃ type ∈ Text.distinct types, Admits G type value) ↔ ∃ type ∈ types, Admits G type value :=
  Text.exists_mem_distinct_iff fun type other hsame => admits_congr type other hsame value

/-- A union holds what one of its members holds. -/
theorem admits_unionOf_iff {types : List TypeExpr} {value : Json} :
    Admits G (unionOf types) value ↔ ∃ type ∈ types, Admits G type value := by
  have members : (∃ type ∈ types.flatMap unionMembers, Admits G type value) ↔
      ∃ type ∈ types, Admits G type value := by
    simp only [List.mem_flatMap]
    constructor
    · rintro ⟨member, ⟨type, htype, hmember⟩, hadmits⟩
      exact ⟨type, htype, exists_mem_unionMembers_iff.1 ⟨member, hmember, hadmits⟩⟩
    · rintro ⟨type, htype, hadmits⟩
      obtain ⟨member, hmember, hadmits⟩ := exists_mem_unionMembers_iff.2 hadmits
      exact ⟨member, ⟨type, htype, hmember⟩, hadmits⟩
  rw [← members, ← exists_mem_distinct_iff]
  unfold unionOf
  split
  · next h => simp [h, Admits]
  · next member h => simp [h]
  · next members _ _ => rw [Admits, admitsSome_iff]

/-- An intersection holds what all of its members hold. -/
theorem admits_intersectionOf_iff {types : List TypeExpr} {value : Json} :
    Admits G (intersectionOf types) value ↔ ∀ type ∈ types, Admits G type value := by
  have members : (∀ type ∈ types.flatMap intersectionMembers, Admits G type value) ↔
      ∀ type ∈ types, Admits G type value :=
    List.forall_mem_flatMap.trans (forall₂_congr fun _ _ => forall_mem_intersectionMembers_iff)
  rw [← members]
  unfold intersectionOf
  split
  · next h => simp [h, Admits]
  · next member h => simp [h]
  · rw [Admits, admitsEvery_iff]

/-! ### Constants -/

mutual

/-- The type of a constant admits every value that is the same. -/
theorem admits_ofConst (constant value : Json) (h : constant.Same value) :
    Admits G (ofConst constant) value := by
  cases constant with
  | null => cases value <;> simp_all [ofConst, Admits, Json.Same, Json.kind]
  | bool flag => simpa only [ofConst, Admits, Literal.toJson] using h
  | number n => simpa only [ofConst, Admits, Literal.toJson] using h
  | string text => simpa only [ofConst, Admits, Literal.toJson] using h
  | array items =>
    cases value with
    | array others =>
      rw [Json.Same] at h
      rw [ofConst, Admits]
      -- A constant array is a tuple without a rest, so its items take up the whole value.
      exact ⟨others, [], by rw [List.append_nil], admitsEach_ofConsts items others h, rfl⟩
    | _ => exact absurd h (by simp [Json.Same])
  | object fields =>
    cases value with
    | object others =>
      rw [Json.Same] at h
      rw [ofConst, Admits]
      exact ⟨others, rfl, admitsProperties_ofConstFields fields others h.1, trivial⟩
    | _ => exact absurd h (by simp [Json.Same])
termination_by structural constant

/-- A constant array is met place by place. -/
theorem admitsEach_ofConsts (items others : List Json) (h : Json.SameItems items others) :
    AdmitsEach G (ofConsts items) others := by
  cases items with
  | nil => cases others <;> simp_all [ofConsts, AdmitsEach, Json.SameItems]
  | cons item items =>
    cases others with
    | nil => exact absurd h (by simp [Json.SameItems])
    | cons other others =>
      rw [Json.SameItems] at h
      rw [ofConsts, AdmitsEach]
      exact ⟨admits_ofConst item other h.1, admitsEach_ofConsts items others h.2⟩
termination_by structural items

/-- A constant object is met field by field. -/
theorem admitsProperties_ofConstFields (fields others : List (String × Json))
    (h : Json.SameFields fields others) : AdmitsProperties G (ofConstFields fields) others := by
  cases fields with
  | nil => simp [ofConstFields, AdmitsProperties]
  | cons field fields =>
    obtain ⟨name, constant⟩ := field
    rw [Json.SameFields] at h
    obtain ⟨⟨other, hother, hsame⟩, hrest⟩ := h
    rw [ofConstFields, AdmitsProperties]
    simp only [hother]
    exact ⟨admits_ofConst constant other hsame, admitsProperties_ofConstFields fields others hrest⟩
termination_by structural fields

end

end TypeExpr

end Typewright
