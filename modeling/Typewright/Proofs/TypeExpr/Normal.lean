import Typewright.Proofs.Naming.Identifier
import Typewright.Proofs.Text.Distinct
import Typewright.Proofs.TypeExpr.Same
import Typewright.Proofs.TypeExpr.WellFormed
import Typewright.Schema.Enum

/-!
# Types in normal form

`TypeExpr.Within inner type` says that `inner` stands somewhere inside `type`, and `TypeExpr.Normal`
that everything inside is normal by itself: a union or an intersection has several members and is flat,
no two members of a union are equal, only primitive types are made free of null, and a path is made of
identifiers.

`TypeExpr.unionOf` and `TypeExpr.intersectionOf` flatten one level only.  That is enough where their
parts are normal (`TypeExpr.normal_unionOf`, `TypeExpr.normal_intersectionOf`), since the members of a
normal union are no unions.
-/

namespace Typewright

namespace Naming

/-- The path is not empty, and its segments are identifiers of their own. -/
def IsPath (path : List String) : Prop :=
  path ≠ [] ∧ ∀ segment ∈ path, identifier segment = segment

/-- A path may be continued by an identifier. -/
theorem isPath_append {path : List String} (h : IsPath path) {segment : String}
    (hsegment : identifier segment = segment) : IsPath (path ++ [segment]) := by
  refine ⟨fun hnil => h.1 (List.append_eq_nil_iff.1 hnil).1, fun other hother => ?_⟩
  rcases List.mem_append.1 hother with hother | hother
  · exact h.2 other hother
  · rw [List.mem_singleton.1 hother, hsegment]

end Naming

namespace TypeExpr

/-! ### Types inside types -/

/-- The types that stand directly inside a type. -/
def parts : TypeExpr → List TypeExpr
  | nonNullable type => [type]
  | union members => members
  | intersection members => members
  | array element => [element]
  | tuple elements rest => elements ++ rest.toList
  | object properties index => properties.map (·.type) ++ index.toList.map (·.type)
  | _ => []

/-- The first type is the second one or stands somewhere inside it. -/
inductive Within : TypeExpr → TypeExpr → Prop where
  | self (type : TypeExpr) : Within type type
  | part {inner part type : TypeExpr} (mem : part ∈ type.parts) (inside : Within inner part) :
      Within inner type

/-- The type is normal where it stands, whatever is inside. -/
def NormalHead : TypeExpr → Prop
  | reference path => Naming.IsPath path
  | nonNullable type => type = boolean ∨ type = number ∨ type = string
  | union members => 2 ≤ members.length ∧ (members.Pairwise fun a b => a.same b = false) ∧
      ∀ member ∈ members, member.isUnion = false
  | intersection members => 2 ≤ members.length ∧ ∀ member ∈ members, member.isIntersection = false
  | _ => True

/-- Everything inside the type is normal. -/
def Normal (type : TypeExpr) : Prop :=
  ∀ inner, Within inner type → NormalHead inner

variable {type : TypeExpr} {types : List TypeExpr}

/-- A type is normal if it is normal where it stands and its parts are normal. -/
theorem normal_iff : type.Normal ↔ type.NormalHead ∧ ∀ part ∈ type.parts, part.Normal := by
  constructor
  · exact fun h => ⟨h type (.self type), fun part hpart inner hinner => h inner (.part hpart hinner)⟩
  · rintro ⟨hhead, hparts⟩ inner hinner
    cases hinner with
    | self => exact hhead
    | part hpart hinside => exact hparts _ hpart inner hinside

/-- A type without parts is normal if its own constructor is. -/
theorem normal_of_parts_eq_nil (hhead : type.NormalHead) (hparts : type.parts = []) : type.Normal :=
  normal_iff.2 ⟨hhead, fun part hpart => by simp [hparts] at hpart⟩

/-! ### Constructors -/

@[simp] theorem normal_unknown : unknown.Normal := normal_of_parts_eq_nil trivial rfl

@[simp] theorem normal_never : never.Normal := normal_of_parts_eq_nil trivial rfl

@[simp] theorem normal_null : null.Normal := normal_of_parts_eq_nil trivial rfl

@[simp] theorem normal_boolean : boolean.Normal := normal_of_parts_eq_nil trivial rfl

@[simp] theorem normal_number : number.Normal := normal_of_parts_eq_nil trivial rfl

@[simp] theorem normal_string : string.Normal := normal_of_parts_eq_nil trivial rfl

@[simp] theorem normal_literal (value : Literal) : (literal value).Normal :=
  normal_of_parts_eq_nil trivial rfl

theorem normal_reference_iff {path : List String} : (reference path).Normal ↔ Naming.IsPath path :=
  ⟨fun h => h _ (.self _), fun h => normal_of_parts_eq_nil h rfl⟩

theorem normal_array_iff {element : TypeExpr} : (array element).Normal ↔ element.Normal := by
  rw [normal_iff]
  simp [NormalHead, parts]

theorem normal_tuple_iff {elements : List TypeExpr} {rest : Option TypeExpr} :
    (tuple elements rest).Normal ↔
      (∀ element ∈ elements, element.Normal) ∧ ∀ type ∈ rest, type.Normal := by
  rw [normal_iff, parts, List.forall_mem_append]
  simp [NormalHead]

theorem normal_object_iff {properties : List (Property TypeExpr)}
    {index : Option (IndexSignature TypeExpr)} :
    (object properties index).Normal ↔
      (∀ property ∈ properties, property.type.Normal) ∧ ∀ signature ∈ index, signature.type.Normal := by
  rw [normal_iff, parts, List.forall_mem_append]
  simp [NormalHead]

/-! ### Unions and intersections -/

/-- The members of a normal type, taken as a union, are normal and are no unions. -/
theorem Normal.of_mem_unionMembers (h : type.Normal) {member : TypeExpr}
    (hmember : member ∈ type.unionMembers) : member.Normal ∧ member.isUnion = false := by
  cases type with
  | union members =>
    obtain ⟨⟨-, -, hflat⟩, hparts⟩ := normal_iff.1 h
    exact ⟨hparts member hmember, hflat member hmember⟩
  | _ =>
    obtain rfl := List.mem_singleton.1 hmember
    exact ⟨h, rfl⟩

/-- The members of a normal type, taken as an intersection, are normal and are no intersections. -/
theorem Normal.of_mem_intersectionMembers (h : type.Normal) {member : TypeExpr}
    (hmember : member ∈ type.intersectionMembers) :
    member.Normal ∧ member.isIntersection = false := by
  cases type with
  | intersection members =>
    obtain ⟨⟨-, hflat⟩, hparts⟩ := normal_iff.1 h
    exact ⟨hparts member hmember, hflat member hmember⟩
  | _ =>
    obtain rfl := List.mem_singleton.1 hmember
    exact ⟨h, rfl⟩

/-- A list that is neither empty nor a single element has at least two. -/
theorem two_le_length {types : List TypeExpr} (hnil : types ≠ []) (hsingle : ∀ type, types ≠ [type]) :
    2 ≤ types.length := by
  match types with
  | [] => exact absurd rfl hnil
  | [type] => exact absurd rfl (hsingle type)
  | _ :: _ :: _ => simp

/-- The union of normal types is normal. -/
theorem normal_unionOf (h : ∀ type ∈ types, type.Normal) : (unionOf types).Normal := by
  have hmembers : ∀ member ∈ Text.distinct (types.flatMap unionMembers),
      member.Normal ∧ member.isUnion = false := by
    intro member hmember
    obtain ⟨type, htype, hmember⟩ := List.mem_flatMap.1 (Text.mem_of_mem_distinct hmember)
    exact (h type htype).of_mem_unionMembers hmember
  have hdifferent : (Text.distinct (types.flatMap unionMembers)).Pairwise
      fun a b => a.same b = false :=
    (Text.pairwise_distinct _).imp fun hsame => (same_comm _ _).trans hsame
  unfold unionOf
  split
  · exact normal_never
  · next member hdistinct => exact (hmembers member (hdistinct ▸ List.mem_singleton_self member)).1
  · next hnil hsingle =>
    refine normal_iff.2 ⟨⟨two_le_length hnil hsingle, hdifferent, ?_⟩, ?_⟩
    · exact fun member hmember => (hmembers member hmember).2
    · exact fun member hmember => (hmembers member hmember).1

/-- The intersection of normal types is normal. -/
theorem normal_intersectionOf (h : ∀ type ∈ types, type.Normal) : (intersectionOf types).Normal := by
  have hmembers : ∀ member ∈ types.flatMap intersectionMembers,
      member.Normal ∧ member.isIntersection = false :=
    List.forall_mem_flatMap.2 fun type htype _ => (h type htype).of_mem_intersectionMembers
  unfold intersectionOf
  split
  · exact normal_unknown
  · next member hmember => exact (hmembers member (hmember ▸ List.mem_singleton_self member)).1
  · next hnil hsingle =>
    refine normal_iff.2 ⟨⟨two_le_length hnil hsingle, ?_⟩, ?_⟩
    · exact fun member hmember => (hmembers member hmember).2
    · exact fun member hmember => (hmembers member hmember).1

/-! ### Constants -/

mutual

/-- The type of a constant is normal. -/
theorem normal_ofConst (constant : Json) : (ofConst constant).Normal := by
  cases constant with
  | array items =>
    rw [ofConst, normal_tuple_iff]
    exact ⟨normal_ofConsts items, by simp⟩
  | object fields =>
    rw [ofConst, normal_object_iff]
    exact ⟨normal_ofConstFields fields, by simp⟩
  | _ => simp [ofConst]
termination_by structural constant

/-- The types of constants hold no unions, so they are normal as they stand. -/
theorem normal_ofConsts (items : List Json) : ∀ type ∈ ofConsts items, type.Normal := by
  cases items with
  | nil => exact List.forall_mem_nil _
  | cons item items =>
    rw [ofConsts, List.forall_mem_cons]
    exact ⟨normal_ofConst item, normal_ofConsts items⟩
termination_by structural items

theorem normal_ofConstFields (fields : List (String × Json)) :
    ∀ property ∈ ofConstFields fields, property.type.Normal := by
  cases fields with
  | nil => exact List.forall_mem_nil _
  | cons field fields =>
    obtain ⟨name, constant⟩ := field
    rw [ofConstFields, List.forall_mem_cons]
    exact ⟨normal_ofConst constant, normal_ofConstFields fields⟩
termination_by structural fields

end

end TypeExpr

end Typewright
