import Typewright.Fragment.Set
import Typewright.Proofs.TypeExpr.Normal

/-!
# Unions and intersections, group by group

`TypeExpr.unionOf` and `TypeExpr.intersectionOf` flatten one level only, and a single member stands alone.
So where a union of unions comes in, a group of one member may show a union that was hidden before.  If no
such type comes in, what a group is made of can be read off the type that it gives
(`TypeExpr.unionMembers_unionOf`, `TypeExpr.intersectionMembers_intersectionOf`), and it does not matter
whether types are put together group by group or all at once (`TypeExpr.building_ignores_grouping`).
-/

namespace Typewright.TypeExpr

variable {type : TypeExpr} {types : List TypeExpr} {groups : List (List TypeExpr)}

/-! ### Flat types -/

/-- The type is neither a union without members nor a union with a union among its members. -/
def UnionFlat : TypeExpr → Prop
  | union members => members ≠ [] ∧ ∀ member ∈ members, member.isUnion = false
  | _ => True

/-- The type is neither an intersection without members nor an intersection with an intersection among
    its members. -/
def IntersectionFlat : TypeExpr → Prop
  | intersection members => members ≠ [] ∧ ∀ member ∈ members, member.isIntersection = false
  | _ => True

/-- A type that is no union counts as its own only member. -/
theorem unionMembers_of_isUnion (h : type.isUnion = false) : type.unionMembers = [type] := by
  cases type with
  | union members => exact Bool.noConfusion h
  | _ => rfl

/-- A type that is no intersection counts as its own only member. -/
theorem intersectionMembers_of_isIntersection (h : type.isIntersection = false) :
    type.intersectionMembers = [type] := by
  cases type with
  | intersection members => exact Bool.noConfusion h
  | _ => rfl

/-- The members of a flat type count as themselves. -/
theorem UnionFlat.unionMembers (h : type.UnionFlat) :
    type.unionMembers ≠ [] ∧ ∀ member ∈ type.unionMembers, member.unionMembers = [member] := by
  cases type with
  | union members => exact ⟨h.1, fun member hmember => unionMembers_of_isUnion (h.2 member hmember)⟩
  | _ => exact ⟨List.cons_ne_nil _ _, List.forall_mem_singleton.2 rfl⟩

/-- The members of a flat type count as themselves. -/
theorem IntersectionFlat.intersectionMembers (h : type.IntersectionFlat) :
    type.intersectionMembers ≠ [] ∧
      ∀ member ∈ type.intersectionMembers, member.intersectionMembers = [member] := by
  cases type with
  | intersection members =>
    exact ⟨h.1, fun member hmember => intersectionMembers_of_isIntersection (h.2 member hmember)⟩
  | _ => exact ⟨List.cons_ne_nil _ _, List.forall_mem_singleton.2 rfl⟩

/-! ### Parts put together -/

/-- Several parts as one type: none gives the empty type, and a single one stands alone. -/
def collapse (empty : TypeExpr) (node : List TypeExpr → TypeExpr) : List TypeExpr → TypeExpr
  | [] => empty
  | [part] => part
  | parts => node parts

/-- A union is built in two steps: its members are collected, then collapsed into a type. -/
theorem unionOf_eq_collapse (types : List TypeExpr) :
    unionOf types = collapse never union (Text.distinct (types.flatMap unionMembers)) := rfl

/-- An intersection is built in two steps as well, and keeps repetitions. -/
theorem intersectionOf_eq_collapse (types : List TypeExpr) :
    intersectionOf types = collapse unknown intersection (types.flatMap intersectionMembers) := rfl

/-- The parts can be read off the type, unless there are none or a part is put together itself. -/
theorem members_collapse {members : TypeExpr → List TypeExpr} {node : List TypeExpr → TypeExpr}
    {parts : List TypeExpr} (hnode : ∀ parts, members (node parts) = parts) (hne : parts ≠ [])
    (hparts : ∀ part ∈ parts, members part = [part]) (empty : TypeExpr) :
    members (collapse empty node parts) = parts := by
  match parts with
  | [] => exact absurd rfl hne
  | [part] => exact hparts part (List.mem_singleton_self part)
  | first :: second :: rest => exact hnode (first :: second :: rest)

theorem flatMap_ne_nil {members : TypeExpr → List TypeExpr} (hne : types ≠ [])
    (h : ∀ type ∈ types, members type ≠ []) : types.flatMap members ≠ [] := by
  obtain ⟨first, hfirst⟩ := List.exists_mem_of_ne_nil types hne
  exact fun hnil => h first hfirst (List.flatMap_eq_nil_iff.1 hnil first hfirst)

/-- The members of a union that was built are those it was built from, without repetitions. -/
theorem unionMembers_unionOf (hne : types ≠ []) (h : ∀ type ∈ types, type.UnionFlat) :
    (unionOf types).unionMembers = Text.distinct (types.flatMap unionMembers) := by
  have hmembers : types.flatMap unionMembers ≠ [] :=
    flatMap_ne_nil hne fun type htype => (h type htype).unionMembers.1
  have hflat : ∀ member ∈ types.flatMap unionMembers, member.unionMembers = [member] :=
    List.forall_mem_flatMap.2 fun type htype => (h type htype).unionMembers.2
  rw [unionOf_eq_collapse]
  exact members_collapse (fun _ => rfl) (Text.distinct_ne_nil hmembers)
    (fun member hmember => hflat member (Text.mem_of_mem_distinct hmember)) never

/-- The members of an intersection that was built are those it was built from. -/
theorem intersectionMembers_intersectionOf (hne : types ≠ [])
    (h : ∀ type ∈ types, type.IntersectionFlat) :
    (intersectionOf types).intersectionMembers = types.flatMap intersectionMembers := by
  have hmembers : types.flatMap intersectionMembers ≠ [] :=
    flatMap_ne_nil hne fun type htype => (h type htype).intersectionMembers.1
  have hflat : ∀ member ∈ types.flatMap intersectionMembers, member.intersectionMembers = [member] :=
    List.forall_mem_flatMap.2 fun type htype => (h type htype).intersectionMembers.2
  rw [intersectionOf_eq_collapse]
  exact members_collapse (fun _ => rfl) hmembers hflat unknown

/-! ### Groups -/

theorem flatMap_flatten (members : TypeExpr → List TypeExpr) (groups : List (List TypeExpr)) :
    groups.flatten.flatMap members = groups.flatMap (·.flatMap members) := by
  rw [← List.flatMap_id', List.flatMap_assoc]

/-- Building the groups first and then their union gives the union of all: repetitions go at one
    step or the other. -/
theorem unionOf_map_unionOf
    (h : ∀ group ∈ groups, group ≠ [] ∧ ∀ type ∈ group, type.UnionFlat) :
    unionOf (groups.map unionOf) = unionOf groups.flatten := by
  have hearly : (groups.map unionOf).flatMap unionMembers =
      groups.flatMap fun group => Text.distinct (group.flatMap unionMembers) := by
    rw [List.flatMap_map]
    exact List.flatMap_congr fun group hgroup =>
      unionMembers_unionOf (h group hgroup).1 (h group hgroup).2
  calc unionOf (groups.map unionOf)
      = collapse never union (Text.distinct
          (groups.flatMap fun group => Text.distinct (group.flatMap unionMembers))) := by
        rw [unionOf_eq_collapse, hearly]
    _ = collapse never union (Text.distinct (groups.flatMap (·.flatMap unionMembers))) := by
        rw [Text.distinct_flatMap_distinct]
    _ = unionOf groups.flatten := by rw [unionOf_eq_collapse, flatMap_flatten]

/-- Building the groups first and then their intersection gives the intersection of all. -/
theorem intersectionOf_map_intersectionOf
    (h : ∀ group ∈ groups, group ≠ [] ∧ ∀ type ∈ group, type.IntersectionFlat) :
    intersectionOf (groups.map intersectionOf) = intersectionOf groups.flatten := by
  have hearly : (groups.map intersectionOf).flatMap intersectionMembers =
      groups.flatMap (·.flatMap intersectionMembers) := by
    rw [List.flatMap_map]
    exact List.flatMap_congr fun group hgroup =>
      intersectionMembers_intersectionOf (h group hgroup).1 (h group hgroup).2
  rw [intersectionOf_eq_collapse, intersectionOf_eq_collapse, hearly, flatMap_flatten]

/-- A normal type is flat, whatever its constructor. -/
theorem Normal.unionFlat (h : type.Normal) : type.UnionFlat := by
  cases type with
  | union members =>
    obtain ⟨⟨htwo, -, hflat⟩, -⟩ := normal_iff.1 h
    exact ⟨fun hnil => absurd htwo (by simp [hnil]), hflat⟩
  | _ => trivial

/-- The alternatives of typings may be made one type each before they are put together. -/
theorem unionOf_map_unionType {typings : List Typing}
    (h : ∀ typing ∈ typings, typing.types ≠ [] ∧ ∀ type ∈ typing.types, type.Normal) :
    unionOf (typings.map (·.unionType)) = unionOf (typings.flatMap (·.types)) := by
  have hgroups : ∀ group ∈ typings.map (·.types), group ≠ [] ∧ ∀ type ∈ group, type.UnionFlat := by
    rintro group hgroup
    obtain ⟨typing, htyping, rfl⟩ := List.mem_map.1 hgroup
    exact ⟨(h typing htyping).1, fun type htype => ((h typing htyping).2 type htype).unionFlat⟩
  have hunion := unionOf_map_unionOf hgroups
  rw [List.map_map] at hunion
  exact hunion

/-- Grouping does not matter.  Unions of groups of flat types, and intersections of such groups, are the
    union and the intersection of all types of the groups, with the same members in the same order, if no
    group is empty.  In particular the alternatives of typings may be made one type early or late. -/
theorem building_ignores_grouping :
    (∀ groups : List (List TypeExpr),
      (∀ group ∈ groups, group ≠ [] ∧ ∀ type ∈ group, type.UnionFlat) →
        unionOf (groups.map unionOf) = unionOf groups.flatten) ∧
    (∀ groups : List (List TypeExpr),
      (∀ group ∈ groups, group ≠ [] ∧ ∀ type ∈ group, type.IntersectionFlat) →
        intersectionOf (groups.map intersectionOf) = intersectionOf groups.flatten) ∧
    (∀ typings : List Typing,
      (∀ typing ∈ typings, typing.types ≠ [] ∧ ∀ type ∈ typing.types, type.Normal) →
        unionOf (typings.map (·.unionType)) = unionOf (typings.flatMap (·.types))) :=
  ⟨fun _ => unionOf_map_unionOf, fun _ => intersectionOf_map_intersectionOf,
    fun _ => unionOf_map_unionType⟩

/-- A union of unions shows the members of its members only where it is a group of its own. -/
example :
    unionOf [unionOf [union [union [string, number]]], unionOf [null]] = union [string, number, null] ∧
      unionOf [union [union [string, number]], null] = union [union [string, number], null] := by
  constructor <;> cbv

/-- Groups that share members: of the second one a single member is left, and the third one repeats
    members of both. -/
def nullableGroups : List (List TypeExpr) :=
  [[string, union [number, null]], [boolean, boolean], [union [null, boolean], string]]

/-- Groups of references and of an intersection. -/
def referenceGroups : List (List TypeExpr) :=
  [[reference ["Pet"], intersection [reference ["Named"], reference ["Aged"]]], [reference ["Pet"]]]

/-- Typings with an alternative in common. -/
def nullableTypings : List Typing :=
  [Typing.ofTypes [string, null], Typing.ofTypes [boolean, null]]

theorem building_ignores_grouping_nullable :
    ((∀ group ∈ nullableGroups, group ≠ [] ∧ ∀ type ∈ group, type.UnionFlat) ∧
      unionOf (nullableGroups.map unionOf) = union [string, number, null, boolean]) ∧
    ((∀ group ∈ referenceGroups, group ≠ [] ∧ ∀ type ∈ group, type.IntersectionFlat) ∧
      intersectionOf (referenceGroups.map intersectionOf) =
        intersection [reference ["Pet"], reference ["Named"], reference ["Aged"], reference ["Pet"]]) ∧
    ((∀ typing ∈ nullableTypings, typing.types ≠ [] ∧ ∀ type ∈ typing.types, type.Normal) ∧
      unionOf (nullableTypings.map (·.unionType)) = union [string, null, boolean]) := by
  have hunion : ∀ group ∈ nullableGroups, group ≠ [] ∧ ∀ type ∈ group, type.UnionFlat := by
    simp [nullableGroups, UnionFlat, isUnion]
  have hintersection : ∀ group ∈ referenceGroups, group ≠ [] ∧
      ∀ type ∈ group, type.IntersectionFlat := by
    simp [referenceGroups, IntersectionFlat, isIntersection]
  have hnormal : ∀ typing ∈ nullableTypings,
      typing.types ≠ [] ∧ ∀ type ∈ typing.types, type.Normal := by
    simp [nullableTypings, Typing.ofTypes]
  obtain ⟨hunions, hintersections, htypings⟩ := building_ignores_grouping
  refine ⟨⟨hunion, ?_⟩, ⟨hintersection, ?_⟩, ⟨hnormal, ?_⟩⟩
  · rw [hunions _ hunion]
    cbv
  · rw [hintersections _ hintersection]
    cbv
  · rw [htypings _ hnormal]
    cbv

end Typewright.TypeExpr
