import Typewright.Proofs.Schema.Ensures
import Typewright.Proofs.Schema.Reading

/-!
# Null in the types of typed schemas

A schema with type names lets null in just when it names it or is marked `nullable`, whatever its
branches, its brand and the references in it stand for (`Schema.admits_null_iff`).

Null is decided in two places.  Where it is let in it stands beside the intersection of alternatives,
branches and brand, so that none of these can take it away.  Where it is not, no alternative holds it
(`Schema.gives_alternative`), and so neither does the intersection, whatever the other parts hold.
-/

namespace Typewright.Schema

variable {G : List String → Json → Prop} {context : Context} {facts : Facts}

/-! ### Objects and arrays -/

theorem not_covers_null_of_types_eq {typing : Typing} {type : TypeExpr} (htypes : typing.types = [type])
    (h : ¬ TypeExpr.Admits G type .null) : ¬ typing.Covers G .null := by
  rintro ⟨other, hother, hadmits⟩
  rw [htypes, List.mem_singleton] at hother
  exact h (hother ▸ hadmits)

theorem not_admits_object_null (properties : List (Property TypeExpr))
    (index : Option (IndexSignature TypeExpr)) :
    ¬ TypeExpr.Admits G (.object properties index) .null := by
  simp [TypeExpr.Admits]

theorem not_admits_array_null (element : TypeExpr) :
    ¬ TypeExpr.Admits G (.array element) .null := by
  simp [TypeExpr.Admits]

theorem not_admits_tuple_null (elements : List TypeExpr) (rest : Option TypeExpr) :
    ¬ TypeExpr.Admits G (.tuple elements rest) .null := by
  simp [TypeExpr.Admits]

theorem not_admits_uniformType_null (limit : Nat) (minItems maxItems : Option Double)
    (element : TypeExpr) :
    ¬ TypeExpr.Admits G (uniformType limit minItems maxItems element) .null := by
  unfold uniformType
  split
  · exact not_admits_array_null element
  · dsimp only
    split
    · exact not_admits_tuple_null _ _
    · split
      · exact not_admits_tuple_null _ _
      · exact not_admits_array_null element

/-- An object type does not hold null. -/
theorem gives_objectTyping (properties patterns : Run (List NamedTyping)) :
    (objectTyping facts properties patterns).Gives fun typing => ¬ typing.Covers G .null := by
  unfold objectTyping
  refine Run.gives_bind (Run.gives_true _) fun properties _ => ?_
  refine Run.gives_bind (Run.gives_true _) fun patterns _ => ?_
  exact Run.gives_pure (not_covers_null_of_types_eq rfl (not_admits_object_null _ _))

theorem gives_tupleTyping (elements : Run (List Typing)) (rest : Option (Run Typing)) :
    (tupleTyping elements rest).Gives fun typing => ¬ typing.Covers G .null := by
  unfold tupleTyping
  refine Run.gives_bind (Run.gives_true _) fun elements _ => ?_
  dsimp only
  split
  · refine Run.gives_bind (Run.gives_true _) fun rest _ => ?_
    exact Run.gives_pure (not_covers_null_of_types_eq rfl (not_admits_tuple_null _ _))
  · exact Run.gives_pure (not_covers_null_of_types_eq rfl (not_admits_tuple_null _ _))

theorem gives_uniformTyping (item : Option (Run Typing)) :
    (uniformTyping context facts item).Gives fun typing => ¬ typing.Covers G .null := by
  unfold uniformTyping
  refine Run.gives_bind (Run.gives_true _) fun item _ => ?_
  exact Run.gives_pure (not_covers_null_of_types_eq rfl (not_admits_uniformType_null _ _ _ _))

/-- An array type does not hold null. -/
theorem gives_arrayTyping (items : ItemTypings) :
    (arrayTyping context facts items).Gives fun typing => ¬ typing.Covers G .null := by
  unfold arrayTyping
  split
  · exact Run.gives_pure (not_covers_null_of_types_eq rfl (not_admits_array_null _))
  · split
    · exact gives_tupleTyping _ _
    · exact gives_tupleTyping _ _
    · exact gives_uniformTyping _

/-! ### Alternatives -/

theorem not_covers_null_primitive (type : TypeExpr) :
    ¬ (Typing.ofType (primitive false type)).Covers G .null :=
  not_covers_null_of_types_eq rfl fun hadmits => hadmits.2 rfl

/-- Where null is not let in, the alternative of a type name does not hold it. -/
theorem gives_alternative {object array : Run Typing}
    (hobject : object.Gives fun typing => ¬ typing.Covers G .null)
    (harray : array.Gives fun typing => ¬ typing.Covers G .null) (name : String) :
    (alternative context false object array name).Gives fun typing => ¬ typing.Covers G .null := by
  unfold alternative
  split
  · exact Run.gives_pure (not_covers_null_primitive _)
  · exact Run.gives_pure (not_covers_null_primitive _)
  · exact Run.gives_pure (not_covers_null_primitive _)
  · exact Run.gives_pure (not_covers_null_primitive _)
  · exact Run.gives_map hobject fun typing h => fun hunited => h (Typing.covers_united_iff.1 hunited)
  · exact Run.gives_map harray fun typing h => fun hunited => h (Typing.covers_united_iff.1 hunited)
  · exact Run.gives_throw

/-! ### Typed schemas -/

/-- Null stands beside the intersection, where it is let in. -/
theorem covers_null_beside {nullable : Bool} {type : TypeExpr} {emitted : FragmentSet}
    (h : nullable = false → ¬ TypeExpr.Admits G type .null) :
    Typing.Covers G { types := type :: if nullable then [.null] else [], emitted } .null ↔
      nullable = true := by
  cases nullable with
  | true =>
    refine ⟨fun _ => rfl, fun _ => ⟨.null, List.mem_cons_of_mem _ (List.mem_singleton_self _), rfl⟩⟩
  | false => simpa [Typing.Covers] using h rfl

/-- An intersection holds no null when its first part, the union of the alternatives, does not. -/
theorem not_admits_null_of_alternatives {alternatives : List Typing} {parts : List TypeExpr}
    (h : ∀ typing ∈ alternatives, ¬ typing.Covers G .null) :
    ¬ TypeExpr.Admits G
      (TypeExpr.intersectionOf (TypeExpr.unionOf (alternatives.flatMap (·.types)) :: parts))
      .null := by
  intro hadmits
  have hunion := TypeExpr.admits_intersectionOf_iff.1 hadmits _ List.mem_cons_self
  obtain ⟨type, hmem, htype⟩ := TypeExpr.admits_unionOf_iff.1 hunion
  obtain ⟨typing, htyping, hmem⟩ := List.mem_flatMap.1 hmem
  exact h typing htyping ⟨type, hmem, htype⟩

/-- The types of a schema with type names hold null just when it is named or let in. -/
theorem gives_typedTyping {names : List String} {object array : Run Typing}
    {branches : Json → BranchTypings}
    (hobject : object.Gives fun typing => ¬ typing.Covers G .null)
    (harray : array.Gives fun typing => ¬ typing.Covers G .null) :
    (typedTyping context facts names object array branches).Gives fun typing =>
      (typing.Covers G .null ↔ (names.contains "null" || facts.nullable) = true) := by
  unfold typedTyping
  -- Whether `null` is let in is decided in one place; the alternatives are asked only if it is not.
  generalize (names.contains "null" || facts.nullable) = nullable
  have halternatives (name : String) :
      (alternative context nullable object array name).Gives fun typing =>
        nullable = false → ¬ typing.Covers G .null := by
    cases nullable with
    | true => exact (Run.gives_true _).mono fun _ _ h => Bool.noConfusion h
    | false => exact (gives_alternative hobject harray name).mono fun _ h _ => h
  refine Run.gives_bind (Run.gives_mapM fun name _ => halternatives name) fun alternatives h => ?_
  have hnone : nullable = false → ∀ parts, ¬ TypeExpr.Admits G
      (TypeExpr.intersectionOf (TypeExpr.unionOf (alternatives.flatMap (·.types)) :: parts)) .null :=
    fun hnullable parts => not_admits_null_of_alternatives fun typing htyping =>
      h typing htyping hnullable
  dsimp only
  split
  · -- Only null was named, or nothing at all.
    refine Run.gives_pure ?_
    cases nullable <;> simp [Typing.Covers, TypeExpr.Admits, Json.kind]
  · split
    · refine Run.gives_bind (Run.gives_true _) fun composed _ => ?_
      exact Run.gives_pure (covers_null_beside fun hnullable => hnone hnullable _)
    · refine Run.gives_bind (Run.gives_true _) fun composed _ => ?_
      exact Run.gives_pure (covers_null_beside fun hnullable => hnone hnullable _)

/-- Null belongs to the types of a schema with type names if and only if it is among the names or the
    schema is marked `nullable`. -/
theorem admits_null_iff {context : Context} {parent : Option Json} {fields : List (String × Json)}
    {names : List String} {claimed claimed' : EnumNames} {typing : Typing}
    (hshape : (Facts.ofJson (.object fields)).shape context.location parent = .ok (.typed names))
    (hrun : ((ofJson (.object fields)).typing context parent).Yields claimed typing claimed')
    (G : List String → Json → Prop) :
    TypeExpr.Admits G typing.unionType .null ↔
      "null" ∈ names ∨ (Json.object fields).field? "nullable" = some (.bool true) := by
  have htyped : (shapeTyping context (.object fields) (.typed names)).Gives fun typing =>
      (typing.Covers G .null ↔
        (names.contains "null" || (Facts.ofJson (.object fields)).nullable) = true) := by
    rw [shapeTyping]
    exact gives_typedTyping (gives_objectTyping _ _) (gives_arrayTyping _)
  rw [typing_object, hshape] at hrun
  have hcovers : typing.Covers G .null ↔ _ := htyped _ _ _ hrun
  rw [Typing.admits_unionType_iff, hcovers, Bool.or_eq_true, List.contains_iff_mem]
  exact or_congr_right Json.flag_eq_true_iff

/-- A name that may be missing, also where a branch and a brand are added to it. -/
def nickname : List (String × Json) :=
  [("title", .string "Nickname"), ("type", .string "string"), ("nullable", .bool true),
    ("allOf", .array [.object [("$ref", .string "#/components/schemas/Name")]])]

theorem admits_null_nickname :
    ∃ typing, ((ofJson (.object nickname)).typing
        { options := { brands := .all }, baseName := "Main" } none).Yields [] typing [] ∧
      TypeExpr.Admits (fun _ _ => False) typing.unionType .null := by
  obtain ⟨typing, hrun⟩ : ∃ typing, ((ofJson (.object nickname)).typing
      { options := { brands := .all }, baseName := "Main" } none).Yields [] typing [] := ⟨_, rfl⟩
  have hshape (location : String) :
      (Facts.ofJson (.object nickname)).shape location none = .ok (.typed ["string"]) := rfl
  exact ⟨typing, hrun, (admits_null_iff (hshape _) hrun _).2 (.inr rfl)⟩

end Typewright.Schema
