import Typewright.Proofs.Schema.Soundness.Members

/-!
# Branches and type names admit the values of a schema

What the branches of a schema denote together, and the alternatives of its type names intersected
with it, hold the values that the schema describes.  Null stands beside the intersection, since no
branch speaks of it.
-/

namespace Typewright.Schema

variable {G : List String → Json → Prop} {target : String → Json → Prop} {context : Context}
  {fields : List (String × Json)} {keyword : String}

/-! ### Branches -/

/-- The branches of one keyword, combined: what holds of the branches holds of the combination. -/
theorem ensures_combineBranches {combine : List TypeExpr → TypeExpr}
    (hgrounds : Grounds G target context fields) {parent : Option Json} {P : Json → Prop}
    (hcombine : ∀ items, (Json.object fields).items? keyword = some items → ∀ typings,
      List.Forall₂ (Sound G target parent) items typings → ∀ value, P value →
        TypeExpr.Admits G (combine (typings.map (·.unionType))) value) :
    Run.Ensures G (combineBranches combine (keywordTypings context parent (.object fields) keyword))
      fun typing => ∀ value, P value → ∀ combined ∈ typing, ∀ type ∈ combined.types,
        TypeExpr.Admits G type value := by
  cases hkeyword : keywordTypings context parent (.object fields) keyword with
  | none => exact Run.ensures_pure fun value _ combined hcombined => by simp at hcombined
  | some run =>
    obtain ⟨items, hitems, hensures⟩ := ensures_keywordTypings hgrounds hkeyword
    refine Run.ensures_bind hensures fun typings => ?_
    refine Run.ensures_pure fun hsound value hvalue combined hcombined type htype => ?_
    rw [Option.mem_some_iff] at hcombined
    subst hcombined
    rw [List.mem_singleton.1 htype]
    exact hcombine items hitems typings hsound value hvalue

/-- The value has the type that is handed down and meets the schema. -/
def Described (target : String → Json → Prop) (parent : Option Json) (schema value : Json) : Prop :=
  (∀ declared ∈ parent, OfTypes declared value) ∧ Valid true target schema value

/-- One of the branches of `anyOf` or `oneOf` holds. -/
theorem ensures_anyOf (hgrounds : Grounds G target context fields) (parent : Option Json)
    (hkeyword : keyword ∈ ["anyOf", "oneOf"]) :
    Run.Ensures G (combineBranches TypeExpr.unionOf
        (keywordTypings context parent (.object fields) keyword))
      fun typing => ∀ value, Described target parent (.object fields) value →
        ∀ combined ∈ typing, ∀ type ∈ combined.types, TypeExpr.Admits G type value := by
  refine ensures_combineBranches hgrounds ?_
  rintro items hitems typings hsound value ⟨hparent, hvalid⟩
  cases hvalid with
  | malformed _ hobject => exact absurd rfl hobject
  | keywords _ _ _ _ _ _ _ _ _ _ _ _ hchosen halternatives _ _ _ _ =>
    obtain ⟨typing, htyping, hbranch⟩ :=
      exists_mem_right hsound (hchosen keyword hkeyword items hitems)
    refine TypeExpr.admits_unionOf_iff.2 ⟨typing.unionType, List.mem_map_of_mem htyping, ?_⟩
    rw [Typing.admits_unionType_iff]
    exact hbranch value hparent (halternatives keyword hkeyword (by rw [hitems]; rfl))

/-- All branches of `allOf` hold. -/
theorem ensures_allOf (hgrounds : Grounds G target context fields) (parent : Option Json) :
    Run.Ensures G (combineBranches TypeExpr.intersectionOf
        (keywordTypings context parent (.object fields) "allOf"))
      fun typing => ∀ value, Described target parent (.object fields) value →
        ∀ combined ∈ typing, ∀ type ∈ combined.types, TypeExpr.Admits G type value := by
  refine ensures_combineBranches hgrounds ?_
  rintro items hitems typings hsound value ⟨hparent, hvalid⟩
  cases hvalid with
  | malformed _ hobject => exact absurd rfl hobject
  | keywords _ _ _ _ _ _ _ _ _ _ _ _ _ _ hallOf _ _ _ =>
    refine TypeExpr.admits_intersectionOf_iff.2 fun type htype => ?_
    obtain ⟨typing, htyping, rfl⟩ := List.mem_map.1 htype
    obtain ⟨branch, hbranch, hsound⟩ := exists_mem_left hsound htyping
    rw [Typing.admits_unionType_iff]
    exact hsound value hparent (hallOf items hitems branch hbranch)

/-- What the branches of a schema denote together holds the values that the schema describes. -/
theorem ensures_composedTyping (hgrounds : Grounds G target context fields) (parent : Option Json) :
    Run.Ensures G (composedTyping context (branchTypings context (.object fields) parent))
      fun typing => ∃ type, typing.types = [type] ∧
        ∀ value, Described target parent (.object fields) value → TypeExpr.Admits G type value := by
  unfold composedTyping
  refine Run.ensures_bind (ensures_anyOf hgrounds parent (by simp)) fun anyOf => ?_
  refine Run.ensures_bind (ensures_allOf hgrounds parent) fun allOf => ?_
  refine Run.ensures_bind (ensures_anyOf hgrounds parent (by simp)) fun oneOf => ?_
  simp only
  split
  · exact Run.ensures_throw
  -- The types of the three keywords are intersected, so each of them has to admit the value.
  · refine Run.ensures_pure fun hone hall hany => ⟨_, rfl, fun value hvalue => ?_⟩
    rw [TypeExpr.admits_intersectionOf_iff]
    intro type htype
    obtain ⟨combined, hcombined, htype⟩ := List.mem_flatMap.1 htype
    rw [List.mem_append, List.mem_append, Option.mem_toList, Option.mem_toList,
      Option.mem_toList] at hcombined
    rcases hcombined with (hcombined | hcombined) | hcombined
    · exact hany value hvalue combined hcombined type htype
    · exact hall value hvalue combined hcombined type htype
    · exact hone value hvalue combined hcombined type htype

/-! ### Types -/

/-- A primitive type holds the values of its kind that are not null. -/
theorem covers_primitive {nullable : Bool} {type : TypeExpr} {value : Json}
    (hadmits : TypeExpr.Admits G type value) (hnull : value.kind ≠ .null) :
    (Typing.ofType (primitive nullable type)).Covers G value := by
  refine Typing.covers_of_types_eq rfl ?_
  unfold primitive
  split
  · exact hadmits
  · rw [TypeExpr.Admits]
    exact ⟨hadmits, hnull⟩

/-- The alternative of a type name holds the values of that type that the schema describes. -/
theorem ensures_alternative (hgrounds : Grounds G target context fields) (nullable : Bool)
    (name : String) :
    Run.Ensures G (alternative context nullable (objectTypingOf context (.object fields))
        (arrayTypingOf context (.object fields)) name)
      fun typing => ∀ value, value.kind ≠ .null → OfType name value →
        Valid true target (.object fields) value → typing.Covers G value := by
  unfold alternative
  split
  · exact Run.ensures_pure fun value hnull htype _ => covers_primitive htype hnull
  · exact Run.ensures_pure fun value hnull htype _ => covers_primitive htype hnull
  · exact Run.ensures_pure fun value hnull htype _ => covers_primitive htype hnull
  · exact Run.ensures_pure fun value hnull htype _ => covers_primitive htype hnull
  · refine Run.ensures_map (ensures_objectTypingOf hgrounds) ?_
    intro typing h value _ htype hvalid
    exact Typing.covers_united_iff.2 (h value htype hvalid)
  · refine Run.ensures_map (ensures_arrayTypingOf hgrounds) ?_
    intro typing h value _ htype hvalid
    exact Typing.covers_united_iff.2 (h value htype hvalid)
  · exact Run.ensures_throw

theorem brandType?_eq_none (hunbranded : context.Unbranded (.object fields)) :
    brandType? context (Facts.ofJson (.object fields)) = none := by
  have hname : ∀ name ∈ context.brand.or (Facts.ofJson (.object fields)).title,
      context.options.isBranded (Naming.identifier name) context.schemaNames = false := by
    intro name hname
    rcases Option.or_eq_some_iff.1 hname with hbrand | ⟨-, htitle⟩
    · exact hunbranded.1 name hbrand
    · exact hunbranded.2 _ (.inl rfl) name htitle
  unfold brandType?
  cases h : context.brand.or (Facts.ofJson (.object fields)).title with
  | none => rfl
  | some name => simp [hname name h]

/-- The value has one of the named types, or it is null and the schema lets null in. -/
def Named (schema : Json) (names : List String) (value : Json) : Prop :=
  (∃ name ∈ names, OfType name value) ∨ (schema.flag "nullable" = true ∧ value.kind = .null)

/-- Null is named, or let in. -/
theorem nullable_of_named {schema value : Json} {names : List String} (h : Named schema names value)
    (hkind : value.kind = .null) :
    (names.contains "null" || (Facts.ofJson schema).nullable) = true := by
  rw [Bool.or_eq_true, List.contains_iff_mem]
  rcases h with ⟨name, hname, htype⟩ | ⟨hnullable, -⟩
  · rw [ofType_null_iff hkind] at htype
    exact .inl (htype ▸ hname)
  · exact .inr hnullable

/-- A value that is not null has one of the other named types. -/
theorem exists_name_of_named {schema value : Json} {names : List String}
    (h : Named schema names value) (hkind : value.kind ≠ .null) :
    ∃ name ∈ Text.distinct (names.filter (· != "null")), OfType name value := by
  obtain ⟨name, hname, htype⟩ := h.resolve_right fun h => hkind h.2
  refine ⟨name, Text.mem_distinct_iff.2 (List.mem_filter.2 ⟨hname, ?_⟩), htype⟩
  rw [bne_iff_ne]
  rintro rfl
  exact hkind htype

/-- Null stands beside the intersection that the other values belong to. -/
theorem covers_cons_null {nullable : Bool} {type : TypeExpr} {emitted : FragmentSet} {value : Json}
    (hnull : value.kind = .null → nullable = true)
    (hother : value.kind ≠ .null → TypeExpr.Admits G type value) :
    Typing.Covers G { types := type :: if nullable then [.null] else [], emitted } value := by
  by_cases hkind : value.kind = .null
  · refine ⟨.null, List.mem_cons_of_mem _ ?_, hkind⟩
    rw [if_pos (hnull hkind)]
    exact List.mem_singleton_self _
  · exact ⟨type, List.mem_cons_self, hother hkind⟩

/-- The alternatives of the type names hold the values of their types that the schema describes. -/
def AlternativesHold (G : List String → Json → Prop) (target : String → Json → Prop) (schema : Json) :
    List String → List Typing → Prop :=
  List.Forall₂ fun name typing => ∀ value, value.kind ≠ .null → OfType name value →
    Valid true target schema value → typing.Covers G value

/-- The type that the branches of the schema inherit. -/
def inheritedType (schema : Json) : Json :=
  (schema.field? "type").getD (.string "object")

/-- What the branches add, where there are any, holds the values of the inherited type. -/
def BranchesHold (G : List String → Json → Prop) (target : String → Json → Prop) (schema : Json)
    (composed : Option Typing) : Prop :=
  ∀ value, (isComposed schema = true → OfTypes (inheritedType schema) value) →
    Valid true target schema value → ∀ typing ∈ composed, ∀ type ∈ typing.types,
      TypeExpr.Admits G type value

/-- An intersection of the alternatives with what the branches add, and null beside it. -/
theorem covers_typed (hunbranded : context.Unbranded (.object fields)) {names : List String}
    {alternatives : List Typing} {composed : Option Typing} {emitted : FragmentSet} {value : Json}
    (halternatives : AlternativesHold G target (.object fields)
      (Text.distinct (names.filter (· != "null"))) alternatives)
    (hcomposed : BranchesHold G target (.object fields) composed)
    (hvalue : Named (.object fields) names value)
    (hinherited : isComposed (.object fields) = true → value.kind ≠ .null →
      OfTypes (inheritedType (.object fields)) value)
    (hvalid : Valid true target (.object fields) value) :
    Typing.Covers G
      { types :=
          TypeExpr.intersectionOf (TypeExpr.unionOf (alternatives.flatMap (·.types)) ::
            composed.toList.flatMap (·.types) ++
              (brandType? context (Facts.ofJson (.object fields))).toList) ::
            if names.contains "null" || (Facts.ofJson (.object fields)).nullable then [.null]
            else []
        emitted } value := by
  refine covers_cons_null (nullable_of_named hvalue) fun hkind => ?_
  refine TypeExpr.admits_intersectionOf_iff.2 fun type htype => ?_
  rw [brandType?_eq_none hunbranded, Option.toList_none, List.append_nil, List.mem_cons] at htype
  -- The union of the alternatives stands first, the branches after it; there is no brand.
  rcases htype with rfl | htype
  · obtain ⟨name, hname, htype⟩ := exists_name_of_named hvalue hkind
    obtain ⟨typing, htyping, hcovers⟩ := exists_mem_right halternatives hname
    obtain ⟨type, hmem, hadmits⟩ := hcovers value hkind htype hvalid
    exact TypeExpr.admits_unionOf_iff.2 ⟨type, List.mem_flatMap.2 ⟨typing, htyping, hmem⟩, hadmits⟩
  · obtain ⟨typing, htyping, htype⟩ := List.mem_flatMap.1 htype
    rw [Option.mem_toList] at htyping
    exact hcomposed value (fun h => hinherited h hkind) hvalid typing htyping type htype

/-- Without alternatives, only null is left. -/
theorem covers_of_alternatives_eq_nil {names : List String} {emitted : FragmentSet} {value : Json}
    (halternatives : AlternativesHold G target (.object fields)
      (Text.distinct (names.filter (· != "null"))) [])
    (hvalue : Named (.object fields) names value) :
    Typing.Covers G
      { types :=
          if names.contains "null" || (Facts.ofJson (.object fields)).nullable then [.null] else []
        emitted } value := by
  by_cases hkind : value.kind = .null
  · refine ⟨.null, ?_, hkind⟩
    simp only [nullable_of_named hvalue hkind, if_true, List.mem_singleton]
  · obtain ⟨name, hname, -⟩ := exists_name_of_named hvalue hkind
    rw [List.forall₂_nil_right_iff.1 halternatives] at hname
    exact absurd hname List.not_mem_nil

theorem ensures_inheritingBranches (hgrounds : Grounds G target context fields)
    (hcomposed : isComposed (.object fields) = true) :
    Run.Ensures G (some <$> composedTyping context
        (branchTypings context (.object fields) (some (inheritedType (.object fields)))))
      (BranchesHold G target (.object fields)) := by
  refine Run.ensures_map (ensures_composedTyping hgrounds _) ?_
  rintro composed ⟨single, hsingle, hadmits⟩ value hinherited hvalid typing htyping type htype
  rw [Option.mem_some_iff] at htyping
  subst htyping
  rw [hsingle, List.mem_singleton] at htype
  rw [htype]
  refine hadmits value ⟨fun declared hdeclared => ?_, hvalid⟩
  rw [← Option.mem_some_iff.1 hdeclared]
  exact hinherited hcomposed

/-- A schema with type names holds the values of these types that it describes. -/
theorem ensures_typedTyping (hgrounds : Grounds G target context fields) (names : List String) :
    Run.Ensures G (shapeTyping context (.object fields) (.typed names)) fun typing =>
      ∀ value, Named (.object fields) names value →
        (isComposed (.object fields) = true → value.kind ≠ .null →
          OfTypes (inheritedType (.object fields)) value) →
        Valid true target (.object fields) value → typing.Covers G value := by
  unfold shapeTyping typedTyping
  refine Run.ensures_bind (Run.ensures_mapM fun name _ =>
    ensures_alternative hgrounds _ name) fun alternatives => ?_
  simp only
  split
  -- Without alternatives only `null` was named, and a value of that kind is all there is to cover.
  · next hempty =>
    rw [List.isEmpty_iff] at hempty
    subst hempty
    exact Run.ensures_pure fun halternatives value hvalue _ _ =>
      covers_of_alternatives_eq_nil halternatives hvalue
  · split
    · next hcomposed =>
      refine Run.ensures_bind (ensures_inheritingBranches hgrounds hcomposed)
        fun composed => ?_
      exact Run.ensures_pure fun hcomposed halternatives _ =>
        covers_typed hgrounds.unbranded halternatives hcomposed
    · have hnone : Run.Ensures G (pure none) (BranchesHold G target (.object fields)) :=
        Run.ensures_pure fun value _ _ typing htyping => absurd htyping (by simp)
      exact Run.ensures_bind hnone fun composed => Run.ensures_pure fun hcomposed halternatives _ =>
        covers_typed hgrounds.unbranded halternatives hcomposed

end Typewright.Schema
