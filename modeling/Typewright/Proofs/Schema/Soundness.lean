import Typewright.Proofs.Json.Text
import Typewright.Proofs.Schema.Soundness.Branches

/-!
# The types of a schema admit its values

Every value that a schema describes belongs to one of the types that the schema denotes
(`Schema.exists_admits_of_valid`).  Each rule of `Schema.typing` has its own lemma; they are put
together by induction over the schemas inside a schema.
-/

namespace Typewright.Schema

variable {G : List String → Json → Prop} {target : String → Json → Prop}

/-! ### Enumerations -/

/-- Every different value of an enumeration is kept. -/
theorem mem_distinctBy_text {constants : List Json} {constant : Json} (h : constant ∈ constants) :
    constant ∈ Text.distinctBy Json.text constants := by
  obtain ⟨kept, hkept, htext⟩ : ∃ kept ∈ Text.distinctBy Json.text constants,
      kept.text = constant.text := Text.exists_mem_distinctBy h
  rwa [Json.text_injective htext] at hkept

/-- The enum that is declared holds its values. -/
theorem ensures_realEnumTyping (context : Context) (facts : Facts) (values : List String) :
    Run.Ensures G (realEnumTyping context facts values) fun typing =>
      ∀ text ∈ values, typing.Covers G (.string text) := by
  intro names typing names' hyields
  obtain ⟨rfl, rfl⟩ := yields_realEnumTyping_iff.1 hyields
  refine ⟨EnumNames.extends_claim _ _ _, fun hG text htext => ?_⟩
  refine Typing.covers_of_types_eq rfl ?_
  rw [TypeExpr.Admits]
  exact hG _ _ (EnumNames.lookup_claim _ _ _) text htext

/-- An enumeration holds its values. -/
theorem ensures_enumTyping (context : Context) (facts : Facts) (values : Json) :
    Run.Ensures G (enumTyping context facts values) fun typing =>
      ∀ value, (∀ constants, values = .array constants →
        ∃ constant ∈ constants, constant.Same value) → typing.Covers G value := by
  cases values with
  | array constants =>
    unfold enumTyping
    simp only
    split
    · next hreal =>
      refine (ensures_realEnumTyping context facts _).mono fun typing hcovers value hvalue => ?_
      obtain ⟨constant, hconstant, hsame⟩ := hvalue constants rfl
      have hmem := mem_distinctBy_text hconstant
      simp only [Bool.and_eq_true, beq_iff_eq] at hreal
      -- All values are strings, for as many strings as values are kept.
      obtain ⟨text, htext⟩ := Option.isSome_iff_exists.1
        (List.filterMap_length_eq_length.1 hreal.2 constant hmem)
      rw [Json.asString?_eq_some.1 htext, Json.same_string_iff] at hsame
      rw [hsame]
      exact hcovers text (List.mem_filterMap.2 ⟨constant, hmem, htext⟩)
    · refine Run.ensures_pure fun value hvalue => ?_
      obtain ⟨constant, hconstant, hsame⟩ := hvalue constants rfl
      exact ⟨_, List.mem_map_of_mem (mem_distinctBy_text hconstant),
        TypeExpr.admits_ofConst constant value hsame⟩
  | _ =>
    change Run.Ensures G context.unsupportedEnum _
    unfold Context.unsupportedEnum
    split
    · exact Run.ensures_throw
    · exact Run.ensures_pure fun value _ => Typing.covers_of_types_eq rfl trivial

/-! ### Schemas -/

theorem ensures_unsupported (context : Context) :
    Run.Ensures G context.unsupported fun typing => ∀ value, typing.Covers G value := by
  unfold Context.unsupported
  split
  · exact Run.ensures_throw
  · exact Run.ensures_pure fun value => Typing.covers_of_types_eq rfl trivial

/-- The rule for a schema written as an object, by its shape. -/
theorem ensures_shapeTyping {context : Context} {parent : Option Json} {fields : List (String × Json)}
    (hgrounds : Grounds G target context fields) {shape : Shape}
    (hshape : (Facts.ofJson (.object fields)).HasShape context.location parent shape) :
    Run.Ensures G (shapeTyping context (.object fields) shape)
      (Sound G target parent (.object fields)) := by
  -- Validity of the value is taken apart in each case only as far as the shape needs it.
  cases hshape with
  | null htype =>
    refine Run.ensures_pure fun value _ hvalid => Typing.covers_of_types_eq rfl ?_
    cases hvalid with
    | malformed _ hobject => exact absurd rfl hobject
    | keywords _ _ _ htypes =>
      rcases htypes _ htype with hnull | ⟨-, hnull⟩
      · exact hnull
      · exact hnull
  | reference hreference =>
    refine Run.ensures_pure fun value _ hvalid => Typing.covers_of_types_eq rfl ?_
    cases hvalid with
    | malformed _ hobject => exact absurd rfl hobject
    | keywords _ _ htarget => exact hgrounds.agrees _ value (htarget _ hreference)
  | const hconst =>
    refine Run.ensures_pure fun value _ hvalid => Typing.covers_of_types_eq rfl ?_
    cases hvalid with
    | malformed _ hobject => exact absurd rfl hobject
    | keywords _ _ _ _ hsame => exact TypeExpr.admits_ofConst _ value (hsame _ hconst)
  | enum henum =>
    refine (ensures_enumTyping context _ _).mono fun typing hcovers value _ hvalid => ?_
    cases hvalid with
    | malformed _ hobject => exact absurd rfl hobject
    | keywords _ _ _ _ _ hconstants =>
      refine hcovers value fun constants hconstants' => hconstants constants ?_
      exact Json.items?_eq_some.2 (henum.trans (congrArg some hconstants'))
  | @declared declared names htype hnames =>
    refine (ensures_typedTyping hgrounds _).mono ?_
    intro typing hcovers value _ hvalid
    have htypes : OfTypes declared value ∨
        ((Json.object fields).flag "nullable" = true ∧ value.kind = .null) := by
      cases hvalid with
      | malformed _ hobject => exact absurd rfl hobject
      | keywords _ _ _ htypes => exact htypes _ htype
    refine hcovers value (htypes.imp_left (ofTypes_iff hnames).1) (fun _ hkind => ?_) hvalid
    have hfield : (Json.object fields).field? "type" = some declared := htype
    -- Branches inherit the declared names, so a value that is not `null` has one of them.
    rw [inheritedType, hfield]
    exact htypes.resolve_right fun h => hkind h.2
  | implied hreference hconst henum htype hproperties =>
    refine (ensures_typedTyping hgrounds _).mono ?_
    intro typing hcovers value _ hvalid
    have hobjects : value.kind = .object := by
      cases hvalid with
      | malformed _ hobject => exact absurd rfl hobject
      | keywords _ _ _ _ _ _ _ _ _ _ _ _ _ _ _ hobjects _ _ =>
        exact hobjects rfl hreference hconst henum htype hproperties
    have hfield : (Json.object fields).field? "type" = none := htype
    refine hcovers value (.inl ⟨"object", List.mem_singleton_self _, hobjects⟩) (fun _ _ => ?_) hvalid
    rw [inheritedType, hfield]
    exact hobjects
  | composed _ _ =>
    refine (ensures_composedTyping hgrounds none).mono ?_
    rintro typing ⟨type, htypes, hadmits⟩ value - hvalid
    exact Typing.covers_of_types_eq htypes (hadmits value ⟨by simp, hvalid⟩)
  | inherited _ _ hcomposition hparent hnames =>
    refine (ensures_typedTyping hgrounds _).mono ?_
    intro typing hcovers value htypes hvalid
    refine hcovers value (.inl ((ofTypes_iff hnames).1 (htypes _ hparent))) (fun h => ?_) hvalid
    exact absurd (h.symm.trans hcomposition) Bool.noConfusion
  | unsupported => exact (ensures_unsupported context).mono fun typing h value _ _ => h value

/-- Every typing of a schema is sound. -/
theorem typesSoundly (schema : Json) : TypesSoundly G target schema := by
  induction schema using Json.inside_induction with
  | _ schema ih =>
    intro context parent hagrees hunbranded
    cases schema with
    | bool allowed =>
      rw [ofJson]
      cases allowed with
      | true =>
        rw [typing]
        exact Run.ensures_pure fun value _ _ => Typing.covers_of_types_eq rfl trivial
      -- No value is valid for the schema that nothing fits.
      | false =>
        rw [typing]
        refine Run.ensures_pure fun value _ hvalid => ?_
        cases hvalid with
        | malformed hbool _ => exact absurd rfl hbool
        | keywords _ hobject => exact absurd hobject (by simp [Json.kind])
    | object fields =>
      rw [typing_object]
      split
      · exact Run.ensures_throw
      · next shape hshape =>
        exact ensures_shapeTyping ⟨hagrees, hunbranded, ih⟩ (hasShape_of_shape hshape)
    | _ =>
      rw [ofJson_eq_malformed (by simp [Json.kind]) (by simp [Json.kind]), typing]
      exact (ensures_unsupported context).mono fun typing h value _ _ => h value

/-- Every value that a schema describes belongs to one of the types that the schema denotes, where
    no brand is asked for and the environment gives every declared enum its values. -/
theorem exists_admits_of_valid {context : Context} {parent : Option Json} {schema value : Json}
    {names names' : EnumNames} {typing : Typing}
    (hrun : ((ofJson schema).typing context parent).Yields names typing names')
    (hunbranded : context.Unbranded schema) (henums : names'.Interpreted G)
    (hparent : ∀ declared ∈ parent, OfTypes declared value)
    (hvalid : Valid true (fun reference => G (context.pathOf reference)) schema value) :
    ∃ type ∈ typing.types, TypeExpr.Admits G type value := by
  have hagrees : context.Agrees G fun reference => G (context.pathOf reference) := fun _ _ h => h
  have hsound := typesSoundly schema context parent hagrees hunbranded
  exact (hsound names typing names' hrun).2 henums value hparent hvalid

section Samples

-- Accessors and types are computed where the keywords of a sample are looked up.
attribute [local simp] Json.field? Json.items? Json.entries? Json.string? Json.double? Json.asObject?
  Json.asArray? Json.asString? Json.asDouble? Json.isArray Json.kind Json.lookup_cons_eq
  Pointer.target? Pointer.keyword unlisted? requiredNames OfTypes OfType

/-- A list of at least one tag, and no condition more. -/
def tagList : Json :=
  .object
    [("type", .string "array"), ("minItems", .number (.integer 1)),
      ("items", .object [("$ref", .string "#/components/schemas/Tag")]),
      ("anyOf", .array [.bool false, .bool true])]

/-- Tags are strings. -/
def tagEnvironment (path : List String) (value : Json) : Prop :=
  path = ["Components", "Schemas", "Tag"] ∧ value.kind = .string

theorem valid_tag :
    Valid true (fun reference => tagEnvironment (declarationPath "Main" reference))
      (.object [("$ref", .string "#/components/schemas/Tag")]) (.string "x") := by
  refine .keywords (fun _ => .null) rfl ?_ ?_ ?_ ?_ ?_ ?_ ?_ ?_ (fun _ h => absurd h (by simp))
    (fun _ h => absurd h (by simp)) ?_ ?_ ?_ ?_ ?_ ?_ <;> simp
  exact ⟨by decide, rfl⟩

theorem valid_tagList :
    Valid true (fun reference => tagEnvironment (declarationPath "Main" reference)) tagList
      (.array [.string "x"]) := by
  have hleast : ∀ least, tagList.double? "minItems" = some least →
      ∀ items, Json.array [.string "x"] = .array items →
        least.units ≤ items.length * Double.unitsPerOne := by
    intro least hleast items hitems
    rw [← Option.some.inj hleast, ← Json.array.inj hitems]
    decide +kernel
  refine .keywords (fun _ => .bool true) rfl ?_ ?_ ?_ ?_ ?_ ?_ ?_ ?_ hleast
    (fun _ h => absurd h (by simp [tagList])) ?_ ?_ ?_ ?_ ?_ ?_ <;> simp [tagList]
  · exact valid_tag
  · exact .anything

/-- The type of a list of tags admits a list of one tag. -/
theorem exists_admits_tagList :
    Valid true (fun reference => tagEnvironment (declarationPath "Main" reference)) tagList
        (.array [.string "x"]) ∧
      ∃ typing, ((ofJson tagList).typing
          { options := {}, baseName := "Main" } none).Yields [] typing [] ∧
        ∃ type ∈ typing.types, TypeExpr.Admits tagEnvironment type (.array [.string "x"]) := by
  obtain ⟨typing, hrun⟩ : ∃ typing, ((ofJson tagList).typing
      { options := {}, baseName := "Main" } none).Yields [] typing [] := ⟨_, rfl⟩
  refine ⟨valid_tagList, typing, hrun, exists_admits_of_valid hrun ?_ ?_ ?_ valid_tagList⟩
  · exact ⟨by simp, fun _ _ _ _ => rfl⟩
  · simp [EnumNames.Interpreted]
  · simp

/-! What the conditions are for: `properties` alone tell the kind of a value, a brand keeps out what
is no object, and the values of an enum declaration are those of the environment. -/

/-- Without the conditions the types of a schema may leave out values that it describes. -/
theorem not_admits_of_valid :
    (∃ typing, ((ofJson
        (.object [("properties", .object [("a", .object [("type", .string "string")])])])).typing
        { options := {}, baseName := "Main" } none).Yields [] typing [] ∧
      Valid false (fun _ _ => True)
        (.object [("properties", .object [("a", .object [("type", .string "string")])])])
        (.number (.integer 5)) ∧
      ∀ type ∈ typing.types, ¬ TypeExpr.Admits (fun _ _ => True) type (.number (.integer 5))) ∧
    (∃ typing, ((ofJson (.object [("title", .string "Id"), ("type", .string "string")])).typing
        { options := { brands := .all }, baseName := "Main" } none).Yields [] typing [] ∧
      Valid true (fun _ _ => True) (.object [("title", .string "Id"), ("type", .string "string")])
        (.string "x") ∧
      ∀ type ∈ typing.types, ¬ TypeExpr.Admits (fun _ _ => True) type (.string "x")) ∧
    ∃ typing names, ((ofJson (.object [("enum", .array [.string "a", .string "b"])])).typing
        { options := { realEnums := true }, baseName := "Main" } none).Yields [] typing names ∧
      Valid true (fun _ _ => False) (.object [("enum", .array [.string "a", .string "b"])])
        (.string "a") ∧
      ∀ type ∈ typing.types, ¬ TypeExpr.Admits (fun _ _ => False) type (.string "a") := by
  refine ⟨⟨{ types := [.object [{ name := "a", type := .nonNullable .string, optional := true }]
      none] }, rfl, ?_, ?_⟩,
    ⟨{ types := [.intersection [.nonNullable .string,
        .object [{ name := "_type", type := .stringLiteral "Id", optional := true }] none]] },
      rfl, ?_, ?_⟩, ⟨_, _, rfl, ?_, ?_⟩⟩
  · refine .keywords (fun _ => .null) rfl ?_ ?_ ?_ ?_ ?_ ?_ ?_ ?_ (fun _ h => absurd h (by simp))
      (fun _ h => absurd h (by simp)) ?_ ?_ ?_ ?_ ?_ ?_ <;> simp
  · simp [TypeExpr.Admits]
  · refine .keywords (fun _ => .null) rfl ?_ ?_ ?_ ?_ ?_ ?_ ?_ ?_ (fun _ h => absurd h (by simp))
      (fun _ h => absurd h (by simp)) ?_ ?_ ?_ ?_ ?_ ?_ <;> simp
  · simp [TypeExpr.Admits, TypeExpr.AdmitsEvery]
  · refine .keywords (fun _ => .null) rfl ?_ ?_ ?_ ?_ ?_ ?_ ?_ ?_ (fun _ h => absurd h (by simp))
      (fun _ h => absurd h (by simp)) ?_ ?_ ?_ ?_ ?_ ?_ <;> simp [Json.Same]
  · simp [TypeExpr.Admits, Typing.ofType, Typing.withFragment]

end Samples

end Typewright.Schema
