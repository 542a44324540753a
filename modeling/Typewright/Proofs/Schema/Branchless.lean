import Typewright.Proofs.Schema.Ends

/-!
# Schemas without branches

A schema is composed if one of the composing keywords is there, whatever it holds, and what it is
composed of are the branches in those that hold arrays.  So a typing fails for want of branches only
where one of the schemas that the schema is made of has composing keywords and no branches
(`Schema.Branchless`), and such a schema denotes no types wherever its branches are asked for
(`Schema.composedSchemaUnsupported_branchless`).
-/

namespace Typewright.Schema

variable {context : Context} {parent : Option Json} {value : Json} {names : EnumNames}

/-- Composing keywords, none of which holds an array. -/
structure Branchless (value : Json) : Prop where
  composed : isComposed value = true
  unlisted : ∀ keyword ∈ compositionKeywords, value.items? keyword = none

instance (value : Json) : Decidable (Branchless value) :=
  decidable_of_iff (isComposed value = true ∧ ∀ keyword ∈ compositionKeywords, value.items? keyword = none)
    ⟨fun h => ⟨h.1, h.2⟩, fun h => ⟨h.composed, h.unlisted⟩⟩

theorem Branchless.exists_fields (h : Branchless value) : ∃ fields, value = .object fields := by
  obtain ⟨keyword, -, hkeyword⟩ := List.any_eq_true.1 h.composed
  cases value with
  | object fields => exact ⟨fields, rfl⟩
  | _ => exact absurd hkeyword Bool.false_ne_true

/-- The alternative of one of the types that a schema names. -/
def alternativeOf (context : Context) (value : Json) (types : List String) (type : String) :
    Run Typing :=
  alternative context (types.contains "null" || (Facts.ofJson value).nullable)
    (objectTypingOf context value) (arrayTypingOf context value) type

/-! ### Composition without branches -/

theorem fails_composedTyping (context : Context) (h : Branchless value) (handed : Option Json)
    (names : EnumNames) : (composedTyping context (branchTypings context value handed)).Fails names
      (.composedSchemaUnsupported context.location) := by
  have hkeyword : ∀ keyword ∈ compositionKeywords, keywordTypings context handed value keyword = none :=
    fun keyword hkeyword => Option.map_eq_none_iff.2 (h.unlisted keyword hkeyword)
  unfold composedTyping branchTypings
  simp only [hkeyword "anyOf" (by decide), hkeyword "allOf" (by decide), hkeyword "oneOf" (by decide)]
  exact ⟨names, rfl⟩

/-- A schema with types and no branches fails for want of these, unless an alternative fails first. -/
theorem fails_typedTyping (h : Branchless value) {types : List String}
    (htypes : ∃ type ∈ types, type ≠ "null") (names : EnumNames) :
    let run := shapeTyping context value (.typed types)
    run.Fails names (.composedSchemaUnsupported context.location) ∨
      ∃ type ∈ types, ∃ names' failure,
        (alternativeOf context value types type).Fails names' failure ∧ run.Fails names failure := by
  intro run
  have hrun : run = typedTyping context (Facts.ofJson value) types (objectTypingOf context value)
    (arrayTypingOf context value) fun parent => branchTypings context value (some parent) := rfl
  set others := Text.distinct (types.filter (· != "null")) with hothers
  -- The alternatives are typed first, whatever the branches are.
  rcases Run.yields_or_fails (others.mapM (alternativeOf context value types)) names with
    ⟨alternatives, names', hyields⟩ | ⟨failure, hfails⟩
  · left
    have hnonempty : others ≠ [] := by
      obtain ⟨type, htype, hnull⟩ := htypes
      exact List.ne_nil_of_mem (Text.mem_distinct_iff.2 (List.mem_filter.2 ⟨htype, bne_iff_ne.2 hnull⟩))
    have hempty : alternatives.isEmpty = false := by
      have hlength := Run.gives_length_mapM _ _ _ _ _ hyields
      rw [List.isEmpty_eq_false_iff, ← List.length_pos_iff, hlength]
      exact List.length_pos_iff.2 hnonempty
    obtain ⟨names'', hcomposed⟩ := fails_composedTyping context h
      (some ((Facts.ofJson value).type.getD (.string "object"))) names'
    refine ⟨names'', ?_⟩
    rw [hrun, typedTyping]
    simp only
    refine (Run.outcome_bind_of_yields hyields _).trans ?_
    -- There is an alternative, and a composing keyword: so the branches are asked for.
    have hcomposition : (Facts.ofJson value).hasComposition = true := h.composed
    simp only [hempty, hcomposition, Bool.false_eq_true, if_false, if_true]
    refine Run.outcome_bind_of_error ?_ _
    rw [map_eq_pure_bind]
    exact Run.outcome_bind_of_error hcomposed _
  · right
    obtain ⟨type, htype, names', halternative⟩ := Run.exists_fails_of_mapM hfails
    rw [hothers, Text.mem_distinct_iff, List.mem_filter] at htype
    exact ⟨type, htype.1, names', failure, halternative, hfails.bind _⟩

/-! ### Typings without branches -/

/-- A typing fails for want of branches only where a schema without branches stands, be it the schema
    itself or one that it is made of.  Such a schema denotes no types where it is composed only, and where
    it has types other than null: then it fails for want of branches, unless an alternative fails
    first. -/
theorem composedSchemaUnsupported_branchless (value : Json) (context : Context) (parent : Option Json) :
    let run := (ofJson value).typing context parent
    (∀ names location, run.Fails names (.composedSchemaUnsupported location) →
      ∃ inner, Relation.ReflTransGen Below (inner, location) (value, context.location) ∧
        Branchless inner) ∧
    (Branchless value →
      let shape := (Facts.ofJson value).shape context.location parent
      (shape = .ok .composed →
        ∀ names, run.Fails names (.composedSchemaUnsupported context.location)) ∧
      ∀ types, shape = .ok (.typed types) → (∃ type ∈ types, type ≠ "null") →
        ∀ names, run.Fails names (.composedSchemaUnsupported context.location) ∨
          ∃ type ∈ types, ∃ names' failure,
            (alternativeOf context value types type).Fails names' failure ∧
              run.Fails names failure) := by
  intro run
  refine ⟨fun names location hfails => ?_, fun hbranchless => ?_⟩
  · obtain ⟨inner, location', parent', hreach, hraises⟩ := exists_raises_of_fails hfails
    cases hraises with
    | branchless composed unlisted => exact ⟨inner, hreach, composed, unlisted⟩
  · intro shape
    obtain ⟨fields, rfl⟩ := hbranchless.exists_fields
    -- From here on the shape alone says which typing is run.
    have hrun (each : Shape) (hshape : shape = .ok each) :
        run = shapeTyping context (.object fields) each := by
      change (ofJson (.object fields)).typing context parent = _
      rw [typing_object, show (Facts.ofJson (.object fields)).shape context.location parent = .ok each
        from hshape]
    refine ⟨fun hshape names => ?_, fun types hshape htypes names => ?_⟩
    · rw [hrun .composed hshape]
      exact fails_composedTyping context hbranchless none names
    · rw [hrun (.typed types) hshape]
      exact fails_typedTyping hbranchless htypes names

/-- A schema for strings with a composing keyword that holds no array. -/
def strayAnyOf : Json :=
  .object [("type", .string "string"), ("anyOf", .object [])]

/-- The schema without branches is the one that fails. -/
theorem composedSchemaUnsupported_strayAnyOf :
    let run := (ofJson strayAnyOf).typing { options := {}, baseName := "Main" } none
    run.Fails [] (.composedSchemaUnsupported "#") ∧
      ∃ inner, Relation.ReflTransGen Below (inner, "#") (strayAnyOf, "#") ∧ Branchless inner := by
  intro run
  obtain ⟨hreach, hconverse⟩ :=
    composedSchemaUnsupported_branchless strayAnyOf { options := {}, baseName := "Main" } none
  have hfails : run.Fails [] (.composedSchemaUnsupported "#") := by
    rcases (hconverse (by decide)).2 ["string"] rfl ⟨"string", by decide, by decide⟩ [] with
      hfails | ⟨type, htype, names', failure, ⟨names'', halternative⟩, -⟩
    · exact hfails
    · rw [List.mem_singleton.1 htype] at halternative
      exact absurd halternative (by simp [alternativeOf, alternative])
  exact ⟨hfails, hreach [] "#" hfails⟩

/-- A keyword that is there and holds no branches is enough to fail for want of branches. -/
theorem exists_fails_composedSchemaUnsupported :
    ((ofJson strayAnyOf).typing { options := {}, baseName := "Main" } none).Fails []
      (.composedSchemaUnsupported "#") :=
  ⟨[], rfl⟩

end Typewright.Schema
