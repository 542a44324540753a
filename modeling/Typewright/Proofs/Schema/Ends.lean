import Mathlib.Logic.Relation
import Typewright.Proofs.Run.Ends
import Typewright.Proofs.Schema.Guarded
import Typewright.Proofs.Schema.Raises
import Typewright.Proofs.Schema.Rules
import Typewright.Proofs.Text.Distinct

/-!
# How typings end

A schema is typed at its location, and the schemas directly inside it at the locations below that one
(`Schema.Below`).  If the typings of these end as said, then so does its own, but for what the schema
warns about or raises itself (`Schema.ends_typing_of_below`): one lemma for each step of a typing.  By
induction, each failure is raised by one of the schemas that the schema is made of, at the location
where that one stands (`Schema.exists_raises_of_fails`).
-/

namespace Typewright.Schema

variable {P : FragmentSet → Prop} {E : Failure → Prop}

/-! ### The steps of a typing -/

/-- A property of sets that only warnings can break. -/
structure WarningRules (P : FragmentSet → Prop) : Prop where
  silent : ∀ {set}, set.warnings = [] → P set
  parts : ∀ {typings}, (∀ typing ∈ typings, P typing.emitted) → P (emittedOf typings)

/-- The set of the typing has the property, or a failure is as said. -/
def EndsTyping (P : FragmentSet → Prop) (E : Failure → Prop) (run : Run Typing) : Prop :=
  run.Ends (fun typing => P typing.emitted) E

/-- The sets of all typings have the property, or a failure is as said. -/
def EndsTypings (P : FragmentSet → Prop) (E : Failure → Prop) (run : Run (List Typing)) : Prop :=
  run.Ends (fun typings => ∀ typing ∈ typings, P typing.emitted) E

/-- The sets of the typings under names have the property, or a failure is as said. -/
def EndsNamed (P : FragmentSet → Prop) (E : Failure → Prop) (run : Run (List NamedTyping)) : Prop :=
  run.Ends (fun named => ∀ each ∈ named, P each.typing.emitted) E

/-- Uniting the types of a typing emits nothing new. -/
theorem EndsTyping.united {run : Run Typing} (h : EndsTyping P E run) :
    EndsTyping P E (Typing.united <$> run) :=
  Run.ends_map h fun _ htyping => htyping

/-- A schema that no rule covers ends with a warning or a failure about its location. -/
theorem ends_unsupported {context : Context}
    (hwarning : P (FragmentSet.warn {} (.schemaDegraded context.location)))
    (hfailure : E (.unsupportedSchema context.location)) : EndsTyping P E context.unsupported := by
  unfold Context.unsupported
  split
  · exact Run.ends_throw hfailure
  · exact Run.ends_pure hwarning

/-- An `enum` that is no array ends with a warning or a failure about its location. -/
theorem ends_unsupportedEnum {context : Context}
    (hwarning : P (FragmentSet.warn {} (.enumDegraded context.location)))
    (hfailure : E (.unsupportedEnum context.location)) : EndsTyping P E context.unsupportedEnum := by
  unfold Context.unsupportedEnum
  split
  · exact Run.ends_throw hfailure
  · exact Run.ends_pure hwarning

/-- The typings of the schemas for items end as said. -/
structure EndsItems (P : FragmentSet → Prop) (E : Failure → Prop) (items : ItemTypings) : Prop where
  leading : ∀ run ∈ items.leading, EndsTypings P E run
  itemList : ∀ run ∈ items.itemList, EndsTypings P E run
  itemSchema : ∀ item ∈ items.itemSchema, EndsTyping P E item.typing
  additionalItems : ∀ item ∈ items.additionalItems, EndsTyping P E item.typing

/-- The typings of the branches of a schema end as said. -/
structure EndsBranches (P : FragmentSet → Prop) (E : Failure → Prop) (branches : BranchTypings) :
    Prop where
  anyOf : ∀ run ∈ branches.anyOf, EndsTypings P E run
  allOf : ∀ run ∈ branches.allOf, EndsTypings P E run
  oneOf : ∀ run ∈ branches.oneOf, EndsTypings P E run

theorem ends_restOf {item : Option ItemTyping} (h : ∀ each ∈ item, EndsTyping P E each.typing) :
    ∀ run ∈ restOf item, EndsTyping P E run := by
  intro run hrun
  obtain ⟨each, heach, rfl⟩ := Option.map_eq_some_iff.1 hrun
  exact h each (Option.filter_eq_some_iff.1 heach).1

namespace WarningRules

theorem pure (rules : WarningRules P) {typing : Typing} (h : warningsOf typing = []) :
    EndsTyping P E (Pure.pure typing) :=
  Run.ends_pure (rules.silent h)

/-- Declaring an enum neither fails nor raises a warning. -/
theorem ends_realEnumTyping (rules : WarningRules P) (context : Context) (facts : Facts)
    (values : List String) : EndsTyping P E (realEnumTyping context facts values) := by
  refine ⟨fun names typing names' hyields => ?_, fun {names failure} hfails => ?_⟩
  · obtain ⟨rfl, -⟩ := yields_realEnumTyping_iff.1 hyields
    exact rules.silent rfl
  · obtain ⟨names', hfails⟩ := hfails
    have hyields : (realEnumTyping context facts values).Yields names _ _ :=
      yields_realEnumTyping_iff.2 ⟨rfl, rfl⟩
    rw [hyields] at hfails
    simp at hfails

/-- Only an `enum` that is no array has to be answered for. -/
theorem ends_enumTyping (rules : WarningRules P) {context : Context} {facts : Facts} {values : Json}
    (h : values.isArray = false → P (FragmentSet.warn {} (.enumDegraded context.location)) ∧
      E (.unsupportedEnum context.location)) :
    EndsTyping P E (enumTyping context facts values) := by
  cases values with
  | array constants =>
    unfold enumTyping
    simp only
    split
    · exact rules.ends_realEnumTyping context facts _
    · exact rules.pure rfl
  | _ => exact ends_unsupportedEnum (h rfl).1 (h rfl).2

theorem ends_objectTyping (rules : WarningRules P) {facts : Facts}
    {properties patterns : Run (List NamedTyping)} (hproperties : EndsNamed P E properties)
    (hpatterns : EndsNamed P E patterns) :
    EndsTyping P E (objectTyping facts properties patterns) := by
  unfold objectTyping
  refine Run.ends_bind hproperties fun listed hlisted => ?_
  refine Run.ends_bind hpatterns fun others hothers => ?_
  refine Run.ends_pure (rules.parts fun typing htyping => ?_)
  obtain ⟨named, hnamed, rfl⟩ := List.mem_map.1 htyping
  exact (List.mem_append.1 hnamed).elim (hlisted named) (hothers named)

/-- A tuple ends as its elements and its rest do. -/
theorem ends_tupleTyping (rules : WarningRules P) {elements : Run (List Typing)}
    {rest : Option (Run Typing)} (helements : EndsTypings P E elements)
    (hrest : ∀ run ∈ rest, EndsTyping P E run) : EndsTyping P E (tupleTyping elements rest) := by
  unfold tupleTyping
  refine Run.ends_bind helements fun typings htypings => ?_
  cases rest with
  | some run =>
    refine Run.ends_bind (hrest run rfl) fun typing htyping => ?_
    exact Run.ends_pure (rules.parts
      (List.forall_mem_append.2 ⟨htypings, List.forall_mem_singleton.2 htyping⟩))
  | none => exact Run.ends_pure (rules.parts htypings)

theorem ends_uniformTyping (rules : WarningRules P) {context : Context} {facts : Facts}
    {item : Option (Run Typing)} (hitem : ∀ run ∈ item, EndsTyping P E run) :
    EndsTyping P E (uniformTyping context facts item) := by
  have hdefault : EndsTyping P E (item.getD (Pure.pure (Typing.ofType .unknown))) := by
    cases item with
    | some run => exact hitem run rfl
    | none => exact rules.pure rfl
  refine Run.ends_bind hdefault fun typing htyping => ?_
  exact Run.ends_pure (rules.parts (List.forall_mem_singleton.2 htyping))

theorem ends_arrayTyping (rules : WarningRules P) {context : Context} {facts : Facts}
    {items : ItemTypings} (h : EndsItems P E items) :
    EndsTyping P E (arrayTyping context facts items) := by
  unfold arrayTyping
  split
  · exact rules.pure rfl
  · split
    · next elements hleading =>
      refine rules.ends_tupleTyping (h.leading elements hleading) (ends_restOf fun each heach => ?_)
      rcases Option.or_eq_some_iff.1 heach with heach | ⟨-, heach⟩
      · exact h.itemSchema each heach
      · exact h.additionalItems each heach
    · next elements _ hlist =>
      exact rules.ends_tupleTyping (h.itemList elements hlist) (ends_restOf h.additionalItems)
    · refine rules.ends_uniformTyping fun run hrun => ?_
      obtain ⟨each, heach, rfl⟩ := Option.map_eq_some_iff.1 hrun
      exact h.itemSchema each heach

/-- A keyword without branches gives no typing, and that is the only way to give none. -/
theorem ends_combineBranches (rules : WarningRules P) {combine : List TypeExpr → TypeExpr}
    {branches : Option (Run (List Typing))} (h : ∀ run ∈ branches, EndsTypings P E run) :
    (combineBranches combine branches).Ends (fun combined =>
      (∀ typing ∈ combined.toList, P typing.emitted) ∧ (combined = none → branches = none)) E := by
  cases branches with
  | none => exact Run.ends_pure ⟨fun typing htyping => absurd htyping List.not_mem_nil, fun _ => rfl⟩
  | some run =>
    refine Run.ends_bind (h run rfl) fun typings htypings => Run.ends_pure ⟨?_, by simp⟩
    exact List.forall_mem_singleton.2 (rules.parts htypings)

/-- Only a schema without any branches fails itself. -/
theorem ends_composedTyping (rules : WarningRules P) {context : Context} {branches : BranchTypings}
    (h : EndsBranches P E branches)
    (hnone : branches.anyOf = none → branches.allOf = none → branches.oneOf = none →
      E (.composedSchemaUnsupported context.location)) :
    EndsTyping P E (composedTyping context branches) := by
  unfold composedTyping
  refine Run.ends_bind (rules.ends_combineBranches h.anyOf) fun anyOf hanyOf => ?_
  refine Run.ends_bind (rules.ends_combineBranches h.allOf) fun allOf hallOf => ?_
  refine Run.ends_bind (rules.ends_combineBranches h.oneOf) fun oneOf honeOf => ?_
  simp only
  split
  · next hempty =>
    -- Nothing to combine means that each of the three keywords is without branches.
    simp only [List.isEmpty_iff, List.append_eq_nil_iff, Option.toList_eq_nil_iff] at hempty
    exact Run.ends_throw
      (hnone (hanyOf.2 hempty.1.1) (hallOf.2 hempty.1.2) (honeOf.2 hempty.2))
  · exact Run.ends_pure (rules.parts
      (List.forall_mem_append.2 ⟨List.forall_mem_append.2 ⟨hanyOf.1, hallOf.1⟩, honeOf.1⟩))

/-- Only a name that no type has fails itself. -/
theorem ends_alternative (rules : WarningRules P) {context : Context} {nullable : Bool}
    {object array : Run Typing} (hobject : EndsTyping P E object) (harray : EndsTyping P E array)
    {name : String} (hnull : name ≠ "null")
    (hunknown : name ∉ typeWords → E (.badType name context.location)) :
    EndsTyping P E (alternative context nullable object array name) := by
  unfold alternative
  split
  · exact rules.pure rfl
  · exact rules.pure rfl
  · exact rules.pure rfl
  · exact rules.pure rfl
  · exact hobject.united
  · exact harray.united
  · refine Run.ends_throw (hunknown ?_)
    simp_all [typeWords]

/-- Beside what its parts raise, a schema with type names fails for an unknown name. -/
theorem ends_typedTyping (rules : WarningRules P) {context : Context} {facts : Facts}
    {names : List String} {object array : Run Typing} {branches : Json → BranchTypings}
    (hobject : EndsTyping P E object) (harray : EndsTyping P E array)
    (hunknown : ∀ name ∈ names, name ∉ typeWords → E (.badType name context.location))
    (hcomposed : facts.hasComposition = true →
      ∀ parent, EndsTyping P E (composedTyping context (branches parent))) :
    EndsTyping P E (typedTyping context facts names object array branches) := by
  have halternative : ∀ nullable, ∀ name ∈ Text.distinct (names.filter (· != "null")),
      EndsTyping P E (alternative context nullable object array name) := by
    intro nullable name hname
    rw [Text.mem_distinct_iff, List.mem_filter, bne_iff_ne] at hname
    exact rules.ends_alternative hobject harray hname.2 (hunknown name hname.1)
  unfold typedTyping
  refine Run.ends_bind (Run.ends_mapM (halternative _)) fun alternatives halternatives => ?_
  -- What is composed, if anything is, joins the alternatives in the end.
  have hjoin {composed : Option Typing} (hcomposed : ∀ typing ∈ composed.toList, P typing.emitted) :
      P (emittedOf (alternatives ++ composed.toList)) :=
    rules.parts (List.forall_mem_append.2 ⟨halternatives, hcomposed⟩)
  simp only
  split
  · exact rules.pure rfl
  · split
    · next hcomposition =>
      refine Run.ends_bind (P := fun composed => ∀ typing ∈ composed.toList, P typing.emitted) ?_
        fun composed hcomposed => Run.ends_pure (hjoin hcomposed)
      exact Run.ends_map (hcomposed hcomposition _) fun typing htyping =>
        List.forall_mem_singleton.2 htyping
    · exact Run.ends_pure (hjoin fun typing htyping => absurd htyping List.not_mem_nil)

end WarningRules

/-! ### The schemas below a location -/

/-- The first schema stands directly inside the second one, at the location below that of the second one
    to which the keyword leads. -/
inductive Below : Json × String → Json × String → Prop where
  | listed {inner schema : Json} {location keyword : String} {items : List Json} {index : Nat}
      (hkeyword : keyword ∈ listKeywords) (hitems : schema.items? keyword = some items)
      (hinner : items[index]? = some inner) :
      Below (inner, Pointer.child (Pointer.child location keyword) (toString index)) (schema, location)
  | single {inner schema : Json} {location keyword : String}
      (hkeyword : keyword ∈ ["items", "additionalItems"])
      (hinner : unlisted? schema keyword = some inner) :
      Below (inner, Pointer.child location keyword) (schema, location)
  | named {inner schema : Json} {location keyword name : String} {entries : List (String × Json)}
      (hkeyword : keyword ∈ ["properties", "patternProperties"])
      (hentries : schema.entries? keyword = some entries) (hinner : (name, inner) ∈ entries) :
      Below (inner, Pointer.child (Pointer.child location keyword) name) (schema, location)

/-- What lies below a schema with its location is a schema directly inside. -/
theorem Below.subschema {inner schema : Json × String} (h : Below inner schema) :
    Subschema inner.1 schema.1 := by
  cases h with
  | listed hkeyword hitems hinner => exact .listed hkeyword hitems (List.mem_of_getElem? hinner)
  | single hkeyword hinner => exact .single hkeyword hinner
  | named hkeyword hentries hinner => exact .named hkeyword hentries hinner

/-- The warnings that a value raises itself when it is typed at a location. -/
inductive Warns (location : String) (value : Json) : Warning → Prop where
  | uncovered (covered : Uncovered value) : Warns location value (.schemaDegraded location)
  | unlistedEnum (enum : HasUnlistedEnum value) : Warns location value (.enumDegraded location)

section Inner

variable {context : Context} {parent : Option Json} {value : Json} {fields : List (String × Json)}

/-- The schemas below this one end as said. -/
def InnerEnds (P : FragmentSet → Prop) (E : Failure → Prop) (value : Json) (location : String) : Prop :=
  ∀ inner (context : Context) (parent : Option Json),
    Below (inner, context.location) (value, location) →
      EndsTyping P E ((ofJson inner).typing context parent)

/-- Each item is typed at its own index. -/
theorem ends_itemTypings {items : List Json} {index : Nat}
    (h : ∀ offset item, items[offset]? = some item →
      EndsTyping P E ((ofJson item).typing (context.descend (toString (index + offset))) parent)) :
    EndsTypings P E (itemTypings context parent index (ofItems items)) := by
  induction items generalizing index with
  | nil =>
    rw [ofItems, itemTypings]
    exact Run.ends_pure fun typing htyping => absurd htyping List.not_mem_nil
  | cons item items ih =>
    rw [ofItems, itemTypings]
    refine Run.ends_bind (h 0 item rfl) fun first hfirst => ?_
    refine Run.ends_bind (ih fun offset inner hinner => ?_) fun others hothers => ?_
    · have := h (offset + 1) inner hinner
      rwa [Nat.add_comm offset, ← Nat.add_assoc] at this
    · exact Run.ends_pure (List.forall_mem_cons.2 ⟨hfirst, hothers⟩)

/-- Each field is typed at its own name. -/
theorem ends_fieldTypings {hinting : Bool}
    (h : ∀ field ∈ fields, ∀ inner : Context,
      inner.location = Pointer.child context.location field.1 →
        EndsTyping P E ((ofJson field.2).typing inner none)) :
    EndsNamed P E (fieldTypings context hinting (ofFields fields)) := by
  induction fields with
  | nil =>
    rw [ofFields, fieldTypings]
    exact Run.ends_pure fun typing htyping => absurd htyping List.not_mem_nil
  | cons field fields ih =>
    obtain ⟨name, value⟩ := field
    rw [ofFields, fieldTypings]
    refine Run.ends_bind (h (name, value) List.mem_cons_self _ ?_) fun first hfirst => ?_
    · cases hinting <;> rfl
    refine Run.ends_bind (ih fun field hfield => h field (List.mem_cons_of_mem _ hfield))
      fun others hothers => ?_
    exact Run.ends_pure (List.forall_mem_cons.2 ⟨hfirst, hothers⟩)

theorem ends_keywordTypings (h : InnerEnds P E value context.location) (parent : Option Json)
    {keyword : String} (hkeyword : keyword ∈ listKeywords) :
    ∀ run ∈ keywordTypings context parent value keyword, EndsTypings P E run := by
  intro run hrun
  obtain ⟨items, hitems, rfl⟩ := Option.map_eq_some_iff.1 hrun
  refine ends_itemTypings fun offset item hitem => h item _ parent ?_
  rw [Nat.zero_add]
  exact .listed hkeyword hitems hitem

theorem ends_keywordTyping (h : InnerEnds P E value context.location) {keyword : String}
    (hkeyword : keyword ∈ ["items", "additionalItems"]) :
    ∀ item ∈ keywordTyping context value keyword, EndsTyping P E item.typing := by
  intro item hitem
  obtain ⟨inner, hinner, rfl⟩ := Option.map_eq_some_iff.1 hitem
  exact h inner _ none (.single hkeyword hinner)

theorem ends_namedTypings (h : InnerEnds P E value context.location) (hinting : Bool) {keyword : String}
    (hkeyword : keyword ∈ ["properties", "patternProperties"]) :
    EndsNamed P E (namedTypings context hinting value keyword) := by
  refine ends_fieldTypings fun field hfield inner hlocation => ?_
  obtain ⟨entries, hentries, hfield⟩ := Json.exists_entries?_of_mem_getD hfield
  refine h field.2 inner none ?_
  rw [hlocation]
  exact .named hkeyword hentries hfield

theorem ends_branchTypings (h : InnerEnds P E value context.location) (parent : Option Json) :
    EndsBranches P E (branchTypings context value parent) :=
  ⟨ends_keywordTypings h parent (by decide), ends_keywordTypings h parent (by decide),
    ends_keywordTypings h parent (by decide)⟩

/-- A schema with composing keywords fails itself only if none of them holds an array. -/
theorem ends_composedTyping_branchTypings (rules : WarningRules P)
    (h : InnerEnds P E value context.location)
    (hraises : ∀ failure, Raises context.location parent value failure → E failure)
    (hcomposed : isComposed value = true) (handed : Option Json) :
    EndsTyping P E (composedTyping context (branchTypings context value handed)) := by
  refine rules.ends_composedTyping (ends_branchTypings h handed) fun hanyOf hallOf honeOf => ?_
  refine hraises _ (.branchless hcomposed fun keyword hkeyword => ?_)
  simp only [branchTypings, keywordTypings, Option.map_eq_none_iff] at hanyOf hallOf honeOf
  rcases List.mem_cons.1 hkeyword with rfl | hkeyword
  · exact hanyOf
  rcases List.mem_cons.1 hkeyword with rfl | hkeyword
  · exact hallOf
  · rwa [List.mem_singleton.1 hkeyword]

/-- Each shape ends as its parts do, or with what the schema itself may raise. -/
theorem ends_shapeTyping (rules : WarningRules P)
    (h : InnerEnds P E (.object fields) context.location)
    (hwarns : ∀ warning, Warns context.location (.object fields) warning → P (FragmentSet.warn {} warning))
    (hraises : ∀ failure, Raises context.location parent (.object fields) failure → E failure)
    {shape : Shape}
    (hshape : (Facts.ofJson (.object fields)).shape context.location parent = .ok shape) :
    EndsTyping P E (shapeTyping context (.object fields) shape) := by
  unfold shapeTyping
  cases shape with
  | null => exact rules.pure rfl
  | reference reference => exact rules.pure rfl
  | const value => exact rules.pure rfl
  | enum values =>
    refine rules.ends_enumTyping fun harray => ?_
    -- The shape says which keyword the enum was read from, which is what the failure is about.
    cases hasShape_of_shape hshape with
    | enum henum =>
      have hunlisted : HasUnlistedEnum (.object fields) := ⟨values, henum, harray⟩
      exact ⟨hwarns _ (.unlistedEnum hunlisted), hraises _ (.unlistedEnum hunlisted)⟩
  | typed names =>
    refine rules.ends_typedTyping ?_ ?_ (fun name hname hunknown => ?_) fun hcomposition handed => ?_
    · exact rules.ends_objectTyping (ends_namedTypings h true (by decide))
        (ends_namedTypings h false (by decide))
    · exact rules.ends_arrayTyping ⟨ends_keywordTypings h none (by decide),
        ends_keywordTypings h none (by decide), ends_keywordTyping h (by decide),
        ends_keywordTyping h (by decide)⟩
    · exact hraises _ (.unknownType hshape hname hunknown)
    · exact ends_composedTyping_branchTypings rules h hraises hcomposition (some handed)
  | composed =>
    cases hasShape_of_shape hshape with
    | composed _ hcomposition =>
      exact ends_composedTyping_branchTypings rules h hraises hcomposition none
  | unsupported =>
    have huncovered : Uncovered (.object fields) := .object (shape_none_of_unsupported hshape)
    exact ends_unsupported (hwarns _ (.uncovered huncovered)) (hraises _ (.uncovered huncovered))

/-- A typing ends like those of the schemas below it, but for what the schema warns about or raises
    itself. -/
theorem ends_typing_of_below (rules : WarningRules P) (h : InnerEnds P E value context.location)
    (hwarns : ∀ warning, Warns context.location value warning → P (FragmentSet.warn {} warning))
    (hraises : ∀ failure, Raises context.location parent value failure → E failure) :
    EndsTyping P E ((ofJson value).typing context parent) := by
  cases value with
  | bool allowed =>
    rw [ofJson]
    cases allowed <;> rw [typing] <;> exact rules.pure rfl
  | object fields =>
    rw [typing_object]
    split
    · next failure hshape =>
      -- Reading the shape fails for illegible type names only.
      obtain ⟨declared, hdeclared, hnames⟩ := exists_typeNames_of_shape hshape
      obtain rfl := failure_eq_of_typeNames hnames
      exact Run.ends_throw (hraises _ (.illegibleType hdeclared hnames))
    · next shape hshape => exact ends_shapeTyping rules h hwarns hraises hshape
  | _ =>
    rw [ofJson_eq_malformed (by simp [Json.kind]) (by simp [Json.kind]), typing]
    refine ends_unsupported (hwarns _ (.uncovered (.malformed ?_ ?_)))
      (hraises _ (.uncovered (.malformed ?_ ?_))) <;> simp [Json.kind]

end Inner

/-! ### Failures -/

/-- A failure is raised by one of the schemas that the schema is made of, where that one stands. -/
theorem exists_raises_of_fails {value : Json} {context : Context} {parent : Option Json}
    {names : EnumNames} {failure : Failure}
    (h : ((ofJson value).typing context parent).Fails names failure) :
    ∃ inner location parent',
      Relation.ReflTransGen Below (inner, location) (value, context.location) ∧
        Raises location parent' inner failure := by
  induction value using Json.inside_induction generalizing context parent names failure with
  | _ value ih =>
    have hends : EndsTyping (fun _ => True) (fun failure => ∃ inner location parent',
        Relation.ReflTransGen Below (inner, location) (value, context.location) ∧
          Raises location parent' inner failure) ((ofJson value).typing context parent) := by
      refine ends_typing_of_below ⟨fun _ => trivial, fun _ => trivial⟩ ?_ (fun _ _ => trivial)
        fun failure hraises => ⟨value, _, parent, .refl, hraises⟩
      intro inner context' parent' hbelow
      -- By induction a failure of the inner schema is raised there or below.
      refine ⟨Run.gives_true _, fun hfails => ?_⟩
      obtain ⟨origin, location, originParent, hreach, hraises⟩ := ih inner hbelow.subschema.inside hfails
      exact ⟨origin, location, originParent, hreach.tail hbelow, hraises⟩
    exact hends.fails h

end Typewright.Schema
