import Typewright.Proofs.Run.Guarded
import Typewright.Proofs.Schema.Reading

/-!
# Strict and lenient typings

Typing a schema strictly fails with the first forbidden warning that the lenient typing raises
(`Schema.guarded_typing`).  The warnings of a typing are those of the typings it is made of, in the
order in which these are made.
-/

namespace Typewright

namespace Context

/-- The context with lenient options. -/
def lenient (context : Context) : Context :=
  { context with options := context.options.lenient }

@[simp] theorem lenient_location (context : Context) :
    context.lenient.location = context.location := rfl

end Context

@[simp] theorem FragmentSet.warnings_push (set : FragmentSet) (fragment : Fragment) :
    (set.push fragment).warnings = set.warnings := rfl

@[simp] theorem FragmentSet.warnings_extend (set other : FragmentSet) :
    (set.extend other).warnings = set.warnings ++ other.warnings := rfl

namespace Schema

variable {options : Options}

/-- The warnings that came up with a typing. -/
def warningsOf (typing : Typing) : List Warning :=
  typing.emitted.warnings

/-- What typings emit together holds the warnings of all of them, in their order. -/
theorem warnings_emittedOf (typings : List Typing) :
    (emittedOf typings).warnings = typings.flatMap warningsOf := by
  have hfold (set : FragmentSet) :
      (typings.foldl (fun set typing => set.extend typing.emitted) set).warnings =
        set.warnings ++ typings.flatMap warningsOf := by
    induction typings generalizing set with
    | nil => simp
    | cons typing rest ih =>
      rw [List.foldl_cons, ih, FragmentSet.warnings_extend, List.flatMap_cons, List.append_assoc]
      rfl
  exact hfold {}

/-- A typing comes with its own warnings. -/
def GuardedTyping (options : Options) (strict lenient : Run Typing) : Prop :=
  Run.Guarded options strict lenient fun typing raised => warningsOf typing = raised

/-- Several typings come with their warnings in order. -/
def GuardedTypings (options : Options) (strict lenient : Run (List Typing)) : Prop :=
  Run.Guarded options strict lenient fun typings raised => typings.flatMap warningsOf = raised

/-- Typings under names come with their warnings in order. -/
def GuardedNamed (options : Options) (strict lenient : Run (List NamedTyping)) : Prop :=
  Run.Guarded options strict lenient fun named raised =>
    named.flatMap (warningsOf ·.typing) = raised

/-- A typing without a warning may be given at once. -/
theorem guardedTyping_pure {typing : Typing} (h : warningsOf typing = []) :
    GuardedTyping options (pure typing) (pure typing) :=
  Run.guarded_pure h

/-- Uniting the types of a typing keeps its warnings. -/
theorem GuardedTyping.united {strict lenient : Run Typing} (h : GuardedTyping options strict lenient) :
    GuardedTyping options (Typing.united <$> strict) (Typing.united <$> lenient) :=
  Run.guarded_map h fun _ _ hraised => hraised

/-! ### What no rule covers -/

/-- A schema that no rule covers is the one place where `strict` forbids a degraded schema. -/
theorem guarded_unsupported (context : Context) :
    GuardedTyping context.options context.unsupported context.lenient.unsupported :=
  Run.guarded_warning rfl rfl

/-- An `enum` that is no array is the one place where `strict` forbids a degraded enum. -/
theorem guarded_unsupportedEnum (context : Context) :
    GuardedTyping context.options context.unsupportedEnum context.lenient.unsupportedEnum :=
  Run.guarded_warning rfl rfl

/-- Declaring an enum depends on no option and raises no warning. -/
theorem guarded_realEnumTyping (context : Context) (facts : Facts) (values : List String) :
    GuardedTyping context.options (realEnumTyping context facts values)
      (realEnumTyping context.lenient facts values) := by
  refine ⟨fun hyields => ⟨[], ?_, hyields⟩, fun hfails => ⟨_, hfails⟩⟩
  -- The claimed name is read off the names and the values, and nothing that is emitted is a
  -- warning.
  obtain ⟨rfl, -⟩ := yields_realEnumTyping_iff.1 hyields
  rfl

/-- Whether enums are declared does not depend on what the options forbid. -/
theorem guarded_enumTyping (context : Context) (facts : Facts) (values : Json) :
    GuardedTyping context.options (enumTyping context facts values)
      (enumTyping context.lenient facts values) := by
  cases values with
  | array constants =>
    unfold enumTyping
    have hreal : context.lenient.options.realEnums = context.options.realEnums := rfl
    simp only [hreal]
    split
    · exact guarded_realEnumTyping context facts _
    · exact guardedTyping_pure rfl
  | _ => exact guarded_unsupportedEnum context

/-! ### Objects -/

/-- An object raises the warnings of its properties and then those of its patterns. -/
theorem guarded_objectTyping {facts : Facts} {properties patterns : Run (List NamedTyping)}
    {properties' patterns' : Run (List NamedTyping)}
    (hproperties : GuardedNamed options properties properties')
    (hpatterns : GuardedNamed options patterns patterns') :
    GuardedTyping options (objectTyping facts properties patterns)
      (objectTyping facts properties' patterns') := by
  unfold objectTyping
  refine Run.guarded_bind hproperties fun listed raised hraised => ?_
  refine Run.guarded_bind hpatterns fun others more hmore => ?_
  refine Run.guarded_pure ?_
  rw [warningsOf, warnings_emittedOf, List.append_nil, List.flatMap_map, List.flatMap_append, hraised,
    hmore]

/-! ### Arrays -/

/-- The runs of a typing that may be missing: both are missing, or both are there. -/
abbrev GuardedOption (options : Options) (strict lenient : Option (Run (List Typing))) : Prop :=
  Option.Rel (GuardedTypings options) strict lenient

/-- The typings of a schema for items: both are closed, or none is. -/
structure GuardedItem (options : Options) (strict lenient : ItemTyping) : Prop where
  closed : strict.closed = lenient.closed
  typing : GuardedTyping options strict.typing lenient.typing

/-- The typings of the schemas for items. -/
structure GuardedItems (options : Options) (strict lenient : ItemTypings) : Prop where
  leading : GuardedOption options strict.leading lenient.leading
  itemList : GuardedOption options strict.itemList lenient.itemList
  itemSchema : Option.Rel (GuardedItem options) strict.itemSchema lenient.itemSchema
  additionalItems : Option.Rel (GuardedItem options) strict.additionalItems lenient.additionalItems

/-- A tuple raises the warnings of its elements and then those of its rest. -/
theorem guarded_tupleTyping {elements elements' : Run (List Typing)} {rest rest' : Option (Run Typing)}
    (helements : GuardedTypings options elements elements')
    (hrest : Option.Rel (GuardedTyping options) rest rest') :
    GuardedTyping options (tupleTyping elements rest) (tupleTyping elements' rest') := by
  unfold tupleTyping
  refine Run.guarded_bind helements fun typings raised hraised => ?_
  cases hrest with
  | some hrest =>
    refine Run.guarded_bind hrest fun typing more hmore => ?_
    refine Run.guarded_pure ?_
    rw [warningsOf, warnings_emittedOf, List.flatMap_append, hraised, List.flatMap_singleton, hmore,
      List.append_nil]
  | none =>
    refine Run.guarded_pure ?_
    rw [warningsOf, warnings_emittedOf, hraised, List.append_nil]

/-- An array of one type raises the warnings of that type, however often its type is repeated. -/
theorem guarded_uniformTyping (context : Context) {facts : Facts} {item item' : Option (Run Typing)}
    (hitem : Option.Rel (GuardedTyping context.options) item item') :
    GuardedTyping context.options (uniformTyping context facts item)
      (uniformTyping context.lenient facts item') := by
  have hdefault : GuardedTyping context.options (item.getD (pure (Typing.ofType .unknown)))
      (item'.getD (pure (Typing.ofType .unknown))) := by
    cases hitem with
    | some hitem => exact hitem
    | none => exact guardedTyping_pure rfl
  refine Run.guarded_bind hdefault fun typing raised hraised => ?_
  refine Run.guarded_pure ?_
  rw [warningsOf, warnings_emittedOf, List.flatMap_singleton, hraised, List.append_nil]

/-- The rest of a tuple is missing in both typings or in none, as both schemas are closed or none
    is. -/
theorem guarded_restOf {item item' : Option ItemTyping}
    (h : Option.Rel (GuardedItem options) item item') :
    Option.Rel (GuardedTyping options) (restOf item) (restOf item') := by
  cases h with
  | none => exact .none
  | @some strict lenient h =>
    unfold restOf
    -- A closed rest is left out, so the two have to be closed together.
    rw [Option.filter_some, Option.filter_some, h.closed]
    split
    · exact .some h.typing
    · exact .none

/-- The first schema for items counts in both typings, or the second one in both. -/
theorem guarded_or {item item' other other' : Option ItemTyping}
    (h : Option.Rel (GuardedItem options) item item')
    (hother : Option.Rel (GuardedItem options) other other') :
    Option.Rel (GuardedItem options) (item.or other) (item'.or other') := by
  cases h with
  | some h => exact .some h
  | none => exact hother

/-- Which of its schemas an array is typed by does not depend on the options. -/
theorem guarded_arrayTyping (context : Context) {facts : Facts} {items items' : ItemTypings}
    (h : GuardedItems context.options items items') :
    GuardedTyping context.options (arrayTyping context facts items)
      (arrayTyping context.lenient facts items') := by
  obtain ⟨leading, itemList, itemSchema, additional⟩ := items
  obtain ⟨leading', itemList', itemSchema', additional'⟩ := items'
  obtain ⟨hleading, hlist, hitem, hadditional⟩ := h
  unfold arrayTyping
  split
  · exact guardedTyping_pure rfl
  -- Both runs look for items in the same order: leading ones, a list, one schema.
  · cases hleading with
    | some hleading => exact guarded_tupleTyping hleading (guarded_restOf (guarded_or hitem hadditional))
    | none =>
      cases hlist with
      | some hlist => exact guarded_tupleTyping hlist (guarded_restOf hadditional)
      | none =>
        refine guarded_uniformTyping context ?_
        cases hitem with
        | some hitem => exact .some hitem.typing
        | none => exact .none

/-! ### Branches and types -/

/-- The typings of the branches of a schema. -/
structure GuardedBranches (options : Options) (strict lenient : BranchTypings) : Prop where
  anyOf : GuardedOption options strict.anyOf lenient.anyOf
  allOf : GuardedOption options strict.allOf lenient.allOf
  oneOf : GuardedOption options strict.oneOf lenient.oneOf

/-- The branches of one keyword raise their warnings in their order. -/
theorem guarded_combineBranches {combine : List TypeExpr → TypeExpr}
    {branches branches' : Option (Run (List Typing))} (h : GuardedOption options branches branches') :
    Run.Guarded options (combineBranches combine branches) (combineBranches combine branches')
      fun combined raised => combined.toList.flatMap warningsOf = raised := by
  cases h with
  | none => exact Run.guarded_pure rfl
  | some h =>
    refine Run.guarded_bind h fun typings raised hraised => Run.guarded_pure ?_
    rw [Option.toList_some, List.flatMap_singleton, warningsOf, warnings_emittedOf, hraised,
      List.append_nil]

/-- A composed schema raises the warnings of `anyOf`, then of `allOf`, then of `oneOf`. -/
theorem guarded_composedTyping (context : Context) {branches branches' : BranchTypings}
    (h : GuardedBranches context.options branches branches') :
    GuardedTyping context.options (composedTyping context branches)
      (composedTyping context.lenient branches') := by
  unfold composedTyping
  refine Run.guarded_bind (guarded_combineBranches h.anyOf) fun anyOf raised₁ hraised₁ => ?_
  refine Run.guarded_bind (guarded_combineBranches h.allOf) fun allOf raised₂ hraised₂ => ?_
  refine Run.guarded_bind (guarded_combineBranches h.oneOf) fun oneOf raised₃ hraised₃ => ?_
  simp only
  split
  · exact Run.guarded_throw
  · refine Run.guarded_pure ?_
    rw [warningsOf, warnings_emittedOf, List.flatMap_append, List.flatMap_append, hraised₁, hraised₂,
      hraised₃, List.append_nil, List.append_assoc]

/-- An alternative raises what the object or the array raises; the other names raise nothing or
    fail. -/
theorem guarded_alternative (context : Context) {nullable : Bool}
    {object array object' array' : Run Typing} (hobject : GuardedTyping options object object')
    (harray : GuardedTyping options array array') (name : String) :
    GuardedTyping options (alternative context nullable object array name)
      (alternative context.lenient nullable object' array' name) := by
  unfold alternative
  split
  · exact guardedTyping_pure rfl
  · exact guardedTyping_pure rfl
  · exact guardedTyping_pure rfl
  · exact guardedTyping_pure rfl
  · exact hobject.united
  · exact harray.united
  · exact Run.guarded_throw

/-- A schema with type names raises the warnings of its alternatives and then those of its
    branches. -/
theorem guarded_typedTyping (context : Context) {facts : Facts} {names : List String}
    {object array object' array' : Run Typing} {branches branches' : Json → BranchTypings}
    (hobject : GuardedTyping context.options object object')
    (harray : GuardedTyping context.options array array')
    (hbranches : ∀ parent, GuardedBranches context.options (branches parent) (branches' parent)) :
    GuardedTyping context.options (typedTyping context facts names object array branches)
      (typedTyping context.lenient facts names object' array' branches') := by
  have hbrand : brandType? context.lenient facts = brandType? context facts := rfl
  unfold typedTyping
  refine Run.guarded_bind (Run.guarded_mapM warningsOf fun name _ =>
    guarded_alternative context hobject harray name) fun alternatives raised hraised => ?_
  simp only [hbrand]
  split
  -- No alternative is left besides `null`, so nothing was raised.
  · next hempty =>
    rw [List.isEmpty_iff.1 hempty, List.flatMap_nil] at hraised
    exact Run.guarded_pure (by rw [← hraised]; rfl)
  · split
    · refine Run.guarded_bind (Run.guarded_map (Q := fun composed raised =>
        composed.toList.flatMap warningsOf = raised) (guarded_composedTyping context (hbranches _))
        fun typing more hmore => ?_) fun composed more hmore => ?_
      · rw [Option.toList_some, List.flatMap_singleton, hmore]
      · refine Run.guarded_pure ?_
        rw [warningsOf, warnings_emittedOf, List.flatMap_append, hraised, hmore, List.append_nil]
    · refine Run.guarded_bind (Run.guarded_pure (P := fun composed raised =>
        composed = none ∧ raised = []) ⟨rfl, rfl⟩) fun composed more hmore => ?_
      obtain ⟨rfl, rfl⟩ := hmore
      refine Run.guarded_pure ?_
      rw [warningsOf, warnings_emittedOf, Option.toList_none, List.append_nil, hraised,
        List.append_nil, List.append_nil]

/-! ### Schemas -/

section Inner

variable {context : Context} {fields : List (String × Json)}

/-- The schemas inside this one are typed strictly as they are leniently. -/
def InnerGuarded (options : Options) (value : Json) : Prop :=
  ∀ inner, inner.Inside value → ∀ context : Context, context.options = options → ∀ parent,
    GuardedTyping options ((ofJson inner).typing context parent)
      ((ofJson inner).typing context.lenient parent)

/-- The schemas of a list raise their warnings one after the other. -/
theorem guarded_itemTypings (context : Context) {items : List Json} {parent : Option Json}
    (h : ∀ item ∈ items, ∀ location, GuardedTyping context.options
      ((ofJson item).typing (context.descend location) parent)
      ((ofJson item).typing (context.descend location).lenient parent)) (index : Nat) :
    GuardedTypings context.options (itemTypings context parent index (ofItems items))
      (itemTypings context.lenient parent index (ofItems items)) := by
  induction items generalizing index with
  | nil =>
    rw [ofItems, itemTypings, itemTypings]
    exact Run.guarded_pure rfl
  | cons item items ih =>
    rw [ofItems, itemTypings, itemTypings]
    refine Run.guarded_bind (h item List.mem_cons_self _) fun first raised hraised => ?_
    refine Run.guarded_bind (ih (fun item hitem => h item (List.mem_cons_of_mem _ hitem)) _)
      fun others more hmore => ?_
    refine Run.guarded_pure ?_
    rw [List.flatMap_cons, hraised, hmore, List.append_nil]

/-- The schemas of an object raise their warnings one after the other, hinted at by their names
    or not. -/
theorem guarded_fieldTypings (context : Context) {hinting : Bool}
    (h : ∀ field ∈ fields, ∀ context' : Context,
      context'.options = context.options → GuardedTyping context.options
        ((ofJson field.2).typing context' none) ((ofJson field.2).typing context'.lenient none)) :
    GuardedNamed context.options (fieldTypings context hinting (ofFields fields))
      (fieldTypings context.lenient hinting (ofFields fields)) := by
  induction fields with
  | nil =>
    rw [ofFields, fieldTypings, fieldTypings]
    exact Run.guarded_pure rfl
  | cons field fields ih =>
    obtain ⟨name, value⟩ := field
    rw [ofFields, fieldTypings, fieldTypings]
    have hfirst := h (name, value) List.mem_cons_self
      (if hinting then (context.descend name).named name else context.descend name)
      (by cases hinting <;> rfl)
    -- The context of a field is made lenient before or after going down to it, with the same
    -- result.
    have hlenient : (if hinting then (context.lenient.descend name).named name
        else context.lenient.descend name) =
        (if hinting then (context.descend name).named name else context.descend name).lenient := by
      cases hinting <;> rfl
    simp only [hlenient]
    refine Run.guarded_bind hfirst fun first raised hraised => ?_
    refine Run.guarded_bind (ih fun field hfield => h field (List.mem_cons_of_mem _ hfield))
      fun others more hmore => ?_
    refine Run.guarded_pure ?_
    rw [List.flatMap_cons, hraised, hmore, List.append_nil]

/-- The schemas under a keyword lie inside the schema that has it. -/
theorem guarded_keywordTypings (h : InnerGuarded context.options (.object fields))
    (parent : Option Json) (keyword : String) :
    GuardedOption context.options (keywordTypings context parent (.object fields) keyword)
      (keywordTypings context.lenient parent (.object fields) keyword) := by
  unfold keywordTypings
  cases hitems : (Json.object fields).items? keyword with
  | none => exact .none
  | some items =>
    refine .some ?_
    rw [← Context.options_descend context keyword] at h ⊢
    refine guarded_itemTypings (context.descend keyword) (fun item hitem location => ?_) 0
    exact h item (Json.inside_of_mem_items? hitems hitem) _ (Context.options_descend _ _) parent

/-- A keyword that holds one schema holds it in both typings. -/
theorem guarded_keywordTyping (h : InnerGuarded context.options (.object fields)) (keyword : String) :
    Option.Rel (GuardedItem context.options) (keywordTyping context (.object fields) keyword)
      (keywordTyping context.lenient (.object fields) keyword) := by
  unfold keywordTyping
  cases hunlisted : unlisted? (.object fields) keyword with
  | none => exact .none
  | some inner =>
    have hinside := Json.inside_of_field? (field?_of_unlisted? hunlisted)
    exact .some ⟨rfl, h inner hinside _ (Context.options_descend _ _) none⟩

/-- The named schemas under a keyword lie inside the schema that has it. -/
theorem guarded_namedTypings (h : InnerGuarded context.options (.object fields)) (hinting : Bool)
    (keyword : String) :
    GuardedNamed context.options (namedTypings context hinting (.object fields) keyword)
      (namedTypings context.lenient hinting (.object fields) keyword) := by
  unfold namedTypings
  rw [← Context.options_descend context keyword] at h ⊢
  refine guarded_fieldTypings (context.descend keyword) fun field hfield context' hoptions => ?_
  cases hentries : (Json.object fields).entries? keyword with
  | none => simp [hentries] at hfield
  | some entries =>
    rw [hentries] at hfield
    exact h field.2 (Json.inside_of_mem_entries? hentries hfield) context' hoptions none

theorem guarded_branchTypings (h : InnerGuarded context.options (.object fields))
    (parent : Option Json) :
    GuardedBranches context.options (branchTypings context (.object fields) parent)
      (branchTypings context.lenient (.object fields) parent) :=
  ⟨guarded_keywordTypings h parent "anyOf", guarded_keywordTypings h parent "allOf",
    guarded_keywordTypings h parent "oneOf"⟩

theorem guarded_objectTypingOf (h : InnerGuarded context.options (.object fields)) :
    GuardedTyping context.options (objectTypingOf context (.object fields))
      (objectTypingOf context.lenient (.object fields)) :=
  guarded_objectTyping (guarded_namedTypings h true "properties")
    (guarded_namedTypings h false "patternProperties")

theorem guarded_arrayTypingOf (h : InnerGuarded context.options (.object fields)) :
    GuardedTyping context.options (arrayTypingOf context (.object fields))
      (arrayTypingOf context.lenient (.object fields)) :=
  guarded_arrayTyping context ⟨guarded_keywordTypings h none "prefixItems",
    guarded_keywordTypings h none "items", guarded_keywordTyping h "items",
    guarded_keywordTyping h "additionalItems"⟩

/-- One case for each shape; which shape a schema has depends on no option. -/
theorem guarded_shapeTyping (h : InnerGuarded context.options (.object fields)) (shape : Shape) :
    GuardedTyping context.options (shapeTyping context (.object fields) shape)
      (shapeTyping context.lenient (.object fields) shape) := by
  unfold shapeTyping
  cases shape with
  | null => exact guardedTyping_pure rfl
  | reference reference => exact guardedTyping_pure rfl
  | const value => exact guardedTyping_pure rfl
  | enum values => exact guarded_enumTyping context _ values
  | typed names =>
    exact guarded_typedTyping context (guarded_objectTypingOf h) (guarded_arrayTypingOf h)
      fun parent => guarded_branchTypings h (some parent)
  | composed => exact guarded_composedTyping context (guarded_branchTypings h none)
  | unsupported => exact guarded_unsupported context

end Inner

/-- Typing a schema strictly is typing it leniently, up to the first forbidden warning. -/
theorem guarded_typing (schema : Json) (context : Context) (parent : Option Json) :
    GuardedTyping context.options ((ofJson schema).typing context parent)
      ((ofJson schema).typing context.lenient parent) := by
  induction schema using Json.inside_induction generalizing context parent with
  | _ schema ih =>
    cases schema with
    | bool allowed =>
      rw [ofJson]
      cases allowed <;> rw [typing, typing] <;> exact guardedTyping_pure rfl
    | object fields =>
      rw [typing_object, typing_object, Context.lenient_location]
      split
      · exact Run.guarded_throw
      · next shape _ =>
        -- The schemas inside are typed at other locations, under the same options.
        refine guarded_shapeTyping (fun inner hinside context' hoptions parent' => ?_) shape
        rw [← hoptions]
        exact ih inner hinside context' parent'
    | _ =>
      rw [ofJson_eq_malformed (by simp [Json.kind]) (by simp [Json.kind]), typing, typing]
      exact guarded_unsupported context

/-- The same holds after the types have been united. -/
theorem guarded_unitedTyping (schema : Json) (context : Context) (parent : Option Json) :
    GuardedTyping context.options ((ofJson schema).unitedTyping context parent)
      ((ofJson schema).unitedTyping context.lenient parent) :=
  (guarded_typing schema context parent).united

end Schema

end Typewright
