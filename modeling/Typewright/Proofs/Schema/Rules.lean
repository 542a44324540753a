import Typewright.Proofs.Run.Within
import Typewright.Proofs.Schema.Reading
import Typewright.Proofs.TypeExpr.Mentions
import Typewright.Proofs.TypeExpr.Normal

/-!
# What every typing keeps

Typings are made in few ways: types without a mention, a reference, an enum, a typing with its
alternatives united, and typings put together.  What all of these keep (`TypingRules`), typing a schema
keeps (`TypingRules.givesWithin_typing`).

Typings are put together so that the types are normal if those of the parts are, and mention what the
parts mention (`Assembles`), but for one case: an array of a fixed length below one becomes the empty
tuple, which drops the type of its items (`dropsItems`).
-/

namespace Typewright

/-- The warning is that a schema or its `enum` denotes `unknown`. -/
def Warning.isDegraded : Warning → Bool
  | .schemaDegraded _ => true
  | .enumDegraded _ => true
  | _ => false

/-- One of the types mentions the path. -/
def Typing.Mentions (typing : Typing) (path : List String) : Prop :=
  ∃ type ∈ typing.types, path ∈ type.mentions

/-- The union of the types of a typing mentions what they mention. -/
theorem Typing.mem_mentions_unionType_iff {typing : Typing} {path : List String} :
    path ∈ typing.unionType.mentions ↔ typing.Mentions path :=
  TypeExpr.mem_mentions_unionOf_iff

/-- The types are normal. -/
def Typing.Normal (typing : Typing) : Prop :=
  ∀ type ∈ typing.types, type.Normal

/-- A union is built so that it is normal if its members are. -/
theorem Typing.Normal.unionType {typing : Typing} (h : typing.Normal) : typing.unionType.Normal :=
  TypeExpr.normal_unionOf h

theorem Typing.Normal.united {typing : Typing} (h : typing.Normal) : typing.united.Normal :=
  List.forall_mem_singleton.2 h.unionType

namespace Schema

/-! ### The schemas directly inside a schema -/

/-- The keywords that hold arrays of schemas. -/
def listKeywords : List String :=
  ["prefixItems", "items", "anyOf", "allOf", "oneOf"]

/-- The inner schema stands under a keyword of the schema. -/
inductive Subschema (inner schema : Json) : Prop where
  | listed {keyword : String} {items : List Json} (hkeyword : keyword ∈ listKeywords)
      (hitems : schema.items? keyword = some items) (hinner : inner ∈ items)
  | single {keyword : String} (hkeyword : keyword ∈ ["items", "additionalItems"])
      (hinner : unlisted? schema keyword = some inner)
  | named {keyword name : String} {entries : List (String × Json)}
      (hkeyword : keyword ∈ ["properties", "patternProperties"])
      (hentries : schema.entries? keyword = some entries) (hinner : (name, inner) ∈ entries)

/-- A schema under a keyword is a part of the schema that has it. -/
theorem Subschema.inside {inner schema : Json} (h : Subschema inner schema) : inner.Inside schema := by
  cases h with
  | listed _ hitems hinner => exact Json.inside_of_mem_items? hitems hinner
  | single _ hinner => exact Json.inside_of_field? (field?_of_unlisted? hinner)
  | named _ hentries hinner => exact Json.inside_of_mem_entries? hentries hinner

/-! ### Mentions of the parts -/

/-- Whether the length of arrays is fixed, under the limit, to a positive number whose whole part is
    zero. -/
def dropsElement (limit : Nat) (minItems maxItems : Option Double) : Bool :=
  minItems.any fun least => least.lt (Double.ofInt limit) && least.truncate == 0 &&
    maxItems.any fun most => least.sameValue most && !most.le Double.zero

/-- Whether arrays of the schema are empty tuples for want of a whole item. -/
def dropsItems (limit : Nat) (schema : Json) : Bool :=
  dropsElement limit (schema.double? "minItems") (schema.double? "maxItems")

/-- The types of a schema mention what the typings of the schemas inside it mention, and they are normal
    if those typings are. -/
structure Assembles (limit : Nat) (schema : Json) (typings : List Typing) (types : List TypeExpr) :
    Prop where
  exists_part : ∀ type ∈ types, ∀ path ∈ type.mentions, ∃ typing ∈ typings, typing.Mentions path
  exists_type : dropsItems limit schema = false → ∀ typing ∈ typings, ∀ path, typing.Mentions path →
    ∃ type ∈ types, path ∈ type.mentions
  normal : (∀ typing ∈ typings, typing.Normal) → ∀ type ∈ types, type.Normal

variable {limit : Nat} {schema : Json} {path : List String}

/-- Types that mention just what the parts mention drop nothing, whatever the limit. -/
theorem assembles_of_iff {typings : List Typing} {types : List TypeExpr}
    (h : ∀ path, (∃ type ∈ types, path ∈ type.mentions) ↔ ∃ typing ∈ typings, typing.Mentions path)
    (hnormal : (∀ typing ∈ typings, typing.Normal) → ∀ type ∈ types, type.Normal) :
    Assembles limit schema typings types :=
  ⟨fun type htype path hpath => (h path).1 ⟨type, htype, hpath⟩,
    fun _ typing htyping path hpath => (h path).2 ⟨typing, htyping, hpath⟩, hnormal⟩

/-- Repeating an element type mentions no more than the element. -/
theorem mem_mentions_uniformType {minItems maxItems : Option Double} {element : TypeExpr}
    (h : path ∈ (uniformType limit minItems maxItems element).mentions) : path ∈ element.mentions := by
  -- A tuple of one type mentions what the type does, unless it has no places at all.
  have hrepeated {count : Nat} {rest : Option TypeExpr} (hrest : ∀ type ∈ rest, type = element)
      (h : path ∈ (TypeExpr.tuple (.replicate count element) rest).mentions) :
      path ∈ element.mentions := by
    rw [TypeExpr.mentions, List.mem_append, TypeExpr.mem_mentions_repeated_iff] at h
    rcases h with ⟨-, h⟩ | h
    · exact h
    · cases rest with
      | none => simp [TypeExpr.mentionsOfRest] at h
      | some type => rwa [TypeExpr.mentionsOfRest, hrest type rfl] at h
  unfold uniformType at h
  split at h
  · exact h
  · simp only at h
    split at h
    · exact hrepeated (by simp) h
    · split at h
      · exact hrepeated (by simp) h
      · exact h

/-- Arrays of one element type mention it, unless it is dropped. -/
theorem mem_mentions_uniformType_of_mem {minItems maxItems : Option Double} {element : TypeExpr}
    (hmax : maxItems.any (·.le Double.zero) = false)
    (hkeeps : dropsElement limit minItems maxItems = false) (h : path ∈ element.mentions) :
    path ∈ (uniformType limit minItems maxItems element).mentions := by
  unfold uniformType
  split
  · exact h
  · next least =>
    simp only
    split
    · next hfixed =>
      rw [TypeExpr.mentions, List.mem_append, TypeExpr.mem_mentions_repeated_iff]
      -- A tuple of no elements would be one that drops its element type, which is ruled out.
      refine .inl ⟨fun htruncate => ?_, h⟩
      cases maxItems with
      | none => simp at hfixed
      | some most =>
        rw [Option.any_some] at hmax
        rw [Option.any_some, Bool.and_eq_true] at hfixed
        rw [dropsElement, Option.any_some, Option.any_some, hfixed.1, hfixed.2, hmax,
          htruncate] at hkeeps
        exact absurd hkeeps (by decide)
    · split
      · rw [TypeExpr.mentions, List.mem_append]
        exact .inr h
      · exact h

/-- Every form of an array of one type has that type as its only part. -/
theorem normal_uniformType {minItems maxItems : Option Double} {element : TypeExpr}
    (h : element.Normal) : (uniformType limit minItems maxItems element).Normal := by
  have hrepeated {count : Nat} {rest : Option TypeExpr} (hrest : ∀ type ∈ rest, type.Normal) :
      (TypeExpr.tuple (.replicate count element) rest).Normal :=
    TypeExpr.normal_tuple_iff.2 ⟨fun type htype => (List.mem_replicate.1 htype).2 ▸ h, hrest⟩
  unfold uniformType
  split
  · exact TypeExpr.normal_array_iff.2 h
  · simp only
    split
    · exact hrepeated (by simp)
    · split
      · exact hrepeated (by simpa using h)
      · exact TypeExpr.normal_array_iff.2 h

/-- An array of one type is put together from the typing of its items. -/
theorem assembles_uniform {typing : Typing}
    (hmax : ((schema.double? "maxItems").any (·.le Double.zero)) = false) :
    Assembles limit schema [typing] [uniformType limit (schema.double? "minItems")
      (schema.double? "maxItems") typing.unionType] := by
  refine ⟨fun type htype path hpath => ?_, fun hkeeps other hother path hpath => ?_, fun h => ?_⟩
  · rw [List.mem_singleton.1 htype] at hpath
    exact ⟨typing, List.mem_singleton_self _,
      Typing.mem_mentions_unionType_iff.1 (mem_mentions_uniformType hpath)⟩
  · rw [List.mem_singleton.1 hother] at hpath
    exact ⟨_, List.mem_singleton_self _,
      mem_mentions_uniformType_of_mem hmax hkeeps (Typing.mem_mentions_unionType_iff.2 hpath)⟩
  · rw [List.forall_mem_singleton] at h ⊢
    exact normal_uniformType h.unionType

/-- Names that are only required add properties of any type, which mention nothing. -/
theorem mem_mentions_required_iff {patterns : List NamedTyping} {required : List String}
    {properties : List (Property TypeExpr)} :
    path ∈ TypeExpr.mentionsOfProperties (required.foldl (requireProperty patterns) properties) ↔
      path ∈ TypeExpr.mentionsOfProperties properties := by
  induction required generalizing properties with
  | nil => rfl
  | cons name required ih =>
    rw [List.foldl_cons, ih]
    unfold requireProperty
    split
    · rfl
    · -- The name that is added has no type of its own.
      simp [TypeExpr.mem_mentionsOfProperties_iff, or_and_right, exists_or, TypeExpr.mentions]

/-- The listed properties mention what their typings mention. -/
theorem mem_mentions_listed_iff {facts : Facts} {properties : List NamedTyping} :
    path ∈ TypeExpr.mentionsOfProperties (listedProperties facts properties) ↔
      ∃ named ∈ properties, named.typing.Mentions path := by
  simp [listedProperties, TypeExpr.mem_mentionsOfProperties_iff, Typing.mem_mentions_unionType_iff]

/-- The index signature mentions what the patterns mention. -/
theorem mem_mentions_index_iff {facts : Facts} {patterns : List NamedTyping} :
    path ∈ TypeExpr.mentionsOfIndex (indexSignature (indexSources facts patterns)) ↔
      ∃ named ∈ patterns, named.typing.Mentions path := by
  have hsources : (∃ source ∈ indexSources facts patterns, path ∈ source.type.mentions) ↔
      ∃ named ∈ patterns, named.typing.Mentions path := by
    -- Additional properties may have any type.
    have hadditional : indexSources facts patterns = _ ++ _ := rfl
    simp only [hadditional, List.mem_append, or_and_right, exists_or, List.mem_map,
      exists_exists_and_eq_and, Typing.mem_mentions_unionType_iff]
    refine or_iff_left ?_
    rintro ⟨source, hsource, hpath⟩
    cases hsome : facts.additional with
    | none => simp [hsome] at hsource
    | some additional =>
      simp only [hsome] at hsource
      split at hsource
      · exact absurd hsource List.not_mem_nil
      · rw [List.mem_singleton.1 hsource] at hpath
        exact absurd hpath List.not_mem_nil
  rw [← hsources]
  unfold indexSignature
  split
  · next hempty => simp [List.isEmpty_iff.1 hempty, TypeExpr.mentionsOfIndex]
  · rw [TypeExpr.mentionsOfIndex_some, TypeExpr.mem_mentions_unionOf_iff]
    simp

/-- Names that are only required add properties of a normal type. -/
theorem normal_required {patterns : List NamedTyping} {required : List String}
    {properties : List (Property TypeExpr)} (h : ∀ property ∈ properties, property.type.Normal) :
    ∀ property ∈ required.foldl (requireProperty patterns) properties, property.type.Normal := by
  induction required generalizing properties with
  | nil => exact h
  | cons name required ih =>
    refine ih ?_
    unfold requireProperty
    split
    · exact h
    · rw [List.forall_mem_append, List.forall_mem_singleton]
      exact ⟨h, TypeExpr.normal_unknown⟩

/-- The index signature is a union of the types of its sources. -/
theorem normal_indexSignature {facts : Facts} {patterns : List NamedTyping}
    (h : ∀ named ∈ patterns, named.typing.Normal) :
    ∀ signature ∈ indexSignature (indexSources facts patterns), signature.type.Normal := by
  -- Patterns have normal types, and what else is let in is `unknown`.
  have hsources : ∀ source ∈ indexSources facts patterns, source.type.Normal := by
    unfold indexSources
    rw [List.forall_mem_append, List.forall_mem_map]
    refine ⟨fun named hnamed => (h named hnamed).unionType, fun source hsource => ?_⟩
    split at hsource
    · split at hsource
      · exact absurd hsource List.not_mem_nil
      · rw [List.mem_singleton.1 hsource]
        exact TypeExpr.normal_unknown
    · exact absurd hsource List.not_mem_nil
  intro signature hsignature
  unfold indexSignature at hsignature
  split at hsignature
  · simp at hsignature
  · rw [← Option.mem_some_iff.1 hsignature]
    exact TypeExpr.normal_unionOf (List.forall_mem_map.2 hsources)

/-- An object type is put together from the typings of its properties and of its patterns. -/
theorem assembles_object {facts : Facts} {properties patterns : List NamedTyping} :
    Assembles limit schema ((properties ++ patterns).map (·.typing))
      [.object (facts.required.foldl (requireProperty patterns) (listedProperties facts properties))
        (indexSignature (indexSources facts patterns))] := by
  refine assembles_of_iff (fun path => ?_) fun h => ?_
  · simp only [List.mem_singleton, exists_eq_left, TypeExpr.mentions, List.mem_append,
      mem_mentions_required_iff, mem_mentions_listed_iff, mem_mentions_index_iff, List.mem_map,
      exists_exists_and_eq_and, or_and_right, exists_or]
  · rw [List.map_append, List.forall_mem_append, List.forall_mem_map, List.forall_mem_map] at h
    rw [List.forall_mem_singleton, TypeExpr.normal_object_iff]
    refine ⟨normal_required ?_, normal_indexSignature h.2⟩
    exact List.forall_mem_map.2 fun named hnamed => (h.1 named hnamed).unionType

/-- A tuple is put together from the typings of its elements and of its rest. -/
theorem assembles_tuple (elements : List Typing) (rest : Option Typing) :
    Assembles limit schema (elements ++ rest.toList)
      [.tuple (elements.flatMap (·.united.types)) (rest.map (·.unionType))] := by
  refine assembles_of_iff (fun path => ?_) fun h => ?_
  -- Elements are united one by one, so a path is mentioned in the union of some element.
  · have helements : path ∈ TypeExpr.mentionsOfAll (elements.flatMap (·.united.types)) ↔
        ∃ typing ∈ elements, typing.Mentions path := by
      simp only [TypeExpr.mem_mentionsOfAll_iff, List.mem_flatMap, Typing.united, List.mem_singleton]
      constructor
      · rintro ⟨type, ⟨typing, htyping, rfl⟩, hpath⟩
        exact ⟨typing, htyping, Typing.mem_mentions_unionType_iff.1 hpath⟩
      · rintro ⟨typing, htyping, hpath⟩
        exact ⟨_, ⟨typing, htyping, rfl⟩, Typing.mem_mentions_unionType_iff.2 hpath⟩
    simp only [List.mem_singleton, exists_eq_left, TypeExpr.mentions, List.mem_append, helements]
    cases rest with
    | none => simp [TypeExpr.mentionsOfRest]
    | some rest =>
      simp [TypeExpr.mentionsOfRest, Typing.mem_mentions_unionType_iff, or_and_right, exists_or]
  · rw [List.forall_mem_append] at h
    rw [List.forall_mem_singleton, TypeExpr.normal_tuple_iff]
    refine ⟨fun type htype => ?_, fun type htype => ?_⟩
    · obtain ⟨typing, htyping, htype⟩ := List.mem_flatMap.1 htype
      exact (h.1 typing htyping).united type htype
    · obtain ⟨typing, htyping, rfl⟩ := Option.map_eq_some_iff.1 htype
      exact (h.2 typing (Option.mem_toList.2 htyping)).unionType

/-- The combination of types mentions what they mention, and is normal if they are. -/
structure Combines (combine : List TypeExpr → TypeExpr) : Prop where
  mem_mentions_iff : ∀ {types path},
    path ∈ (combine types).mentions ↔ ∃ type ∈ types, path ∈ type.mentions
  normal : ∀ {types}, (∀ type ∈ types, type.Normal) → (combine types).Normal

theorem combines_unionOf : Combines TypeExpr.unionOf :=
  ⟨TypeExpr.mem_mentions_unionOf_iff, TypeExpr.normal_unionOf⟩

theorem combines_intersectionOf : Combines TypeExpr.intersectionOf :=
  ⟨TypeExpr.mem_mentions_intersectionOf_iff, TypeExpr.normal_intersectionOf⟩

/-- The branches of one keyword, combined into a type. -/
theorem assembles_branches {combine : List TypeExpr → TypeExpr} {branches : List Typing}
    (hcombine : Combines combine) :
    Assembles limit schema branches [combine (branches.map (·.unionType))] := by
  refine assembles_of_iff (fun path => ?_) fun h => ?_
  · simp only [List.mem_singleton, exists_eq_left, hcombine.mem_mentions_iff, List.mem_map,
      exists_exists_and_eq_and, Typing.mem_mentions_unionType_iff]
  · rw [List.forall_mem_singleton]
    exact hcombine.normal (List.forall_mem_map.2 fun typing htyping => (h typing htyping).unionType)

/-- Typings mention what their types taken together mention. -/
theorem exists_mem_flatMap_types_iff {typings : List Typing} :
    (∃ type ∈ typings.flatMap (·.types), path ∈ type.mentions) ↔
      ∃ typing ∈ typings, typing.Mentions path := by
  simp only [List.mem_flatMap, Typing.Mentions]
  constructor
  · rintro ⟨type, ⟨typing, htyping, htype⟩, hpath⟩
    exact ⟨typing, htyping, type, htype, hpath⟩
  · rintro ⟨typing, htyping, type, htype, hpath⟩
    exact ⟨type, ⟨typing, htyping, htype⟩, hpath⟩

theorem normal_flatMap_types {typings : List Typing} (h : ∀ typing ∈ typings, typing.Normal) :
    ∀ type ∈ typings.flatMap (·.types), type.Normal := by
  intro type htype
  obtain ⟨typing, htyping, htype⟩ := List.mem_flatMap.1 htype
  exact h typing htyping type htype

/-- A composed type is the intersection of what its keywords give. -/
theorem assembles_composed {combined : List Typing} :
    Assembles limit schema combined [TypeExpr.intersectionOf (combined.flatMap (·.types))] := by
  refine assembles_of_iff (fun path => ?_) fun h => ?_
  · simp only [List.mem_singleton, exists_eq_left, TypeExpr.mem_mentions_intersectionOf_iff,
      exists_mem_flatMap_types_iff]
  · rw [List.forall_mem_singleton]
    exact TypeExpr.normal_intersectionOf (normal_flatMap_types h)

/-- A brand is an object type with a literal for its only property. -/
theorem exists_of_brandType? {context : Context} {facts : Facts} {type : TypeExpr}
    (h : brandType? context facts = some type) :
    ∃ name, type = .object [{ name := "_type", type := .stringLiteral name, optional := true }] none := by
  unfold brandType? at h
  obtain ⟨name, -, h⟩ := Option.bind_eq_some_iff.1 h
  split at h
  · exact ⟨name, (Option.some.inj h).symm⟩
  · exact absurd h (by simp)

/-- A brand mentions nothing, as its property is a literal. -/
theorem mentions_brandType? {context : Context} {facts : Facts} {type : TypeExpr}
    (h : brandType? context facts = some type) : type.mentions = [] := by
  obtain ⟨name, rfl⟩ := exists_of_brandType? h
  rfl

theorem normal_brandType? {context : Context} {facts : Facts} {type : TypeExpr}
    (h : brandType? context facts = some type) : type.Normal := by
  obtain ⟨name, rfl⟩ := exists_of_brandType? h
  simp [TypeExpr.normal_object_iff, TypeExpr.stringLiteral]

/-- The type of a schema with type names mentions what its alternatives and its branches mention. -/
theorem assembles_typed (context : Context) (facts : Facts) (alternatives : List Typing)
    (composed : Option Typing) (nullable : Bool) :
    Assembles limit schema (alternatives ++ composed.toList)
      (TypeExpr.intersectionOf (TypeExpr.unionOf (alternatives.flatMap (·.types)) ::
        composed.toList.flatMap (·.types) ++ (brandType? context facts).toList) ::
          if nullable then [.null] else []) := by
  refine assembles_of_iff (fun path => ?_) fun h => ?_
  -- What is added to the parts, a brand and `null`, mentions nothing.
  · have hbrand : ¬ ∃ type ∈ (brandType? context facts).toList, path ∈ type.mentions := by
      rintro ⟨type, htype, hpath⟩
      rw [mentions_brandType? (Option.mem_toList.1 htype)] at hpath
      exact absurd hpath List.not_mem_nil
    have hnull : ¬ ∃ type ∈ (if nullable then [TypeExpr.null] else []), path ∈ type.mentions := by
      cases nullable <;> simp [TypeExpr.mentions]
    simp only [List.mem_cons, List.mem_append, or_and_right, exists_or, exists_eq_left, hnull, hbrand,
      or_false, TypeExpr.mem_mentions_intersectionOf_iff, TypeExpr.mem_mentions_unionOf_iff,
      exists_mem_flatMap_types_iff]
  · rw [List.forall_mem_append] at h
    refine List.forall_mem_cons.2 ⟨TypeExpr.normal_intersectionOf ?_, ?_⟩
    · refine List.forall_mem_append.2 ⟨List.forall_mem_cons.2 ⟨?_, normal_flatMap_types h.2⟩, ?_⟩
      · exact TypeExpr.normal_unionOf (normal_flatMap_types h.1)
      · exact fun type htype => normal_brandType? (Option.mem_toList.1 htype)
    · cases nullable <;> simp

/-! ### The rules -/

/-- What a property of typings has to keep to hold of all typings of schemas: of those that satisfy
    `Q`, which goes over to the schemas inside. -/
structure TypingRules (final : EnumNames) (baseName : String) (limit : Nat) (Q : Json → Prop)
    (T : Typing → Prop) : Prop where
  inner : ∀ {inner schema}, Q schema → Subschema inner schema → Q inner
  plain : ∀ {types}, (∀ type ∈ types, type.mentions = []) → (∀ type ∈ types, type.Normal) →
    T (Typing.ofTypes types)
  degraded : ∀ warning, warning.isDegraded = true →
    T ((Typing.ofType .unknown).withWarning warning)
  reference : ∀ {schema reference}, Q schema → Pointer.target? schema = some reference →
    T ((Typing.ofType (.reference (declarationPath baseName reference))).withFragment
      (.assumed reference))
  enum : ∀ wish n values, let name := Naming.numbered (Naming.identifier wish) n
    final.lookup name = some values →
      T ((Typing.ofType (.reference (EnumDeclaration.pathOf name))).withFragment
        (EnumDeclaration.ofValues name values).toFragment)
  united : ∀ {typing}, T typing → T typing.united
  parts : ∀ {schema typings types}, Q schema → Assembles limit schema typings types →
    (∀ typing ∈ typings, T typing) → T { types, emitted := emittedOf typings }

namespace TypingRules

open Run

variable {final : EnumNames} {baseName : String} {Q : Json → Prop} {T : Typing → Prop}
  {context : Context}

/-- The rule for several types without a mention covers a single one. -/
theorem plainType (rules : TypingRules final baseName limit Q T) {type : TypeExpr}
    (h : type.mentions = []) (hnormal : type.Normal) : T (Typing.ofType type) :=
  rules.plain (List.forall_mem_singleton.2 h) (List.forall_mem_singleton.2 hnormal)

/-! ### Enumerations -/

/-- An enum is declared under a numbered name that stands for its values to the end. -/
theorem givesWithin_realEnumTyping (rules : TypingRules final baseName limit Q T) (facts : Facts)
    (values : List String) : GivesWithin final (realEnumTyping context facts values) T := by
  intro names typing names' hyields
  obtain ⟨rfl, rfl⟩ := yields_realEnumTyping_iff.1 hyields
  refine ⟨EnumNames.extends_claim _ _ _, fun hfinal => ?_⟩
  have hlookup := hfinal _ _ (EnumNames.lookup_claim names
    (Naming.identifier (enumWish context facts)) values)
  -- Whichever number the claimed name has, it stands for the values in the end.
  obtain ⟨n, -, hname, -⟩ :=
    EnumNames.exists_searchEndsAt names (Naming.identifier (enumWish context facts)) values
  rw [hname] at hlookup ⊢
  exact rules.enum _ n values hlookup

/-- A schema that no rule covers fails or degrades. -/
theorem givesWithin_unsupported (rules : TypingRules final baseName limit Q T) :
    GivesWithin final context.unsupported T := by
  unfold Context.unsupported
  split
  · exact givesWithin_throw
  · exact givesWithin_pure (rules.degraded _ rfl)

/-- The values of an enum become a declaration, or constants that mention nothing. -/
theorem givesWithin_enumTyping (rules : TypingRules final baseName limit Q T) (facts : Facts)
    (values : Json) : GivesWithin final (enumTyping context facts values) T := by
  cases values with
  | array constants =>
    unfold enumTyping
    simp only
    split
    · exact rules.givesWithin_realEnumTyping facts _
    · refine givesWithin_pure (rules.plain ?_ ?_)
      · exact List.forall_mem_map.2 fun constant _ => TypeExpr.mentions_ofConst constant
      · exact List.forall_mem_map.2 fun constant _ => TypeExpr.normal_ofConst constant
  | _ =>
    change GivesWithin final context.unsupportedEnum T
    unfold Context.unsupportedEnum
    split
    · exact givesWithin_throw
    · exact givesWithin_pure (rules.degraded _ rfl)

/-! ### Objects and arrays -/

/-- The property goes over to an object type from its properties and its patterns. -/
theorem givesWithin_objectTyping (rules : TypingRules final baseName limit Q T) (hschema : Q schema)
    {facts : Facts} {properties patterns : Run (List NamedTyping)}
    (hproperties : GivesWithin final properties fun named => ∀ each ∈ named, T each.typing)
    (hpatterns : GivesWithin final patterns fun named => ∀ each ∈ named, T each.typing) :
    GivesWithin final (objectTyping facts properties patterns) T := by
  unfold objectTyping
  refine givesWithin_bind hproperties fun properties => ?_
  refine givesWithin_bind hpatterns fun patterns => ?_
  refine givesWithin_pure fun hpatterns hproperties => rules.parts hschema assembles_object ?_
  intro typing htyping
  obtain ⟨named, hnamed, rfl⟩ := List.mem_map.1 htyping
  rcases List.mem_append.1 hnamed with hnamed | hnamed
  · exact hproperties named hnamed
  · exact hpatterns named hnamed

/-- The property goes over to a tuple from its elements and from its rest, if it has one. -/
theorem givesWithin_tupleTyping (rules : TypingRules final baseName limit Q T) (hschema : Q schema)
    {elements : Run (List Typing)} {rest : Option (Run Typing)}
    (helements : GivesWithin final elements fun typings => ∀ typing ∈ typings, T typing)
    (hrest : ∀ run ∈ rest, GivesWithin final run T) :
    GivesWithin final (tupleTyping elements rest) T := by
  unfold tupleTyping
  refine givesWithin_bind helements fun elements => ?_
  cases rest with
  | none =>
    refine givesWithin_pure fun helements => rules.parts hschema ?_ helements
    simpa using assembles_tuple elements none
  | some run =>
    refine givesWithin_bind (hrest run rfl) fun rest => ?_
    refine givesWithin_pure fun hrest helements =>
      rules.parts hschema (assembles_tuple elements (some rest)) fun typing htyping => ?_
    rcases List.mem_append.1 htyping with htyping | htyping
    · exact helements typing htyping
    · rw [List.mem_singleton.1 htyping]
      exact hrest

/-- The property goes over to an array of one type from its items, or from `unknown` without any. -/
theorem givesWithin_uniformTyping (rules : TypingRules final baseName limit Q T) (hschema : Q schema)
    (hlimit : context.options.tupleLimit = limit)
    (hmax : ((schema.double? "maxItems").any (·.le Double.zero)) = false) {item : Option (Run Typing)}
    (hitem : ∀ run ∈ item, GivesWithin final run T) :
    GivesWithin final (uniformTyping context (Facts.ofJson schema) item) T := by
  have hrun : GivesWithin final (item.getD (pure (Typing.ofType .unknown))) T := by
    cases item with
    | none => exact givesWithin_pure (rules.plainType rfl TypeExpr.normal_unknown)
    | some run => exact hitem run rfl
  unfold uniformTyping
  refine givesWithin_bind hrun fun typing => ?_
  refine givesWithin_pure fun htyping => ?_
  rw [hlimit]
  refine rules.parts hschema (assembles_uniform hmax) fun other hother => ?_
  rw [List.mem_singleton.1 hother]
  exact htyping

/-- An array that must be empty is typed by no schema; others are tuples or have one type. -/
theorem givesWithin_arrayTyping (rules : TypingRules final baseName limit Q T) (hschema : Q schema)
    (hlimit : context.options.tupleLimit = limit) {items : ItemTypings}
    (hleading : ∀ run ∈ items.leading, GivesWithin final run fun typings => ∀ typing ∈ typings, T typing)
    (hlist : ∀ run ∈ items.itemList, GivesWithin final run fun typings => ∀ typing ∈ typings, T typing)
    (hitem : ∀ item ∈ items.itemSchema, GivesWithin final item.typing T)
    (hadditional : ∀ item ∈ items.additionalItems, GivesWithin final item.typing T) :
    GivesWithin final (arrayTyping context (Facts.ofJson schema) items) T := by
  have hrest {item : Option ItemTyping} (h : ∀ each ∈ item, GivesWithin final each.typing T) :
      ∀ run ∈ restOf item, GivesWithin final run T := by
    intro run hrun
    obtain ⟨each, heach, rfl⟩ := Option.map_eq_some_iff.1 hrun
    exact h each (Option.filter_eq_some_iff.1 heach).1
  unfold arrayTyping
  split
  · refine givesWithin_pure (rules.plainType rfl ?_)
    exact TypeExpr.normal_array_iff.2 TypeExpr.normal_never
  · next hmax =>
    split
    · next elements heq =>
      refine rules.givesWithin_tupleTyping hschema (hleading elements heq) (hrest fun each heach => ?_)
      -- The rest after `prefixItems` is given by `items`, or by `additionalItems` without it.
      rcases Option.or_eq_some_iff.1 heach with heach | ⟨-, heach⟩
      · exact hitem each heach
      · exact hadditional each heach
    · next elements _ heq =>
      exact rules.givesWithin_tupleTyping hschema (hlist elements heq) (hrest hadditional)
    · refine rules.givesWithin_uniformTyping hschema hlimit (Bool.eq_false_iff.2 hmax)
        fun run hrun => ?_
      obtain ⟨each, heach, rfl⟩ := Option.map_eq_some_iff.1 hrun
      exact hitem each heach

/-! ### Branches and types -/

/-- The property goes over to the combination of the branches of a keyword. -/
theorem givesWithin_combineBranches (rules : TypingRules final baseName limit Q T) (hschema : Q schema)
    {combine : List TypeExpr → TypeExpr}
    (hcombine : Combines combine) {branches : Option (Run (List Typing))}
    (h : ∀ run ∈ branches, GivesWithin final run fun typings => ∀ typing ∈ typings, T typing) :
    GivesWithin final (combineBranches combine branches) fun combined =>
      ∀ typing ∈ combined, T typing := by
  cases branches with
  | none => exact givesWithin_pure fun typing htyping => absurd htyping (by simp)
  | some run =>
    refine givesWithin_bind (h run rfl) fun typings => ?_
    refine givesWithin_pure fun htypings typing htyping => ?_
    rw [← Option.mem_some_iff.1 htyping]
    exact rules.parts hschema (assembles_branches hcombine) htypings

/-- The typings of all branches of a schema have the property. -/
structure Branches (final : EnumNames) (T : Typing → Prop) (branches : BranchTypings) : Prop where
  anyOf : ∀ run ∈ branches.anyOf, GivesWithin final run fun typings => ∀ typing ∈ typings, T typing
  allOf : ∀ run ∈ branches.allOf, GivesWithin final run fun typings => ∀ typing ∈ typings, T typing
  oneOf : ∀ run ∈ branches.oneOf, GivesWithin final run fun typings => ∀ typing ∈ typings, T typing

/-- The property goes over to a composed schema from what its keywords give. -/
theorem givesWithin_composedTyping (rules : TypingRules final baseName limit Q T) (hschema : Q schema)
    {branches : BranchTypings} (h : Branches final T branches) :
    GivesWithin final (composedTyping context branches) T := by
  unfold composedTyping
  refine givesWithin_bind (rules.givesWithin_combineBranches hschema combines_unionOf h.anyOf)
    fun anyOf => ?_
  refine givesWithin_bind (rules.givesWithin_combineBranches hschema combines_intersectionOf h.allOf)
    fun allOf => ?_
  refine givesWithin_bind (rules.givesWithin_combineBranches hschema combines_unionOf h.oneOf)
    fun oneOf => ?_
  simp only
  split
  · exact givesWithin_throw
  · refine givesWithin_pure fun honeOf hallOf hanyOf =>
      rules.parts hschema assembles_composed fun typing htyping => ?_
    rw [List.mem_append, List.mem_append, Option.mem_toList, Option.mem_toList,
      Option.mem_toList] at htyping
    rcases htyping with (htyping | htyping) | htyping
    · exact hanyOf typing htyping
    · exact hallOf typing htyping
    · exact honeOf typing htyping

/-- A type name stands for a primitive type, for the object, for the array, or for nothing. -/
theorem givesWithin_alternative (rules : TypingRules final baseName limit Q T) {nullable : Bool}
    {object array : Run Typing} (hobject : GivesWithin final object T)
    (harray : GivesWithin final array T) (name : String) :
    GivesWithin final (alternative context nullable object array name) T := by
  -- The plain types are in a union with `null` if that is let in, and mention nothing either way.
  have hprimitive {type : TypeExpr} (h : type = .boolean ∨ type = .number ∨ type = .string) :
      T (Typing.ofType (primitive nullable type)) := by
    have hmentions : type.mentions = [] := by rcases h with rfl | rfl | rfl <;> rfl
    have hnormal : type.Normal := by rcases h with rfl | rfl | rfl <;> simp
    unfold primitive
    split
    · exact rules.plainType hmentions hnormal
    · exact rules.plainType hmentions
        (TypeExpr.normal_iff.2 ⟨h, List.forall_mem_singleton.2 hnormal⟩)
  unfold alternative
  split
  · exact givesWithin_pure (hprimitive (.inl rfl))
  · exact givesWithin_pure (hprimitive (.inr (.inl rfl)))
  · exact givesWithin_pure (hprimitive (.inr (.inl rfl)))
  · exact givesWithin_pure (hprimitive (.inr (.inr rfl)))
  · exact givesWithin_map hobject fun _ htyping => rules.united htyping
  · exact givesWithin_map harray fun _ htyping => rules.united htyping
  · exact givesWithin_throw

/-- The property goes over to a schema with type names from its alternatives and its branches. -/
theorem givesWithin_typedTyping (rules : TypingRules final baseName limit Q T) (hschema : Q schema)
    {facts : Facts} {names : List String} {object array : Run Typing} {branches : Json → BranchTypings}
    (hobject : GivesWithin final object T) (harray : GivesWithin final array T)
    (hbranches : ∀ parent, Branches final T (branches parent)) :
    GivesWithin final (typedTyping context facts names object array branches) T := by
  -- The type is put together in one way, with branches or without.
  have htyped {alternatives : List Typing} {composed : Option Typing} {nullable : Bool}
      (halternatives : ∀ typing ∈ alternatives, T typing) (hcomposed : ∀ typing ∈ composed, T typing) :=
    rules.parts hschema (assembles_typed context facts alternatives composed nullable)
      fun typing htyping => (List.mem_append.1 htyping).elim (halternatives typing)
        fun hmem => hcomposed typing (Option.mem_toList.1 hmem)
  unfold typedTyping
  refine givesWithin_bind (givesWithin_mapM fun name _ =>
    rules.givesWithin_alternative hobject harray name) fun alternatives => ?_
  simp only
  split
  · refine givesWithin_pure fun _ => ?_
    split
    · exact rules.plainType rfl TypeExpr.normal_null
    · exact rules.plain (List.forall_mem_nil _) (List.forall_mem_nil _)
  · split
    · refine givesWithin_bind (givesWithin_map (Q := fun composed => ∀ typing ∈ composed, T typing)
        (rules.givesWithin_composedTyping hschema (hbranches _)) ?_) fun composed => ?_
      · intro typing htyping other hother
        rw [← Option.mem_some_iff.1 hother]
        exact htyping
      · exact givesWithin_pure fun hcomposed halternatives => htyped halternatives hcomposed
    · refine givesWithin_bind (P := (· = none)) (givesWithin_pure rfl) fun composed => ?_
      refine givesWithin_pure fun hcomposed halternatives =>
        htyped halternatives fun typing htyping => ?_
      rw [hcomposed] at htyping
      exact absurd htyping (by simp)

/-! ### Schemas -/

section Inner

variable {fields : List (String × Json)}

/-- The schemas directly inside this one have typings with the property. -/
def Inner (final : EnumNames) (context : Context) (T : Typing → Prop) (schema : Json) : Prop :=
  ∀ inner, Subschema inner schema → ∀ context' : Context, context'.baseName = context.baseName →
    context'.options = context.options →
      ∀ parent, GivesWithin final ((ofJson inner).typing context' parent) T

/-- What holds of each schema of a list holds of the list of their typings. -/
theorem givesWithin_itemTypings {items : List Json} {parent : Option Json}
    (h : ∀ item ∈ items, ∀ location,
      GivesWithin final ((ofJson item).typing (context.descend location) parent) T) (index : Nat) :
    GivesWithin final (itemTypings context parent index (ofItems items)) fun typings =>
      ∀ typing ∈ typings, T typing := by
  induction items generalizing index with
  | nil =>
    rw [ofItems, itemTypings]
    exact givesWithin_pure fun typing htyping => absurd htyping List.not_mem_nil
  | cons item items ih =>
    rw [ofItems, itemTypings]
    refine givesWithin_bind (h item List.mem_cons_self _) fun first => ?_
    refine givesWithin_bind (ih (fun item hitem => h item (List.mem_cons_of_mem _ hitem)) _)
      fun others => ?_
    exact givesWithin_pure fun hothers hfirst => List.forall_mem_cons.2 ⟨hfirst, hothers⟩

/-- What holds of the schema of each field holds of their typings under their names. -/
theorem givesWithin_fieldTypings {hinting : Bool} (h : ∀ field ∈ fields, ∀ context' : Context,
      context'.baseName = context.baseName → context'.options = context.options →
        GivesWithin final ((ofJson field.2).typing context' none) T) :
    GivesWithin final (fieldTypings context hinting (ofFields fields)) fun named =>
      ∀ each ∈ named, T each.typing := by
  induction fields with
  | nil =>
    rw [ofFields, fieldTypings]
    exact givesWithin_pure fun named hnamed => absurd hnamed List.not_mem_nil
  | cons field fields ih =>
    obtain ⟨name, value⟩ := field
    rw [ofFields, fieldTypings]
    refine givesWithin_bind (h (name, value) List.mem_cons_self _ ?_ ?_) fun first => ?_
    · split <;> rfl
    · split <;> rfl
    · refine givesWithin_bind (ih fun field hfield => h field (List.mem_cons_of_mem _ hfield))
        fun others => ?_
      exact givesWithin_pure fun hothers hfirst => List.forall_mem_cons.2 ⟨hfirst, hothers⟩

theorem givesWithin_keywordTypings (h : Inner final context T schema) (parent : Option Json)
    {keyword : String} (hkeyword : keyword ∈ listKeywords) :
    ∀ run ∈ keywordTypings context parent schema keyword,
      GivesWithin final run fun typings => ∀ typing ∈ typings, T typing := by
  intro run hrun
  rw [Option.mem_def, keywordTypings] at hrun
  obtain ⟨items, hitems, hrun⟩ := Option.map_eq_some_iff.1 hrun
  rw [← hrun]
  refine givesWithin_itemTypings (fun item hitem location => ?_) 0
  refine h item (.listed hkeyword hitems hitem) _ ?_ ?_ parent
  · rw [Context.baseName_descend, Context.baseName_descend]
  · rw [Context.options_descend, Context.options_descend]

theorem givesWithin_keywordTyping (h : Inner final context T schema) {keyword : String}
    (hkeyword : keyword ∈ ["items", "additionalItems"]) :
    ∀ item ∈ keywordTyping context schema keyword, GivesWithin final item.typing T := by
  intro item hitem
  obtain ⟨inner, hunlisted, rfl⟩ := Option.map_eq_some_iff.1 hitem
  exact h inner (.single hkeyword hunlisted) (context.descend keyword) rfl rfl none

theorem givesWithin_namedTypings (h : Inner final context T schema) (hinting : Bool) {keyword : String}
    (hkeyword : keyword ∈ ["properties", "patternProperties"]) :
    GivesWithin final (namedTypings context hinting schema keyword) fun named =>
      ∀ each ∈ named, T each.typing := by
  refine givesWithin_fieldTypings fun field hfield context' hbase hoptions => ?_
  obtain ⟨entries, hentries, hfield⟩ := Json.exists_entries?_of_mem_getD hfield
  exact h field.2 (.named hkeyword hentries hfield) _ hbase hoptions none

theorem branches_branchTypings (h : Inner final context T schema) (parent : Option Json) :
    Branches final T (branchTypings context schema parent) :=
  ⟨givesWithin_keywordTypings h parent (by decide), givesWithin_keywordTypings h parent (by decide),
    givesWithin_keywordTypings h parent (by decide)⟩

/-- One case for each shape that a schema can have. -/
theorem givesWithin_shapeTyping
    (rules : TypingRules final context.baseName context.options.tupleLimit Q T) (hschema : Q schema)
    (h : Inner final context T schema) {location : String} {parent : Option Json} {shape : Shape}
    (hshape : (Facts.ofJson schema).HasShape location parent shape) :
    GivesWithin final (shapeTyping context schema shape) T := by
  -- Three shapes lead to type names: those that are declared, implied or inherited.
  have htyped (names : List String) :
      GivesWithin final (shapeTyping context schema (.typed names)) T := by
    unfold shapeTyping
    refine rules.givesWithin_typedTyping hschema ?_ ?_ fun parent =>
      branches_branchTypings h (some parent)
    · unfold objectTypingOf
      exact rules.givesWithin_objectTyping hschema (givesWithin_namedTypings h true (by decide))
        (givesWithin_namedTypings h false (by decide))
    · unfold arrayTypingOf
      exact rules.givesWithin_arrayTyping hschema rfl (givesWithin_keywordTypings h none (by decide))
        (givesWithin_keywordTypings h none (by decide)) (givesWithin_keywordTyping h (by decide))
        (givesWithin_keywordTyping h (by decide))
  cases hshape with
  | null => exact givesWithin_pure (rules.plainType rfl TypeExpr.normal_null)
  | reference hreference => exact givesWithin_pure (rules.reference hschema hreference)
  | const =>
    exact givesWithin_pure (rules.plainType (TypeExpr.mentions_ofConst _) (TypeExpr.normal_ofConst _))
  | enum => exact rules.givesWithin_enumTyping _ _
  | declared => exact htyped _
  | implied => exact htyped _
  | composed => exact rules.givesWithin_composedTyping hschema (branches_branchTypings h none)
  | inherited => exact htyped _
  | unsupported => exact rules.givesWithin_unsupported

end Inner

/-- What the rules keep holds of every typing of a schema. -/
theorem givesWithin_typing (schema : Json) (context : Context) (parent : Option Json)
    (rules : TypingRules final context.baseName context.options.tupleLimit Q T) (hschema : Q schema) :
    GivesWithin final ((ofJson schema).typing context parent) T := by
  induction schema using Json.inside_induction generalizing context parent with
  | _ schema ih =>
    cases schema with
    | bool allowed =>
      rw [ofJson]
      cases allowed with
      | true =>
        rw [typing]
        exact givesWithin_pure (rules.plainType rfl TypeExpr.normal_unknown)
      | false =>
        rw [typing]
        exact givesWithin_pure (rules.plainType rfl TypeExpr.normal_never)
    | object fields =>
      rw [typing_object]
      split
      · exact givesWithin_throw
      · next shape hshape =>
        refine rules.givesWithin_shapeTyping hschema ?_ (hasShape_of_shape hshape)
        intro inner hinner context' hbase hoptions parent'
        -- The rules depend on the context only through what all contexts of one run share.
        refine ih inner hinner.inside context' parent' ?_ (rules.inner hschema hinner)
        rw [hbase, hoptions]
        exact rules
    | _ =>
      rw [ofJson_eq_malformed (by simp [Json.kind]) (by simp [Json.kind]), typing]
      exact rules.givesWithin_unsupported

end TypingRules

end Schema

end Typewright
