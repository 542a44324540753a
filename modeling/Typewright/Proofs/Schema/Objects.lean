import Mathlib.Data.List.Induction
import Typewright.Proofs.Schema.Ensures
import Typewright.Proofs.Schema.Reading
import Typewright.Proofs.Text.Distinct

/-!
# The members of an object type

The object type of a schema has one property for each entry of `properties`, one more for each name
that is required and declared nowhere, and one index signature for all that `patternProperties` and
`additionalProperties` say (`Schema.exists_objectType`).  Nothing is lost and no name comes up twice
(`Schema.members_objectTypingOf`).

The types of the properties lie within that of the index signature if the additional properties
contribute to it, and otherwise only if those of the patterns hold them
(`Schema.members_fit_index_iff`).
-/

namespace Typewright.Schema

variable {context : Context} {schema : Json} {hinting : Bool} {names names' : EnumNames}
  {typing : Typing} {entries : List (String × Json)} {typings : List Typing}
  {patterns : List NamedTyping}

/-! ### Entries -/

/-- The entries of a keyword that holds an object. -/
def entriesOf (schema : Json) (keyword : String) : List (String × Json) :=
  (schema.entries? keyword).getD []

/-- The context in which the schema of an entry is typed; its name may serve as the hint. -/
def entryContext (context : Context) (hinting : Bool) (name : String) : Context :=
  if hinting then (context.descend name).named name else context.descend name

/-- The schemas of the entries are typed one after the other. -/
inductive TypedEntries (context : Context) (hinting : Bool) :
    EnumNames → List (String × Json) → List Typing → EnumNames → Prop where
  | nil {names : EnumNames} : TypedEntries context hinting names [] [] names
  | cons {names names' names'' : EnumNames} {name : String} {inner : Json} {typing : Typing}
      {entries : List (String × Json)} {typings : List Typing}
      (first : ((ofJson inner).typing (entryContext context hinting name) none).Yields names typing names')
      (rest : TypedEntries context hinting names' entries typings names'') :
      TypedEntries context hinting names ((name, inner) :: entries) (typing :: typings) names''

theorem TypedEntries.length_eq (h : TypedEntries context hinting names entries typings names') :
    entries.length = typings.length := by
  induction h with
  | nil => rfl
  | cons _ _ ih => rw [List.length_cons, List.length_cons, ih]

/-- A typing under the name of its entry. -/
def namedTyping (entry : String × Json) (typing : Typing) : NamedTyping :=
  { name := entry.1, readOnly := (ofJson entry.2).readOnly, typing }

theorem readOnly_ofJson (schema : Json) : (ofJson schema).readOnly = schema.flag "readOnly" := by
  cases schema with
  | object fields => rw [ofJson]; rfl
  | bool allowed => rw [ofJson]; rfl
  | _ => rw [ofJson_eq_malformed (by simp [Json.kind]) (by simp [Json.kind])]; rfl

theorem exists_typedEntries {named : List NamedTyping}
    (h : (fieldTypings context hinting (ofFields entries)).Yields names named names') :
    ∃ typings, TypedEntries context hinting names entries typings names' ∧
      named = List.zipWith namedTyping entries typings := by
  induction entries generalizing names named with
  | nil =>
    rw [ofFields, fieldTypings, Run.yields_pure_iff] at h
    obtain ⟨rfl, rfl⟩ := h
    exact ⟨[], .nil, rfl⟩
  | cons entry entries ih =>
    obtain ⟨name, inner⟩ := entry
    rw [ofFields, fieldTypings, Run.yields_bind_iff] at h
    obtain ⟨typing, names₁, hfirst, h⟩ := h
    obtain ⟨others, names₂, hothers, h⟩ := Run.yields_bind_iff.1 h
    obtain ⟨rfl, rfl⟩ := Run.yields_pure_iff.1 h
    obtain ⟨typings, htypings, rfl⟩ := ih hothers
    exact ⟨typing :: typings, .cons hfirst htypings, rfl⟩

theorem exists_typedEntries_keyword {keyword : String} {named : List NamedTyping}
    (h : (namedTypings context hinting schema keyword).Yields names named names') :
    ∃ typings, TypedEntries (context.descend keyword) hinting names (entriesOf schema keyword) typings
        names' ∧ named = List.zipWith namedTyping (entriesOf schema keyword) typings :=
  exists_typedEntries h

/-! ### Required names -/

/-- A required property of any type. -/
def requiredProperty (name : String) : Property TypeExpr :=
  { name, type := .unknown }

/-- The required names that are not declared, each one once, where it comes up first. -/
def missingNames (declared required : List String) : List String :=
  Text.distinct (required.filter (· ∉ declared))

/-- The required names that are keys of neither `properties` nor `patternProperties`. -/
def undeclaredNames (schema : Json) : List String :=
  missingNames ((entriesOf schema "properties").map Prod.fst ++
    (entriesOf schema "patternProperties").map Prod.fst) (requiredNames schema)

theorem mem_missingNames_iff {declared required : List String} {name : String} :
    name ∈ missingNames declared required ↔ name ∈ required ∧ name ∉ declared := by
  rw [missingNames, Text.mem_distinct_iff, List.mem_filter, decide_eq_true_iff]

theorem nodup_missingNames (declared required : List String) : (missingNames declared required).Nodup :=
  Text.nodup_distinct _

theorem missingNames_concat (declared required : List String) (name : String) :
    missingNames declared (required ++ [name]) =
      if name ∈ declared then missingNames declared required
      else Text.insertNew (missingNames declared required) name := by
  unfold missingNames
  rw [List.filter_append]
  split
  · next hdeclared =>
    rw [List.filter_cons_of_neg (by simpa using hdeclared), List.filter_nil, List.append_nil]
  · next hdeclared =>
    rw [List.filter_cons_of_pos (by simpa using hdeclared), List.filter_nil, Text.distinct_concat]

section Required

variable {properties : List (Property TypeExpr)} {name : String}

theorem requireProperty_of_mem
    (h : name ∈ properties.map (·.name) ++ patterns.map (·.name)) :
    requireProperty patterns properties name = properties := by
  unfold requireProperty
  exact if_pos (by simpa using h)

theorem requireProperty_of_notMem
    (h : name ∉ properties.map (·.name) ++ patterns.map (·.name)) :
    requireProperty patterns properties name = properties ++ [requiredProperty name] := by
  unfold requireProperty
  exact if_neg (by simpa using h)

theorem map_name_append_requiredProperty (properties : List (Property TypeExpr)) (added : List String) :
    (properties ++ added.map requiredProperty).map (·.name) = properties.map (·.name) ++ added := by
  rw [List.map_append, List.map_map]
  exact congrArg _ (List.map_id _)

/-- Each required name that nothing declares is added once, where it comes up first. -/
theorem foldl_requireProperty (listed : List (Property TypeExpr)) (required : List String) :
    required.foldl (requireProperty patterns) listed =
      listed ++ (missingNames (listed.map (·.name) ++ patterns.map (·.name)) required).map
        requiredProperty := by
  induction required using List.reverseRecOn with
  | nil => exact (List.append_nil _).symm
  | append_singleton required name ih =>
    rw [List.foldl_append, ih, List.foldl_cons, List.foldl_nil, missingNames_concat]
    set declared := listed.map (·.name) ++ patterns.map (·.name)
    set added := missingNames declared required
    -- The step looks among the names that are declared and those that are added by now.
    have hknown : name ∈ (listed ++ added.map requiredProperty).map (·.name) ++ patterns.map (·.name) ↔
        name ∈ declared ∨ name ∈ added := by
      rw [map_name_append_requiredProperty]
      simp only [declared, List.mem_append]
      tauto
    by_cases hdeclared : name ∈ declared
    · rw [requireProperty_of_mem (hknown.2 (.inl hdeclared)), if_pos hdeclared]
    rw [if_neg hdeclared, Text.insertNew]
    by_cases hadded : name ∈ added
    · rw [requireProperty_of_mem (hknown.2 (.inr hadded)), if_pos (List.contains_iff_mem.2 hadded)]
    · rw [requireProperty_of_notMem fun h => (hknown.1 h).elim hdeclared hadded,
        if_neg fun h => hadded (List.contains_iff_mem.1 h), List.map_append, List.append_assoc]
      rfl

end Required

/-! ### Object types -/

/-- The property of an entry: it may be missing unless its name is required. -/
def entryProperty (required : List String) (entry : String × Json) (typing : Typing) :
    Property TypeExpr :=
  { name := entry.1
    type := typing.unionType
    optional := !required.contains entry.1
    readonly := entry.2.flag "readOnly" }

/-- What a pattern contributes to the index signature. -/
def patternSource (required : List String) (entry : String × Json) (typing : Typing) :
    IndexSignature TypeExpr :=
  { type := typing.unionType
    optional := !required.contains entry.1
    readonly := entry.2.flag "readOnly" }

/-- What the additional properties contribute to the index signature, unless they are ruled out. -/
def additionalSource? (schema : Json) : Option (IndexSignature TypeExpr) :=
  ((schema.field? "additionalProperties").filter (!·.isFalse)).map fun additional =>
    { type := .unknown, optional := true, readonly := additional.flag "readOnly" }

/-- The properties of an object type, with the typings of the schemas under `properties`. -/
def membersOf (schema : Json) (properties : List Typing) : List (Property TypeExpr) :=
  List.zipWith (entryProperty (requiredNames schema)) (entriesOf schema "properties") properties ++
    (undeclaredNames schema).map requiredProperty

/-- All that contributes to the index signature, with the typings of the schemas under
    `patternProperties`. -/
def sourcesOf (schema : Json) (patterns : List Typing) : List (IndexSignature TypeExpr) :=
  List.zipWith (patternSource (requiredNames schema)) (entriesOf schema "patternProperties") patterns ++
    (additionalSource? schema).toList

theorem listedProperties_zipWith (facts : Facts) (entries : List (String × Json))
    (typings : List Typing) :
    listedProperties facts (List.zipWith namedTyping entries typings) =
      List.zipWith (entryProperty facts.required) entries typings := by
  unfold listedProperties
  rw [List.map_zipWith]
  refine congrArg (List.zipWith · entries typings) (funext₂ fun entry typing => ?_)
  rw [entryProperty, namedTyping, readOnly_ofJson]

theorem indexSources_zipWith (schema : Json) (typings : List Typing) :
    indexSources (Facts.ofJson schema)
      (List.zipWith namedTyping (entriesOf schema "patternProperties") typings) =
        sourcesOf schema typings := by
  have hfield : (Facts.ofJson schema).additional = schema.field? "additionalProperties" := rfl
  unfold indexSources sourcesOf additionalSource?
  simp only [List.map_zipWith, namedTyping, readOnly_ofJson]
  refine congrArg₂ _ rfl ?_
  rw [hfield]
  cases schema.field? "additionalProperties" with
  | none => rfl
  | some additional => cases hfalse : additional.isFalse <;> simp [Option.filter, hfalse]

/-- What is made of each entry and its typing bears the keys in order. -/
theorem map_zipWith_eq_map_fst {β : Type} (make : String × Json → Typing → β) (name : β → String)
    (hname : ∀ entry typing, name (make entry typing) = entry.1)
    (h : entries.length = typings.length) :
    (List.zipWith make entries typings).map name = entries.map Prod.fst := by
  have hfst : (entries.zip typings).map Prod.fst = entries := List.map_fst_zip (Nat.le_of_eq h)
  calc (List.zipWith make entries typings).map name
      = (entries.zip typings).map (Prod.fst ∘ Prod.fst) := by
        rw [List.map_zipWith, ← List.map_uncurry_zip_eq_zipWith]
        exact List.map_congr_left fun pair _ => hname pair.1 pair.2
    _ = entries.map Prod.fst := by rw [← List.map_map, hfst]

theorem map_name_entryProperty (required : List String) (h : entries.length = typings.length) :
    (List.zipWith (entryProperty required) entries typings).map (·.name) = entries.map Prod.fst :=
  map_zipWith_eq_map_fst (entryProperty required) (·.name) (fun _ _ => rfl) h

/-- The object type of a schema, from the typings of the schemas under its names. -/
theorem exists_objectType (h : (objectTypingOf context schema).Yields names typing names') :
    ∃ properties patterns names₁,
      TypedEntries (context.descend "properties") true names (entriesOf schema "properties")
        properties names₁ ∧
      TypedEntries (context.descend "patternProperties") false names₁
        (entriesOf schema "patternProperties") patterns names' ∧
      typing.types =
        [.object (membersOf schema properties) (indexSignature (sourcesOf schema patterns))] := by
  unfold objectTypingOf objectTyping at h
  obtain ⟨listed, names₁, hlisted, h⟩ := Run.yields_bind_iff.1 h
  obtain ⟨named, names₂, hnamed, h⟩ := Run.yields_bind_iff.1 h
  obtain ⟨rfl, rfl⟩ := Run.yields_pure_iff.1 h
  obtain ⟨properties, hproperties, rfl⟩ := exists_typedEntries_keyword hlisted
  obtain ⟨patterns, hpatterns, rfl⟩ := exists_typedEntries_keyword hnamed
  refine ⟨properties, patterns, names₁, hproperties, hpatterns, ?_⟩
  have hnames : (List.zipWith namedTyping (entriesOf schema "patternProperties") patterns).map (·.name) =
      (entriesOf schema "patternProperties").map Prod.fst :=
    map_zipWith_eq_map_fst namedTyping (·.name) (fun _ _ => rfl) hpatterns.length_eq
  -- Properties and patterns bear the keys, so a required name is looked for among these.
  simp only
  rw [foldl_requireProperty, listedProperties_zipWith, indexSources_zipWith,
    map_name_entryProperty _ hproperties.length_eq, hnames]
  rfl

/-! ### Properties -/

theorem map_name_membersOf (h : (entriesOf schema "properties").length = typings.length) :
    (membersOf schema typings).map (·.name) =
      (entriesOf schema "properties").map Prod.fst ++ undeclaredNames schema := by
  rw [membersOf, map_name_append_requiredProperty, map_name_entryProperty _ h]

theorem mem_undeclaredNames_iff {name : String} :
    name ∈ undeclaredNames schema ↔ name ∈ requiredNames schema ∧
      name ∉ (entriesOf schema "properties").map Prod.fst ∧
        name ∉ (entriesOf schema "patternProperties").map Prod.fst := by
  rw [undeclaredNames, mem_missingNames_iff, List.mem_append, not_or]

/-- No property comes up twice, since no key does. -/
theorem nodup_map_name_membersOf (h : (entriesOf schema "properties").length = typings.length)
    (hkeys : ((entriesOf schema "properties").map Prod.fst).Nodup) :
    ((membersOf schema typings).map (·.name)).Nodup := by
  rw [map_name_membersOf h]
  refine List.nodup_append.2 ⟨hkeys, nodup_missingNames _ _, fun key hkey name hname heq => ?_⟩
  exact (mem_undeclaredNames_iff.1 hname).2.1 (heq ▸ hkey)

/-- Just the properties that are not required may be missing. -/
theorem optional_iff_of_mem_membersOf :
    ∀ property ∈ membersOf schema typings,
      property.optional = true ↔ property.name ∉ requiredNames schema := by
  unfold membersOf
  refine List.forall_mem_append.2 ⟨?_, List.forall_mem_map.2 fun name hname => ?_⟩
  · rw [← List.map_uncurry_zip_eq_zipWith]
    refine List.forall_mem_map.2 fun pair _ => ?_
    rw [Function.uncurry_def]
    simp [entryProperty]
  · have hrequired : name ∈ requiredNames schema := (mem_undeclaredNames_iff.1 hname).1
    simp [requiredProperty, hrequired]

/-! ### The index signature -/

/-- The signature says what all the sources say together. -/
structure Merges (sources : List (IndexSignature TypeExpr)) (signature : IndexSignature TypeExpr) :
    Prop where
  type_eq : signature.type = TypeExpr.unionOf (sources.map (·.type))
  readonly_iff : signature.readonly = true ↔ ∀ source ∈ sources, source.readonly = true
  optional_iff : signature.optional = true ↔ ∀ source ∈ sources, source.optional = true

theorem merges_of_indexSignature {sources : List (IndexSignature TypeExpr)}
    {signature : IndexSignature TypeExpr} (h : indexSignature sources = some signature) :
    Merges sources signature := by
  unfold indexSignature at h
  split at h
  · exact absurd h (Option.some_ne_none _).symm
  · obtain rfl := Option.some.inj h
    exact ⟨rfl, List.all_eq_true, List.all_eq_true⟩

theorem isSome_indexSignature_iff {sources : List (IndexSignature TypeExpr)} :
    (indexSignature sources).isSome = true ↔ sources ≠ [] := by
  unfold indexSignature
  cases sources <;> simp

theorem isSome_additionalSource?_iff :
    (additionalSource? schema).isSome = true ↔
      ∃ additional, schema.field? "additionalProperties" = some additional ∧
        additional ≠ .bool false := by
  have hfalse (additional : Json) : (!additional.isFalse) = true ↔ additional ≠ .bool false := by
    unfold Json.isFalse
    split <;> simp_all
  rw [additionalSource?, Option.isSome_map, Option.isSome_filter, Option.any_eq_true]
  simp only [hfalse]

theorem sourcesOf_ne_nil_iff (h : (entriesOf schema "patternProperties").length = typings.length) :
    sourcesOf schema typings ≠ [] ↔ entriesOf schema "patternProperties" ≠ [] ∨
      ∃ additional, schema.field? "additionalProperties" = some additional ∧
        additional ≠ .bool false := by
  have hpatterns : List.zipWith (patternSource (requiredNames schema))
      (entriesOf schema "patternProperties") typings ≠ [] ↔ entriesOf schema "patternProperties" ≠ [] := by
    rw [← List.length_pos_iff, ← List.length_pos_iff, List.length_zipWith, ← h, Nat.min_self]
  have hadditional : (additionalSource? schema).toList ≠ [] ↔ (additionalSource? schema).isSome = true := by
    cases additionalSource? schema <;> simp
  rw [sourcesOf, ← isSome_additionalSource?_iff, ← hpatterns, ← hadditional, ne_eq,
    List.append_eq_nil_iff, not_and_or]

/-- The object type of a schema, whose properties have distinct keys, loses nothing and repeats nothing.
    There is one property for each entry and one for each name that is required only; just those that
    are not required may be missing.  There is an index signature if there are patterns or additional
    properties, and it says what these say together. -/
theorem members_objectTypingOf (h : (objectTypingOf context schema).Yields names typing names')
    (hkeys : ((entriesOf schema "properties").map Prod.fst).Nodup) :
    ∃ properties patterns names₁ members index,
      TypedEntries (context.descend "properties") true names (entriesOf schema "properties")
        properties names₁ ∧
      TypedEntries (context.descend "patternProperties") false names₁
        (entriesOf schema "patternProperties") patterns names' ∧
      typing.types = [.object members index] ∧
      members =
        List.zipWith (entryProperty (requiredNames schema)) (entriesOf schema "properties") properties ++
          (undeclaredNames schema).map requiredProperty ∧
      members.map (·.name) =
        (entriesOf schema "properties").map Prod.fst ++ undeclaredNames schema ∧
      (members.map (·.name)).Nodup ∧
      (∀ property ∈ members, property.optional = true ↔ property.name ∉ requiredNames schema) ∧
      (index.isSome = true ↔ entriesOf schema "patternProperties" ≠ [] ∨
        ∃ additional, schema.field? "additionalProperties" = some additional ∧
          additional ≠ .bool false) ∧
      ∀ signature ∈ index, Merges (sourcesOf schema patterns) signature := by
  obtain ⟨properties, patterns, names₁, hproperties, hpatterns, htypes⟩ := exists_objectType h
  refine ⟨properties, patterns, names₁, _, _, hproperties, hpatterns, htypes, rfl,
    map_name_membersOf hproperties.length_eq, nodup_map_name_membersOf hproperties.length_eq hkeys,
    optional_iff_of_mem_membersOf, ?_, fun signature hsignature => merges_of_indexSignature hsignature⟩
  exact isSome_indexSignature_iff.trans (sourcesOf_ne_nil_iff hpatterns.length_eq)

/-- A schema whose names are declared and required in every combination. -/
def overlapping : Json :=
  .object [("properties", .object [("b", .object [("type", .string "number")]),
      ("a", .object [("type", .string "string")])]),
    ("required", .array [.string "c", .string "a", .string "^x", .string "c"]),
    ("patternProperties", .object [("^x", .object [("type", .string "boolean")])]),
    ("additionalProperties", .bool false)]

/-- The name that is required only comes last, and once. -/
theorem members_objectTypingOf_overlapping :
    ∃ typing members index,
      (objectTypingOf { options := {}, baseName := "Main" } overlapping).Yields [] typing [] ∧
      typing.types = [.object members index] ∧ members.map (·.name) = ["b", "a", "c"] ∧
      index.isSome = true := by
  obtain ⟨typing, hrun⟩ : ∃ typing,
      (objectTypingOf { options := {}, baseName := "Main" } overlapping).Yields [] typing [] := ⟨_, rfl⟩
  obtain ⟨properties, patterns, names₁, members, index, -, -, htypes, -, hnames, -, -, hindex, -⟩ :=
    members_objectTypingOf hrun (by decide)
  refine ⟨typing, members, index, hrun, htypes, ?_, hindex.2 (.inl (by decide))⟩
  rw [hnames]
  decide

/-! ### Properties and the index signature -/

section Fit

variable {G : List String → Json → Prop} {properties patterns : List Typing}

/-- What is made of the entries takes the values of their schemas. -/
theorem exists_mem_zipWith_iff {β : Type} (make : String × Json → Typing → β) (type : β → TypeExpr)
    (htype : ∀ entry typing, type (make entry typing) = typing.unionType)
    (h : entries.length = typings.length) {value : Json} :
    (∃ each ∈ List.zipWith make entries typings, TypeExpr.Admits G (type each) value) ↔
      ∃ typing ∈ typings, typing.Covers G value := by
  have hsnd : (entries.zip typings).map Prod.snd = typings := List.map_snd_zip (Nat.le_of_eq h.symm)
  simp only [← List.map_uncurry_zip_eq_zipWith, List.mem_map, exists_exists_and_eq_and]
  calc (∃ pair ∈ entries.zip typings, TypeExpr.Admits G (type (Function.uncurry make pair)) value)
      ↔ ∃ pair ∈ entries.zip typings, pair.2.Covers G value :=
        exists_congr fun pair => and_congr_right fun _ => by
          rw [Function.uncurry_def, htype, Typing.admits_unionType_iff]
    _ ↔ ∃ typing ∈ typings, typing.Covers G value := by
        conv_rhs => rw [← hsnd]
        simp only [List.mem_map, exists_exists_and_eq_and]

/-- A property takes the values of the schemas under `properties`; one that is required only takes
    every value. -/
theorem exists_mem_membersOf_iff (h : (entriesOf schema "properties").length = properties.length)
    {value : Json} :
    (∃ property ∈ membersOf schema properties, TypeExpr.Admits G property.type value) ↔
      undeclaredNames schema ≠ [] ∨ ∃ typing ∈ properties, typing.Covers G value := by
  have hundeclared : (∃ property ∈ (undeclaredNames schema).map requiredProperty,
      TypeExpr.Admits G property.type value) ↔ undeclaredNames schema ≠ [] := by
    simp [requiredProperty, TypeExpr.Admits, List.eq_nil_iff_forall_not_mem]
  simp only [membersOf, List.mem_append, or_and_right, exists_or]
  rw [hundeclared, exists_mem_zipWith_iff (entryProperty _) (·.type) (fun _ _ => rfl) h, or_comm]

/-- The index signature takes the values of the patterns, and every value if there are additional
    properties. -/
theorem exists_mem_sourcesOf_iff (h : (entriesOf schema "patternProperties").length = patterns.length)
    {value : Json} :
    (∃ source ∈ sourcesOf schema patterns, TypeExpr.Admits G source.type value) ↔
      (additionalSource? schema).isSome = true ∨ ∃ typing ∈ patterns, typing.Covers G value := by
  have hadditional : (∃ source ∈ (additionalSource? schema).toList,
      TypeExpr.Admits G source.type value) ↔ (additionalSource? schema).isSome = true := by
    unfold additionalSource?
    cases (schema.field? "additionalProperties").filter (!·.isFalse) <;> simp [TypeExpr.Admits]
  simp only [sourcesOf, List.mem_append, or_and_right, exists_or]
  rw [hadditional, exists_mem_zipWith_iff (patternSource _) (·.type) (fun _ _ => rfl) h, or_comm]

/-- Whatever the declared types are, the properties of an object type lie within its index signature just
    if there are additional properties or the patterns take every value of a property. -/
theorem members_fit_index_iff (h : (objectTypingOf context schema).Yields names typing names')
    {members : List (Property TypeExpr)} {signature : IndexSignature TypeExpr}
    (htypes : typing.types = [.object members (some signature)]) (G : List String → Json → Prop) :
    ∃ properties patterns names₁,
      TypedEntries (context.descend "properties") true names (entriesOf schema "properties")
        properties names₁ ∧
      TypedEntries (context.descend "patternProperties") false names₁
        (entriesOf schema "patternProperties") patterns names' ∧
      ((∀ property ∈ members, ∀ value, TypeExpr.Admits G property.type value →
          TypeExpr.Admits G signature.type value) ↔
        (∃ additional, schema.field? "additionalProperties" = some additional ∧
          additional ≠ .bool false) ∨
        ∀ value, (undeclaredNames schema ≠ [] ∨ ∃ typing ∈ properties, typing.Covers G value) →
          ∃ typing ∈ patterns, typing.Covers G value) := by
  obtain ⟨properties, patterns, names₁, hproperties, hpatterns, hobject⟩ := exists_objectType h
  refine ⟨properties, patterns, names₁, hproperties, hpatterns, ?_⟩
  obtain ⟨rfl, hindex⟩ := TypeExpr.object.inj (List.singleton_inj.1 (htypes.symm.trans hobject))
  have hsignature (value : Json) : TypeExpr.Admits G signature.type value ↔
      (additionalSource? schema).isSome = true ∨ ∃ typing ∈ patterns, typing.Covers G value := by
    rw [(merges_of_indexSignature hindex.symm).type_eq, TypeExpr.admits_unionOf_iff,
      ← exists_mem_sourcesOf_iff hpatterns.length_eq]
    simp only [List.mem_map, exists_exists_and_eq_and]
  rw [← isSome_additionalSource?_iff]
  simp only [hsignature]
  constructor
  · intro hfit
    by_cases hadditional : (additionalSource? schema).isSome = true
    · exact .inl hadditional
    -- Without additional properties the index signature takes what the patterns take, and no more.
    refine .inr fun value hvalue => ?_
    obtain ⟨property, hproperty, hadmits⟩ := (exists_mem_membersOf_iff hproperties.length_eq).2 hvalue
    exact (hfit property hproperty value hadmits).resolve_left hadditional
  · rintro (hadditional | hcover) property hproperty value hadmits
    · exact .inl hadditional
    · exact .inr (hcover value
        ((exists_mem_membersOf_iff hproperties.length_eq).1 ⟨property, hproperty, hadmits⟩))

/-- A text under `a`, numbers under the names of a pattern, and the rest as said. -/
def patterned (rest : List (String × Json)) : Json :=
  .object ([("type", .string "object"),
    ("properties", .object [("a", .object [("type", .string "string")])]),
    ("patternProperties", .object [("^x", .object [("type", .string "number")])])] ++ rest)

/-- With additional properties the text lies within the index signature. -/
theorem members_fit_index_additional :
    ∃ typing members signature,
      (objectTypingOf { options := {}, baseName := "Main" }
        (patterned [("additionalProperties", .bool true)])).Yields [] typing [] ∧
      typing.types = [.object members (some signature)] ∧
      ∀ property ∈ members, ∀ value, TypeExpr.Admits (fun _ _ => False) property.type value →
        TypeExpr.Admits (fun _ _ => False) signature.type value := by
  obtain ⟨typing, members, signature, hrun, htypes⟩ : ∃ typing members signature,
      (objectTypingOf { options := {}, baseName := "Main" }
        (patterned [("additionalProperties", .bool true)])).Yields [] typing [] ∧
      typing.types = [.object members (some signature)] := ⟨_, _, _, rfl, rfl⟩
  obtain ⟨properties, patterns, names₁, -, -, hfit⟩ :=
    members_fit_index_iff hrun htypes fun _ _ => False
  exact ⟨typing, members, signature, hrun, htypes, hfit.2 (.inl ⟨.bool true, rfl, by simp⟩)⟩

/-- Without them the text does not: the index signature is for numbers only. -/
theorem exists_member_unfit :
    Pointer.references (patterned []) = [] ∧ ∃ typing members signature,
      (objectTypingOf { options := {}, baseName := "Main" } (patterned [])).Yields [] typing [] ∧
      typing.types = [.object members (some signature)] ∧
      ∀ G, ∃ property ∈ members, ∃ value, TypeExpr.Admits G property.type value ∧
        ¬ TypeExpr.Admits G signature.type value := by
  have hpossible : ∃ typing, (objectTypingOf { options := {}, baseName := "Main" } (patterned [])).Yields
      [] typing [] ∧ typing.types = [.object
        [{ name := "a", type := .nonNullable .string, optional := true }]
        (some { type := .nonNullable .number, optional := true })] := ⟨_, rfl, rfl⟩
  obtain ⟨typing, hrun, htypes⟩ := hpossible
  refine ⟨by decide, typing, _, _, hrun, htypes, fun G => ⟨_, List.mem_cons_self, .string "", ?_, ?_⟩⟩
  · simp [TypeExpr.Admits, Json.kind]
  · simp [TypeExpr.Admits, Json.kind]

end Fit

end Typewright.Schema
