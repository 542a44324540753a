import Typewright.Proofs.Api.FixedPoint
import Typewright.Proofs.Api.Orderly
import Typewright.Proofs.Generation.Leniency

/-!
# Every name is declared

The fragments that are made of a linked document mention no path that none of them declares
(`Generation.fragments_closed`).  A document that describes an interface is linked when it is
orderly, a schema document when it refers to no components.

Both kinds of documents have a register (`Api.apiRegister`, `schemaRegister`) to which the fragments
at the start and every expansion keep; when nothing is pending, what is mentioned is declared.
-/

namespace Typewright

/-- Every path that a fragment of the set mentions is declared by one of them. -/
def FragmentSet.Closed (set : FragmentSet) : Prop :=
  ∀ fragment ∈ set.fragments, ∀ path ∈ fragment.mentions,
    ∃ declaring ∈ set.fragments, declaring.declaredPath? = some path

namespace Generation

open Api

/-! ### Schema documents -/

/-- The register of a schema document: every reference has the path that its segments make, and
    there are no members. -/
def schemaRegister (baseName : String) : Register where
  announced reference := (Pointer.split reference).head? ≠ some componentsKey
  names reference path := path = declarationPath baseName reference
  declares reference path := path = declarationPath baseName reference
  members _ := False

section Schema

variable {walk : Walk}

theorem takesEnums_schemaRegister (baseName : String) : (schemaRegister baseName).TakesEnums := by
  intro wish n
  have hpath := EnumDeclaration.declarationPath_referenceOf baseName wish n
  exact ⟨hpath.symm, hpath.symm⟩

/-- Outside an API document every reference is announced that does not lead to the components. -/
theorem coversIn_schemaRegister {value : Json}
    (h : ∀ reference ∈ Pointer.references value,
      (Pointer.split reference).head? ≠ some componentsKey) :
    (schemaRegister walk.context.baseName).CoversIn walk value :=
  fun reference hreference => ⟨h reference hreference, rfl⟩

/-- What is outside the components is expanded as a schema. -/
theorem bucketOf_eq_schemas {path : List String} (h : path.head? ≠ some componentsKey) :
    Walk.bucketOf path = "schemas" := by
  unfold Walk.bucketOf
  split
  · next components bucket name =>
    exact if_neg fun hcomponents => h (congrArg some hcomponents)
  · rfl

theorem announced_declaredSchemas (document : Json) (baseName : String) :
    ∀ reference ∈ declaredSchemaReferences document .schema,
      (schemaRegister baseName).announced reference := by
  intro reference hreference
  obtain ⟨path, hpath, hreference⟩ := List.mem_flatMap.1 hreference
  obtain ⟨name, -, rfl⟩ := List.mem_map.1 hreference
  change (Pointer.split (Pointer.join (path ++ [name]))).head? ≠ some componentsKey
  rw [Pointer.split_join_eq]
  simp only [schemaBuckets, List.mem_cons, List.not_mem_nil, or_false] at hpath
  rcases hpath with rfl | rfl <;> simp [componentsKey]

theorem gives_rootFragments (hspace : walk.context.baseName = walk.space)
    (hidentifier : Naming.identifier walk.space = walk.space)
    (h : ∀ reference ∈ Pointer.references walk.document,
      (Pointer.split reference).head? ≠ some componentsKey) :
    walk.rootFragments.Gives (schemaRegister walk.context.baseName).Registered := by
  refine Register.gives_rootFragments (takesEnums_schemaRegister _) (coversIn_schemaRegister h) ?_
    (announced_declaredSchemas walk.document _)
  change [walk.space] = [Naming.identifier walk.context.baseName]
  rw [hspace, hidentifier]

theorem gives_expand {reference : String}
    (h : ∀ reference ∈ Pointer.references walk.document,
      (Pointer.split reference).head? ≠ some componentsKey)
    (hreference : (Pointer.split reference).head? ≠ some componentsKey) :
    (walk.expand reference).Gives (schemaRegister walk.context.baseName).Registered := by
  refine (Register.gives_expand_of_schema (takesEnums_schemaRegister _)
    (bucketOf_eq_schemas hreference) rfl fun value hvalue => ?_).mono fun _ hset => hset.registered
  exact coversIn_schemaRegister fun other hother =>
    h other (Pointer.references_subset_of_resolve hvalue hother)

end Schema

/-! ### Linked documents -/

/-- An orderly interface, or a schema that refers to no components. -/
def Linked (document : Json) : Prop :=
  match DocumentKind.ofDocument document with
  | .api => Orderly document
  | .schema => ∀ reference ∈ Pointer.references document,
      (Pointer.split reference).head? ≠ some componentsKey

/-- A run begins with one fragment for each reference. -/
theorem nodup_initialFragments (walk : Walk) (kind : DocumentKind) :
    (initialFragments walk kind).Gives fun set => (set.fragments.map Fragment.reference).Nodup := by
  cases kind with
  | api => exact Walk.nodup_documentFragments walk
  | schema => exact Walk.nodup_rootFragments walk

section Document

variable {document : Json} {options : Options} {set : FragmentSet} {stats : Statistics}

/-- Where the fragments of a document are made, they are what the start and the passes gave. -/
theorem exists_passes_of_fragments_eq_ok (h : fragments document options = .ok (set, stats)) :
    ∃ initial names passes names',
      (initialFragments (walkOf document options) (DocumentKind.ofDocument document)).Yields []
          initial names ∧
        (walkOf document options).Passes [] initial names passes set names' ∧
        Walk.Consistent ((walkOf document options).known initial)
          (Walk.expandedIn passes.flatten) set ∧
        Walk.pending (Walk.expandedIn passes.flatten) set = [] := by
  rw [fragments_eq] at h
  have hyields : (fragmentsRun (walkOf document options) (DocumentKind.ofDocument document)).Yields []
      (set, stats) _ := Prod.ext h rfl
  -- The run is the start, then the passes, then what is recorded about the set.
  obtain ⟨initial, names, hstart, hrest⟩ := Run.yields_bind_iff.1 hyields
  obtain ⟨⟨final, passes⟩, names', hfixed, hend⟩ := Run.yields_bind_iff.1 hrest
  obtain ⟨hfinal, -⟩ := Run.yields_pure_iff.1 hend
  obtain ⟨rfl, -⟩ := Prod.mk.inj hfinal
  have hnodup := nodup_initialFragments _ _ _ _ _ hstart
  obtain ⟨passes, hpasses⟩ := Walk.exists_passes_of_yields hnodup hfixed
  exact ⟨initial, names, passes, names', hstart, hpasses⟩

/-- Where the start and every expansion keep to a register, so do the fragments of a document, and
    only what addresses a path item or a callback is still assumed. -/
theorem registered_of_fragments_eq_ok {R : Register}
    (h : fragments document options = .ok (set, stats))
    (hinitial : (initialFragments (walkOf document options)
      (DocumentKind.ofDocument document)).Gives R.Registered)
    (hexpand : ∀ reference, R.announced reference →
      ((walkOf document options).expand reference).Gives R.Registered) :
    R.Registered set ∧ ∀ fragment ∈ set.fragments, fragment.isAssumed = true →
      AddressesPaths fragment.reference := by
  obtain ⟨initial, names, passes, names', hstart, hpasses, hconsistent, hpending⟩ :=
    exists_passes_of_fragments_eq_ok h
  refine ⟨hpasses.registered (hinitial _ _ _ hstart) hexpand, fun fragment hfragment hassumed => ?_⟩
  exact (Walk.declared_of_pending_eq_nil hconsistent hpending hfragment hassumed).2

/-- Only objects describe an interface. -/
theorem exists_fields_of_api (h : DocumentKind.ofDocument document = .api) :
    ∃ fields, document = .object fields := by
  cases document with
  | object fields => exact ⟨fields, rfl⟩
  | _ => simp [DocumentKind.ofDocument, Json.field?, Json.asObject?] at h

/-- Callbacks and path items are visited and not declared, so no type is named after them. -/
theorem not_names_of_addressesPaths {space reference : String} (h : AddressesPaths reference)
    (path : List String) : ¬ (apiRegister space).names reference path := by
  intro hnames
  change namedPath? space (Pointer.split reference) = some path at hnames
  obtain ⟨name, hsplit | hsplit⟩ := h <;>
    rw [hsplit, namedPath?_component, if_neg (by decide)] at hnames <;>
    exact absurd hnames (by simp)

/-- The register of an orderly document holds all that its fragments mention. -/
theorem closed_of_orderly (hkind : DocumentKind.ofDocument document = .api)
    (hdocument : Orderly document) (h : fragments document options = .ok (set, stats)) :
    set.Closed := by
  obtain ⟨fields, rfl⟩ := exists_fields_of_api hkind
  have hwalk : (walkOf (.object fields) options).document = Api.normalize (.object fields) := by
    simp only [walkOf, hkind]
  have hinitial : (initialFragments (walkOf (.object fields) options)
      (DocumentKind.ofDocument (.object fields))).Gives
        (apiRegister (walkOf (.object fields) options).space).Registered := by
    rw [hkind]
    exact hdocument.gives_documentFragments hwalk
  obtain ⟨hregistered, hassumed⟩ := registered_of_fragments_eq_ok h hinitial
    fun reference hannounced => hdocument.gives_expand hwalk hannounced
  intro fragment hfragment path hpath
  refine hregistered.exists_declaring ?_ ?_ ?_ hfragment hpath
  · exact fun reference path path' hnames hdeclares => hdeclares path hnames
  · -- Members have no path of their own.
    intro reference path hnames hmembers
    exact absurd (hnames.symm.trans hmembers) (by simp)
  · exact fun reference hmem => not_names_of_addressesPaths (hassumed (.assumed reference) hmem rfl)

theorem closed_of_schema (hkind : DocumentKind.ofDocument document = .schema)
    (hdocument : ∀ reference ∈ Pointer.references document,
      (Pointer.split reference).head? ≠ some componentsKey)
    (h : fragments document options = .ok (set, stats)) :
    set.Closed ∧ ∀ fragment ∈ set.fragments, fragment.isAssumed = false := by
  have hwalk : (walkOf document options).document = document := by
    simp only [walkOf, hkind]
  rw [← hwalk] at hdocument
  have hinitial : (initialFragments (walkOf document options)
      (DocumentKind.ofDocument document)).Gives
        (schemaRegister (walkOf document options).context.baseName).Registered := by
    rw [hkind]
    exact gives_rootFragments rfl (Naming.identifier_identifier _) hdocument
  obtain ⟨hregistered, hpaths⟩ := registered_of_fragments_eq_ok h hinitial
    fun reference hannounced => gives_expand hdocument hannounced
  have hassumed (fragment : Fragment) (hfragment : fragment ∈ set.fragments) :
      fragment.isAssumed = false := by
    by_contra hnot
    -- What is still assumed addresses a component, and no such reference is announced.
    rw [Bool.not_eq_false] at hnot
    have hallowed := hregistered.allowed fragment hfragment
    rw [Fragment.isAssumed_eq_true hnot] at hallowed
    obtain ⟨name, hsplit | hsplit⟩ := hpaths fragment hfragment hnot <;>
      exact hallowed (congrArg List.head? hsplit)
  refine ⟨fun fragment hfragment path hpath => ?_, hassumed⟩
  refine hregistered.exists_declaring ?_ ?_ ?_ hfragment hpath
  · exact fun reference path path' hnames hdeclares => hdeclares.trans hnames.symm
  · exact fun reference path hnames hmembers => hmembers
  · intro reference hmem
    exact absurd (hassumed (.assumed reference) hmem) (by simp [Fragment.isAssumed])

/-- Where the fragments of a linked document are made, every path that one of them mentions is
    declared by one of them; of a schema document, none is left to be expanded. -/
theorem fragments_closed (hlinked : Linked document)
    (h : fragments document options = .ok (set, stats)) :
    set.Closed ∧ (DocumentKind.ofDocument document = .schema →
      ∀ fragment ∈ set.fragments, fragment.isAssumed = false) := by
  unfold Linked at hlinked
  cases hkind : DocumentKind.ofDocument document with
  | api =>
    rw [hkind] at hlinked
    exact ⟨closed_of_orderly hkind hlinked h, fun hschema => absurd hschema (by decide)⟩
  | schema =>
    rw [hkind] at hlinked
    obtain ⟨hclosed, hassumed⟩ := closed_of_schema hkind hlinked h
    exact ⟨hclosed, fun _ => hassumed⟩

end Document

/-- An interface with one operation, whose response is a schema that refers to itself. -/
def petInterface : Json :=
  let pet := Json.object [("$ref", .string "#/components/schemas/Pet")]
  .object [
    ("openapi", .string "3.1.0"),
    ("paths", .object [("/pets", .object [("get", .object [
      ("operationId", .string "listPets"),
      ("parameters", .array [.object [("name", .string "limit"), ("in", .string "query"),
        ("schema", .object [("type", .string "integer")])]]),
      ("responses", .object [("200", .object [("content", .object [
        ("application/json", .object [("schema", pet)])])])])])])]),
    ("components", .object [("schemas", .object [
      ("Pet", .object [("properties", .object [("friend", pet)])])])])]

/-- A schema of lists, with an enumeration of their entries. -/
def listSchema : Json :=
  .object [
    ("properties", .object [
      ("head", .object [("$ref", .string "#/$defs/Entry")]),
      ("tail", .object [("$ref", .string "#")])]),
    ("$defs", .object [("Entry", .object [("enum", .array [.string "a", .string "b"])])])]

/-- The fragments of the document are made, and the test holds of their set. -/
def makes (document : Json) (options : Options) (test : FragmentSet → Bool) : Bool :=
  (fragments document options).toOption.any fun made => test made.1

theorem exists_of_makes {document : Json} {options : Options} {test : FragmentSet → Bool}
    (h : makes document options test = true) :
    ∃ set stats, fragments document options = .ok (set, stats) ∧ test set = true := by
  obtain ⟨⟨set, stats⟩, hmade, htest⟩ := (Option.any_eq_true _ _).1 h
  refine ⟨set, stats, ?_, htest⟩
  cases hresult : fragments document options with
  | ok made =>
    rw [hresult] at hmade
    exact congrArg Except.ok (Option.some.inj hmade)
  | error failure =>
    rw [hresult] at hmade
    exact absurd hmade (by simp [Except.toOption])

/-- The fragments of the document are made, and one of them mentions the path. -/
def makesMention (document : Json) (path : List String) : Bool :=
  (fragments document {}).toOption.any fun made =>
    made.1.fragments.any fun fragment => fragment.mentions.contains path

theorem exists_of_makesMention {document : Json} {path : List String}
    (h : makesMention document path = true) :
    ∃ set stats, fragments document {} = .ok (set, stats) ∧
      ∃ fragment ∈ set.fragments, path ∈ fragment.mentions := by
  have hmakes : makes document {} (fun set =>
    set.fragments.any fun fragment => fragment.mentions.contains path) = true := h
  obtain ⟨set, stats, hmade, hmentions⟩ := exists_of_makes hmakes
  obtain ⟨fragment, hfragment, hpath⟩ := List.any_eq_true.1 hmentions
  exact ⟨set, stats, hmade, fragment, hfragment, List.contains_iff_mem.1 hpath⟩

theorem orderly_petInterface : Orderly petInterface := by
  -- There is one target in the whole document.
  have hpet {reference : String} (h : reference ∈ Pointer.references petInterface) :
      Pointer.split reference = [componentsKey, "schemas", "Pet"] := by
    have hreferences : Pointer.references petInterface =
        List.replicate 2 "#/components/schemas/Pet" := by decide
    rw [hreferences] at h
    rw [List.eq_of_mem_replicate h]
    decide
  refine ⟨fun reference hreference => ⟨"schemas", by decide, "Pet", hpet hreference⟩, ?_, by decide, ?_⟩
  · intro value hvalue reference hreference hpaths
    have hinside := inside_of_mem_plainValues hvalue
    have hsplit := hpet (Pointer.references_subset_of_inside hinside hreference)
    obtain ⟨name, hname | hname⟩ := hpaths <;> simp [hsplit] at hname
  · intro value hvalue
    have hplaces : ∀ value ∈ (documentParts petInterface).filterMap Part.value?,
        '.' ∉ (ParameterKey.ofJson value).place.toList := by decide
    exact hplaces value (List.mem_filterMap.2 ⟨.parameter value, hvalue, rfl⟩)

/-- The schemas that the interface of pets and the schema of lists refer to are declared. -/
theorem fragments_closed_pets_and_lists :
    (∃ set stats, fragments petInterface {} = .ok (set, stats) ∧
      ∃ declaring ∈ set.fragments,
        declaring.declaredPath? = some ["Components", "Schemas", "Pet"]) ∧
      ∃ set stats, fragments listSchema {} = .ok (set, stats) ∧
        (∀ fragment ∈ set.fragments, fragment.isAssumed = false) ∧
        ∃ declaring ∈ set.fragments, declaring.declaredPath? = some ["Defs", "Entry"] := by
  have hpet : Linked petInterface := orderly_petInterface
  have hlist : Linked listSchema :=
    (by decide : ∀ reference ∈ Pointer.references listSchema,
      (Pointer.split reference).head? ≠ some componentsKey)
  have hmakesPet : makesMention petInterface ["Components", "Schemas", "Pet"] = true := by
    decide +kernel
  have hmakesEntry : makesMention listSchema ["Defs", "Entry"] = true := by decide
  obtain ⟨set, stats, hpets, fragment, hfragment, hpath⟩ := exists_of_makesMention hmakesPet
  obtain ⟨set', stats', hlists, fragment', hfragment', hpath'⟩ := exists_of_makesMention hmakesEntry
  have hpetsClosed := (fragments_closed hpet hpets).1
  obtain ⟨hlistsClosed, hassumed⟩ := fragments_closed hlist hlists
  exact ⟨⟨set, stats, hpets, hpetsClosed fragment hfragment _ hpath⟩,
    set', stats', hlists, hassumed rfl, hlistsClosed fragment' hfragment' _ hpath'⟩

end Generation

end Typewright
